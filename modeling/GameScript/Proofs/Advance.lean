import GameScript.Proofs.Clean

namespace GameScript

/-- The unfinished statements with a finished one in its place. It is in a block, or is the first branch
of an `if`, perhaps inside of the statements that it completes. -/
inductive Stowed : List PendingStmt → Stmt → List PendingStmt → Prop
  | block {node : Node} {role : BlockRole} {statements : List Stmt} {rest : List PendingStmt} {stmt : Stmt}
      (hr : ∀ labels, role = .switchBody labels → labels.groups ≠ []) :
      Stowed (.block ⟨node, role, statements⟩ :: rest) stmt (.block ⟨node, role, stmt :: statements⟩ :: rest)
  | thenBranch {node : Node} {condition : Expr} {rest : List PendingStmt} {stmt : Stmt} :
      Stowed (.ifStmt node (.thenBranch condition) :: rest) stmt
        (.ifStmt node (.awaitElse condition stmt) :: rest)
  | whole {top : PendingStmt} {rest stmts : List PendingStmt} {stmt whole : Stmt}
      (hw : top.complete? stmt = some whole) (hr : Stowed rest whole stmts) : Stowed (top :: rest) stmt stmts

/-- What a significant token does where it is in order. -/
inductive Advance (s : Session) (t : Token) : Session → Prop
  -- Expressions
  | shift {x y : ExprState} {more : List Token} {stream : TokenStream} {id : Nat} (hx : s.Reading t x)
      (hs : s.stream.Takes more stream) (h : Shift s.config s.nextId x (t :: more) id y) :
      Advance s t { s with stream := stream, nextId := id, expr := some { y with started := true } }
  -- Ends of expressions
  | exprStmt {s' : Session} {x : ExprState} {e : Expr} {stmts : List PendingStmt} (hx : s.Reading t x)
      (hc : x.context = .statement) (he : Ends s x s' (.value e)) (hf : e.hasEffect = true)
      (ht : t.isSymbol ';' = true) (hk : Stowed s.stmts (.expr ⟨s'.nextId, e.loc⟩ e) stmts) :
      Advance s t { s' with nextId := s'.nextId + 1, stmts := stmts }
  | supply {s' : Session} {x : ExprState} {e : Expr} {top top' : PendingStmt} {rest : List PendingStmt}
      (hx : s.Reading t x) (hst : s.stmts = top :: rest) (hc : top.reads = some x.context)
      (ht : t.isSymbol ')' = true) (he : Ends s x s' (.value e)) (hp : top.supplied? e = some top') :
      Advance s t { s' with stmts := top' :: rest }
  | clause {s' : Session} {x : ExprState} {completed : Completed} {node : Node} {clause : ForClause}
      {first condition : Option Expr} {rest : List PendingStmt} (hx : s.Reading t x)
      (hst : s.stmts = .forLoop node (.clause clause first condition) :: rest)
      (hc : x.context = .forClause clause) (he : Ends s x s' completed) (hf : completed.isFailed = false)
      (ht : t.isSymbol (if clause = .step then ')' else ';') = true) :
      Advance s t { s' with
        stmts := .forLoop node (Session.nextForPhase clause first condition completed.value?) :: rest,
        expr := clause.next?.map fun c => Session.fresh (.forClause c) }
  | keywordCall {s' : Session} {x : ExprState} {completed : Completed} {node : Node}
      {keyword : CallKeyword} {rest stmts : List PendingStmt} (hx : s.Reading t x)
      (hst : s.stmts = .keywordCall node keyword :: rest) (hc : x.context = .keywordArg)
      (he : Ends s x s' completed) (hf : completed.isFailed = false)
      (hp : Session.argumentProblem? node keyword completed.value? = none) (ht : t.isSymbol ';' = true)
      (hk : Stowed rest (.keywordCall node keyword completed.value?) stmts) :
      Advance s t { s' with stmts := stmts }
  | caseValue {s' : Session} {x : ExprState} {e : Expr} {loc : Location} {node : Node} {labels : SwitchLabels}
      {statements : List Stmt} {rest : List PendingStmt} {v : Value} (hx : s.Reading t x)
      (hst : s.stmts = .caseLabel loc :: .block ⟨node, .switchBody labels, statements⟩ :: rest)
      (hc : x.context = .caseLabel) (he : Ends s x s' (.value e))
      (hv : Fold.evaluate s.constants.lookup? e = .ok v)
      (hp : labelProblem? s.config.allowDefaultWithCase labels (labels.groupAt statements.length)
        (.value (Fold.noteRead s.constants.lookup? e)) (some v) = none) (ht : t.isSymbol ':' = true) :
      Advance s t { s' with
        stmts := .block ⟨node, .switchBody (labels.add statements.length
          (.value (Fold.noteRead s.constants.lookup? e)) (some v) loc), statements⟩ :: rest }
  | constant {s' : Session} {x : ExprState} {e : Expr} {loc : Location} {name : Ident} {v : Value}
      (hx : s.Reading t x) (hm : s.mode = .root (.constValue loc name)) (he : Ends s x s' (.value e))
      (hn : (s.script.constants.any fun c => c.name.same name) = false)
      (hv : Fold.evaluate s.constants.lookup? e = .ok v) (ht : t.isSymbol ';' = true) :
      Advance s t { s' with
        mode := .root .idle, nextId := s'.nextId + 1,
        constants := (lowerWord name.name, v) :: s.constants,
        script := { s.script with constants := s.script.constants ++
          [⟨⟨s'.nextId, loc⟩, name, Fold.noteRead s.constants.lookup? e, some v⟩] } }
  | nextArg {s' : Session} {x : ExprState} {e : Expr} {loc : Location} {name : Ident} {args : List Expr}
      (hx : s.Reading t x) (hm : s.mode = .root (.directiveArgs loc name args))
      (he : Ends s x s' (.value e)) (ht : t.isSymbol ',' = true) :
      Advance s t ((s'.inRoot (.directiveArgs loc name (args ++ [e]))).beginExpr .directiveArgs)
  | closeArgs {s' : Session} {x : ExprState} {completed : Completed} {loc : Location} {name : Ident}
      {args : List Expr} (hx : s.Reading t x) (hm : s.mode = .root (.directiveArgs loc name args))
      (he : Ends s x s' completed) (hf : completed.isFailed = false)
      (ha : completed.value? = none → args = []) (ht : t.isSymbol ')' = true) :
      Advance s t (s'.inRoot (.directiveEnd loc name (args ++ completed.value?.toList)))
  | whole {s' : Session} {x : ExprState} {e : Expr} (hx : s.Reading t x) (hc : x.context = .topLevel)
      (hm : s.mode = .expression) (he : Ends s x s' (.value e))
      (ht : t.isSymbol ';' = true ∨ t.isEof = true) :
      Advance s t { s' with
        output := some (.expression e), mode := if t.isSymbol ';' then .expressionEnd else .done }
  -- Headers
  | openHeader {top top' : PendingStmt} {context : Option ExprContext} {rest : List PendingStmt}
      (h : s.AtHeader top rest) (ho : top.opened? = some (top', context)) (ht : t.isSymbol '(' = true) :
      Advance s t { s with stmts := top' :: rest, expr := context.map Session.fresh }
  | iterator {node : Node} {names names' : IteratorNames} {name : Ident} {rest : List PendingStmt}
      (h : s.AtHeader (.foreachLoop node (.names names)) rest) (hn : names.add? name = some names')
      (ht : s.plainName? t = some name) : Advance s t (s.iteratorName node names' name)
  | nextIterator {node : Node} {name : Ident} {rest : List PendingStmt}
      (h : s.AtHeader (.foreachLoop node (.names (.one name))) rest) (ht : t.isSymbol ',' = true) :
      Advance s t { s with stmts := .foreachLoop node (.names (.oneMore name)) :: rest }
  | iterators {node : Node} {names : IteratorNames} {key : Option Ident} {value : Ident}
      {rest : List PendingStmt} (h : s.AtHeader (.foreachLoop node (.names names)) rest)
      (hn : names.whole? = some (key, value)) (ht : t.isKeyword .inKw s.gameMode = true) :
      Advance s t { s with
        stmts := .foreachLoop node (.collection key value) :: rest,
        expr := some (Session.fresh .foreachCollection) }
  | openSwitch {node : Node} {subject : Expr} {rest : List PendingStmt}
      (h : s.AtHeader (.switch node (.body subject)) rest) (ht : t.isSymbol '\x7b' = true) :
      Advance s t { s with
        nextId := s.nextId + 1, stmts := .block ⟨⟨s.nextId, t.loc⟩, .switchBody {}, []⟩ :: s.stmts }
  | flow {node : Node} {kind : FlowKind} {target : FlowTarget} {rest stmts : List PendingStmt}
      (h : s.AtHeader (.flow node kind target) rest) (ht : t.isSymbol ';' = true)
      (hk : Stowed rest (.flow node kind target) stmts) : Advance s t { s with stmts := stmts }
  | defaultLabel {loc : Location} {node : Node} {labels : SwitchLabels} {statements : List Stmt}
      {rest : List PendingStmt}
      (h : s.AtHeader (.defaultLabel loc) (.block ⟨node, .switchBody labels, statements⟩ :: rest))
      (hp : labelProblem? s.config.allowDefaultWithCase labels (labels.groupAt statements.length)
        (.default loc) none = none) (ht : t.isSymbol ':' = true) :
      Advance s t { s with
        stmts := .block ⟨node, .switchBody (labels.add statements.length (.default loc) none loc),
          statements⟩ :: rest }
  | elseBranch {node : Node} {condition : Expr} {thenBranch : Stmt} {rest : List PendingStmt}
      (h : s.AtHeader (.ifStmt node (.awaitElse condition thenBranch)) rest)
      (ht : t.isKeyword .elseKw s.gameMode = true) :
      Advance s t { s with stmts := .ifStmt node (.elseBranch condition thenBranch) :: rest }
  | noElse {node : Node} {condition : Expr} {thenBranch : Stmt} {rest stmts : List PendingStmt}
      (h : s.AtHeader (.ifStmt node (.awaitElse condition thenBranch)) rest)
      (ht : t.isKeyword .elseKw s.gameMode = false)
      (hk : Stowed rest (.ifThen node condition thenBranch) stmts) :
      Advance s t { s with stmts := stmts }.defer
  -- Statements
  | openBlock {top : PendingStmt} {rest : List PendingStmt} (h : s.AtStatement top rest)
      (ht : t.isSymbol '\x7b' = true) :
      Advance s t { s with
        nextId := s.nextId + 1, stmts := .block ⟨⟨s.nextId, t.loc⟩, .nested, []⟩ :: s.stmts }
  | openStmt {top : PendingStmt} {rest : List PendingStmt} {k : Keyword} {new : PendingStmt}
      (h : s.AtStatement top rest) (ht : t.keyword? s.gameMode = some k)
      (hn : PendingStmt.begun? ⟨s.nextId, t.loc⟩ k = some new) :
      Advance s t { s with nextId := s.nextId + 1, stmts := new :: s.stmts }
  | openCall {top : PendingStmt} {rest : List PendingStmt} {keyword : CallKeyword}
      (h : s.AtStatement top rest) (ht : t.keyword? s.gameMode = some keyword.keyword) :
      Advance s t { s with
        nextId := s.nextId + 1, stmts := .keywordCall ⟨s.nextId, t.loc⟩ keyword :: s.stmts,
        expr := some (Session.fresh .keywordArg) }
  | openFlow {top : PendingStmt} {rest : List PendingStmt} {kind : FlowKind} {target : FlowTarget}
      (h : s.AtStatement top rest) (ht : t.keyword? s.gameMode = some kind.keyword)
      (hf : Session.flowTarget? s.stmts kind = some target) :
      Advance s t { s with
        nextId := s.nextId + 1, stmts := .flow ⟨s.nextId, t.loc⟩ kind target :: s.stmts }
  | openCase {node : Node} {labels : SwitchLabels} {statements : List Stmt} {rest : List PendingStmt}
      (h : s.AtStatement (.block ⟨node, .switchBody labels, statements⟩) rest)
      (ht : t.keyword? s.gameMode = some .caseKw) :
      Advance s t { s with
        stmts := .caseLabel t.loc :: s.stmts, expr := some (Session.fresh .caseLabel) }
  | openDefault {node : Node} {labels : SwitchLabels} {statements : List Stmt} {rest : List PendingStmt}
      (h : s.AtStatement (.block ⟨node, .switchBody labels, statements⟩) rest)
      (ht : t.keyword? s.gameMode = some .defaultKw) :
      Advance s t { s with stmts := .defaultLabel t.loc :: s.stmts }
  | straySemicolon {top : PendingStmt} {rest : List PendingStmt} (h : s.AtStatement top rest)
      (hb : top.awaitsBody = false) (ht : t.isSymbol ';' = true) :
      Advance s t (s.report .straySemicolon t.loc)
  | emptyBody {top : PendingStmt} {rest stmts : List PendingStmt} (h : s.AtStatement top rest)
      (hb : top.awaitsBody = true) (ht : t.isSymbol ';' = true)
      (hk : Stowed s.stmts (.block ⟨s.nextId, t.loc⟩ []) stmts) :
      Advance s t { s.report .straySemicolon t.loc with nextId := s.nextId + 1, stmts := stmts }
  | closeBlock {node : Node} {statements : List Stmt} {rest stmts : List PendingStmt}
      (h : s.AtStatement (.block ⟨node, .nested, statements⟩) rest) (ht : t.isSymbol '\x7d' = true)
      (hk : Stowed rest (.block node statements.reverse) stmts) : Advance s t { s with stmts := stmts }
  | closeSwitch {node : Node} {labels : SwitchLabels} {statements : List Stmt} {switch : Node}
      {subject : Expr} {rest stmts : List PendingStmt}
      (h : s.AtStatement (.block ⟨node, .switchBody labels, statements⟩)
        (.switch switch (.body subject) :: rest)) (ht : t.isSymbol '\x7d' = true)
      (hk : Stowed rest (.switch switch subject node statements.reverse
        (closeGroups statements.length labels.groups)) stmts) :
      Advance s t { { s with stmts := rest }.noteSwitch switch labels statements t with stmts := stmts }
  | closeFunction {node : Node} {statements : List Stmt} {header : FunctionHeader}
      (h : s.AtStatement (.block ⟨node, .functionBody, statements⟩) []) (hm : s.mode = .body header)
      (hd : s.config.target = .function ∨ s.script.findFunction? header.name.name = none)
      (ht : t.isSymbol '\x7d' = true) :
      Advance s t ({ s with stmts := [], mode := .root .idle }.defineFunction
        (header.define (some ⟨node, statements.reverse⟩)))
  -- Declarations
  | pass {phase phase' : RootPhase} (h : s.AtRoot phase) (hp : Passes s t phase phase') :
      Advance s t (s.inRoot phase')
  | rootSemicolon (h : s.AtRoot .idle) (ht : t.isSymbol ';' = true) :
      Advance s t (s.report .straySemicolon t.loc)
  | dots {header : FunctionHeader} {pending : PendingParam} {loc : Location} {m : ParamModifiers}
      {u v : Token} {stream : TokenStream} (h : s.AtRoot (.param header pending))
      (hp : pending.getD (t.loc, {}) = (loc, m)) (hm : m.variadic = false)
      (hs : s.stream.Takes [u, v] stream) (ht : Token.Spell [t, u, v] "...") :
      Advance s t { s with
        stream := stream, mode := .root (.param header (some (loc, { m with variadic := true }))) }
  | importScript {loc : Location} {segments : ModulePath} (h : s.AtRoot (.importPath loc segments false))
      (ht : t.isSymbol ';' = true) : Advance s t ((s.inRoot .idle).addImport loc segments)
  | declarative {loc : Location} {name : Ident} (h : s.AtRoot (.directiveHead loc name))
      (hn : DirectiveName.ofWord? name.name = some .declarative)
      (hf : Session.isFresh s.script = true) (ht : t.isSymbol ';' = true) :
      Advance s t ({ s with mode := .root .idle, script := { s.script with declarative := true } }.addDirective
        loc (.bare name))
  | bareDirective {loc : Location} {name : Ident} (h : s.AtRoot (.directiveHead loc name))
      (hn : DirectiveName.ofWord? name.name ≠ some .declarative) (ht : t.isSymbol ';' = true) :
      Advance s t ((s.inRoot .idle).addDirective loc (.bare name))
  | directive {loc : Location} {name : Ident} {args : List Expr} (h : s.AtRoot (.directiveEnd loc name args))
      (ht : t.isSymbol ';' = true) : Advance s t ((s.inRoot .idle).addDirective loc (.withArgs name args))
  | openArgs {loc : Location} {name : Ident} (h : s.AtRoot (.directiveHead loc name))
      (ht : t.isSymbol '(' = true) :
      Advance s t ((s.inRoot (.directiveArgs loc name [])).beginExpr .directiveArgs)
  | openConstant {loc : Location} {name : Ident} (h : s.AtRoot (.constEquals loc name))
      (ht : t.isSymbol '=' = true) : Advance s t ((s.inRoot (.constValue loc name)).beginExpr .constValue)
  | globals {names : List Ident} (h : s.AtRoot (.globals names false)) (ht : t.isSymbol ';' = true) :
      Advance s t { s with
        mode := .root .idle, script := { s.script with globals := s.script.globals ++ names } }
  | openParams {name : Ident} (h : s.AtRoot (.functionOpen name)) (ht : t.isSymbol '(' = true) :
      Advance s t { s with
        nextId := s.nextId + 1, mode := .root (.param ⟨⟨s.nextId, name.loc⟩, name, []⟩ none) }
  | openBody {header : FunctionHeader} (h : s.AtRoot (.functionEnd header))
      (hd : (s.script.declarative && s.config.target == .script) = false)
      (ht : t.isSymbol '\x7b' = true) :
      Advance s t { s with
        nextId := s.nextId + 1, mode := .body header,
        stmts := .block ⟨⟨s.nextId, t.loc⟩, .functionBody, []⟩ :: s.stmts }
  | declare {header : FunctionHeader} (h : s.AtRoot (.functionEnd header))
      (hd : (s.script.declarative && s.config.target == .script) = true)
      (hn : s.script.findFunction? header.name.name = none) (ht : t.isSymbol ';' = true) :
      Advance s t ((s.inRoot .idle).defineFunction (header.define none))
  | scriptEnd (h : s.AtRoot .idle) (hc : s.config.target ≠ .function) (ht : t.isEof = true) :
      Advance s t { s with script := {}, output := some (.script s.script), mode := .done }
  | functionEnd (h : s.AtRoot .idle) (hc : s.config.target = .function) (ho : s.output.isSome = true)
      (ht : t.isEof = true) : Advance s t { s with mode := .done }
  -- Lone expressions
  | expressionEnd (hr : s.recovery = none) (hx : s.expr = none) (hm : s.mode = .expressionEnd)
      (ht : t.isEof = true) : Advance s t { s with mode := .done }

namespace Session

variable {s : Session}

/-! Where nothing is reported, what was to be done is done -/

theorem report_grows {p : Problem} {loc : Location} (hp : p.severity ≠ .warning)
    (h : (s.report p loc).failed.size ≤ s.failed.size) : False :=
  absurd h (Nat.not_le_of_lt (failed_lt_report hp))

theorem bind_stowed {stmts : List PendingStmt} (stmt : Stmt) (hk : StackShaped stmts)
    (ho : ∀ top ∈ stmts.head?, top.isOpen = true) (h : (s.bind stmts stmt).failed.size ≤ s.failed.size) :
    ∃ stmts', Stowed stmts stmt stmts' ∧ s.bind stmts stmt = { s with stmts := stmts' } := by
  induction stmts generalizing stmt with
  | nil => exact (hk.ne_nil rfl).elim
  | cons top rest ih =>
    have hopen := ho top rfl
    -- A statement that is complete goes to the one below it, which is open.
    have hwhole {whole : Stmt} (hw : top.complete? stmt = some whole) (hb : ∀ b, top ≠ .block b)
        (hf : (s.bind rest whole).failed.size ≤ s.failed.size) :
        ∃ stmts', Stowed (top :: rest) stmt stmts' ∧ s.bind rest whole = { s with stmts := stmts' } := by
      obtain ⟨below, rest', rfl, hbelow, hrest⟩ := hk.under hb
      obtain ⟨stmts', hs, he⟩ := ih whole hrest (by simpa using hbelow) hf
      exact ⟨stmts', .whole hw hs, he⟩
    unfold bind at h ⊢
    cases top with
    | block b =>
      obtain ⟨node, role, statements⟩ := b
      simp only [addToBlock] at h ⊢
      cases role with
      | switchBody labels =>
        cases hg : labels.groups with
        | nil =>
          simp only [hg, List.isEmpty_nil, if_true] at h
          exact (report_grows (by simp [Problem.severity]) h).elim
        | cons c earlier =>
          refine ⟨_, .block ?_, by simp [hg]⟩
          rintro _ ⟨⟩
          simp [hg]
      | functionBody | nested => exact ⟨_, .block (by simp), rfl⟩
    | ifStmt node phase =>
      cases phase with
      | thenBranch condition => exact ⟨_, .thenBranch, rfl⟩
      | elseBranch condition thenBranch => exact hwhole rfl (by simp) h
      | _ => cases hopen
    | whileLoop node phase =>
      cases phase with
      | body => exact hwhole rfl (by simp) h
      | _ => cases hopen
    | forLoop node phase =>
      cases phase with
      | body => exact hwhole rfl (by simp) h
      | _ => cases hopen
    | foreachLoop node phase =>
      cases phase with
      | body => exact hwhole rfl (by simp) h
      | _ => cases hopen
    | _ => cases hopen

theorem finishStmt_stowed (stmt : Stmt) (hk : StackShaped s.stmts)
    (ho : ∀ top ∈ s.stmts.head?, top.isOpen = true) (h : (s.finishStmt stmt).failed.size ≤ s.failed.size) :
    ∃ stmts, Stowed s.stmts stmt stmts ∧ s.finishStmt stmt = { s with stmts := stmts } :=
  bind_stowed stmt hk ho h

theorem finishStmt_below {top : PendingStmt} {rest : List PendingStmt} (stmt : Stmt)
    (hk : StackShaped (top :: rest)) (hb : ∀ b, top ≠ .block b)
    (h : ({ s with stmts := rest }.finishStmt stmt).failed.size ≤ s.failed.size) :
    ∃ stmts, Stowed rest stmt stmts ∧
      { s with stmts := rest }.finishStmt stmt = { s with stmts := stmts } := by
  obtain ⟨below, rest', rfl, ho, hrest⟩ := hk.under hb
  exact bind_stowed (s := { s with stmts := below :: rest' }) stmt hrest (by simpa using ho) h

theorem labelProblem?_severity {allow : Bool} {labels : SwitchLabels} {group : List CaseLabel}
    {label : CaseLabel} {value : Option Value} {p : Problem}
    (h : labelProblem? allow labels group label value = some p) : p.severity ≠ .warning := by
  unfold labelProblem? at h
  split at h
  · split at h
    · cases h
      simp [Problem.severity]
    split at h <;> cases h
    simp [Problem.severity]
  · split at h
    · cases h
      simp [Problem.severity]
    split at h
    · split at h <;> cases h
      simp [Problem.severity]
    · cases h

theorem addLabel_added {node : Node} {labels : SwitchLabels} {statements : List Stmt} {rest : List PendingStmt}
    {label : CaseLabel} {value : Option Value} {loc : Location}
    (hst : s.stmts = .block ⟨node, .switchBody labels, statements⟩ :: rest)
    (h : (s.addLabel label value loc).failed.size ≤ s.failed.size) :
    labelProblem? s.config.allowDefaultWithCase labels (labels.groupAt statements.length) label value = none ∧
      s.addLabel label value loc = { s with
        stmts := .block ⟨node, .switchBody (labels.add statements.length label value loc), statements⟩ :: rest } := by
  unfold addLabel at h ⊢
  simp only [hst] at h ⊢
  split at h
  · next hp => exact (report_grows (labelProblem?_severity hp) h).elim
  · next hp => exact ⟨hp, rfl⟩

theorem caseValue_added {node : Node} {labels : SwitchLabels} {statements : List Stmt} {rest : List PendingStmt}
    {e : Expr} {loc : Location} (hst : s.stmts = .block ⟨node, .switchBody labels, statements⟩ :: rest)
    (h : (s.caseValue e loc).failed.size ≤ s.failed.size) :
    ∃ v, Fold.evaluate s.constants.lookup? e = .ok v ∧
      labelProblem? s.config.allowDefaultWithCase labels (labels.groupAt statements.length)
        (.value (Fold.noteRead s.constants.lookup? e)) (some v) = none ∧
      s.caseValue e loc = { s with
        stmts := .block ⟨node, .switchBody (labels.add statements.length
          (.value (Fold.noteRead s.constants.lookup? e)) (some v) loc), statements⟩ :: rest } := by
  unfold caseValue at h ⊢
  simp only at h ⊢
  split at h
  · next v hv =>
    obtain ⟨hp, he⟩ := addLabel_added hst h
    exact ⟨v, hv, hp, he⟩
  · next reason hv =>
    have hgrows : s.failed.size < (s.report (.caseNotConstant e.text reason) e.loc).failed.size :=
      failed_lt_report (by simp [Problem.severity])
    have hle := le_failed_addLabel (.value (Fold.noteRead s.constants.lookup? e)) none loc
      (Nat.succ_le_of_lt hgrows)
    omega

theorem addConstant_added {loc : Location} {name : Ident} {value : Expr}
    (h : (s.addConstant loc name value).failed.size ≤ s.failed.size) :
    (s.script.constants.any fun c => c.name.same name) = false ∧
      ∃ v, Fold.evaluate s.constants.lookup? value = .ok v ∧ s.addConstant loc name value = { s with
        nextId := s.nextId + 1, constants := (lowerWord name.name, v) :: s.constants,
        script := { s.script with constants := s.script.constants ++
          [⟨⟨s.nextId, loc⟩, name, Fold.noteRead s.constants.lookup? value, some v⟩] } } := by
  unfold addConstant at h ⊢
  split at h
  · exact (report_grows (by simp [Problem.severity]) h).elim
  · next hn =>
    refine ⟨by simpa using hn, ?_⟩
    rw [if_neg hn]
    simp only at h ⊢
    split at h
    · next v hv => exact ⟨v, hv, rfl⟩
    · exact (report_grows (by simp [Problem.severity]) h).elim

theorem defineFunction_defined {f : FunctionDef} (h : (s.defineFunction f).failed.size ≤ s.failed.size) :
    s.config.target = .function ∨ s.script.findFunction? f.name.name = none := by
  unfold defineFunction at h
  split at h
  · next hc => exact .inl hc
  split at h
  · exact (report_grows (by simp [Problem.severity]) h).elim
  · next hn => exact .inr (by simpa using hn)

theorem defineFunction_new {f : FunctionDef}
    (h : s.config.target = .function ∨ s.script.findFunction? f.name.name = none) :
    s.config.target = .function ∧ s.defineFunction f = { s with output := some (.function f) } ∨
      s.config.target ≠ .function ∧ s.defineFunction f = s.addDeclaration (.function f) := by
  unfold defineFunction
  split
  · next hc => exact .inl ⟨hc, rfl⟩
  · next hc =>
    rw [h.resolve_left hc]
    exact .inr ⟨hc, rfl⟩

theorem report_warning {p : Problem} (loc : Location) (hp : p.severity = .warning) :
    ∃ warned, s.report p loc = { s with warned := warned } := by
  simp only [report, record, severity_complaint, hp]
  exact ⟨_, rfl⟩

theorem noteSwitch_warned (switch : Node) (labels : SwitchLabels) (statements : List Stmt) (t : Token) :
    ∃ warned, s.noteSwitch switch labels statements t = { s with warned := warned } := by
  have hnote {b : Session} (hb : ∃ warned, b = { s with warned := warned }) (p : Problem) (loc : Location)
      (hp : p.severity = .warning) : ∃ warned, b.report p loc = { s with warned := warned } := by
    obtain ⟨warned, rfl⟩ := hb
    exact report_warning loc hp
  have hself : ∃ warned, s = { s with warned := warned } := ⟨_, rfl⟩
  unfold noteSwitch
  simp only
  split <;> split
  · exact hnote (hnote hself _ _ rfl) _ _ rfl
  · exact hnote hself _ _ rfl
  · exact hnote hself _ _ rfl
  · exact hself

theorem iteratorName_warned (node : Node) (names : IteratorNames) (name : Ident) :
    ∃ warned stmts, s.iteratorName node names name = { s with warned := warned, stmts := stmts } := by
  unfold iteratorName
  simp only
  split
  · obtain ⟨warned, hw⟩ := report_warning (s := s) (p := .shadowedIterator name.name) name.loc rfl
    rw [hw]
    exact ⟨_, _, rfl⟩
  · exact ⟨_, _, rfl⟩

end Session

theorem Ends.of_failed_le {s s' : Session} {x : ExprState} {completed : Completed} (h : Ends s x s' completed)
    (hf : s'.failed.size ≤ s.failed.size) : completed.isFailed = false ∧ ∃ stream id,
      s.stream.Takes [] stream ∧ s' = { s with stream := stream, nextId := id, expr := none } := by
  cases h with
  | value hs => exact ⟨rfl, _, _, hs, rfl⟩
  | empty hs => exact ⟨rfl, _, _, hs, rfl⟩
  | failed _ _ hg => exact absurd hf (Nat.not_le_of_lt hg.grows)

theorem Ends.of_value {s s' : Session} {x : ExprState} {e : Expr} (h : Ends s x s' (.value e)) :
    ∃ stream id, s.stream.Takes [] stream ∧ s' = { s with stream := stream, nextId := id, expr := none } := by
  cases h with
  | value hs => exact ⟨_, _, hs, rfl⟩

theorem Ends.of_not_failed {s s' : Session} {x : ExprState} {completed : Completed} (h : Ends s x s' completed)
    (hf : completed.isFailed = false) :
    ∃ stream id, s.stream.Takes [] stream ∧ s' = { s with stream := stream, nextId := id, expr := none } := by
  cases h with
  | value hs | empty hs => exact ⟨_, _, hs, rfl⟩
  | failed => cases hf

theorem Turn.advance {s s' : Session} {t : Token} (h : Turn s t s') (hs : s.Shaped) (hr : s.recovery = none)
    (hf : s'.failed.size ≤ s.failed.size) : Advance s t s' := by
  -- Where an error is reported, the record grows, against `hf`. The rest are the cases of `Advance` one by one.
  have hgrew {b : Session} (hb : Fails s b) (hle : b.failed.size ≤ s.failed.size) : False :=
    absurd hle (Nat.not_le_of_lt hb.grows)
  have hgrew' {b : Session} {stream : TokenStream} {id : Nat} {expr : Option ExprState}
      (hb : Fails { s with stream := stream, nextId := id, expr := expr } b)
      (hle : b.failed.size ≤ s.failed.size) : False :=
    absurd hle (Nat.not_le_of_lt hb.grows)
  cases h with
  | skip hr' => simp [hr] at hr'
  | shift hx hst h => exact .shift hx hst h
  | truncate _ _ hf' | halt _ _ _ hf' | dropStmt _ _ _ _ hf' | dropHeader _ _ _ _ _ _ hf'
  | dropConstant _ _ _ _ hf' | spoilWhole _ _ _ _ _ _ hf' | unbalanced _ _ hf' | spoil _ _ hf'
  | noExpression _ _ _ hf' => exact absurd hf (Nat.not_le_of_lt hf'.grows)
  | reject _ _ _ hf' =>
    rw [Session.failed_resync] at hf
    exact (hgrew' hf' hf).elim
  | misplace _ hf' =>
    rw [Session.failed_enterRecovery] at hf
    exact (hgrew hf' hf).elim
  | missBody _ _ _ hf' =>
    rw [Session.failed_defer] at hf
    have hle := hf'.grows
    exact absurd hf (Nat.not_le_of_lt (Session.le_failed_finishStmt _ hle))
  | exprStmt hx hc hm he hef ht =>
    obtain ⟨header, top, rest, hm, hst, ho, hk⟩ := hx.open_of_statement hs hc
    have he' := he
    obtain ⟨stream, id, -, rfl⟩ := he.of_value
    obtain ⟨stmts, hstow, heq⟩ := Session.finishStmt_stowed
      (s := { s with stream := stream, nextId := id + 1, expr := none }) _ hk (by simpa [hst] using ho) hf
    rw [heq]
    exact .exprStmt hx hc he' hef ht hstow
  | supply hx hst hc ht he hp =>
    cases he with
    | given he => exact .supply hx hst hc ht he hp
    | missing _ _ hf' => exact (hgrew' hf' hf).elim
  | clause hx hst hc he ht => exact .clause hx hst hc he (he.of_failed_le hf).1 ht
  | keywordCall hx hst hc he hnf hp ht =>
    have he' := he
    obtain ⟨stream, id, -, rfl⟩ := he.of_not_failed hnf
    obtain ⟨stmts, hstow, heq⟩ := Session.finishStmt_below
      (s := { s with stream := stream, nextId := id, expr := none }) _ (hs.stack hst).2 (by simp) hf
    rw [heq]
    exact .keywordCall hx hst hc he' hnf hp ht hstow
  | caseValue hx hst hc he ht =>
    have he' := he
    obtain ⟨stream, id, -, rfl⟩ := he.of_value
    obtain ⟨-, hk⟩ := hs.stack hst
    cases hk with
    | cons _ hon =>
      obtain ⟨node, labels, statements, rfl⟩ := hon
      obtain ⟨v, hv, hp, heq⟩ := Session.caseValue_added (by rfl) hf
      rw [heq]
      have hadv := Advance.caseValue hx hst hc he' hv hp ht
      exact hadv
  | constant hx hm he ht =>
    have he' := he
    obtain ⟨stream, id, -, rfl⟩ := he.of_value
    obtain ⟨hn, v, hv, heq⟩ := Session.addConstant_added hf
    rw [heq]
    have hadv := Advance.constant hx hm he' hn hv ht
    exact hadv
  | nextArg hx hm he ht => exact .nextArg hx hm he ht
  | closeArgs hx hm he hnf ha ht => exact .closeArgs hx hm he hnf ha ht
  | whole hx hc hm he ht => exact .whole hx hc hm he ht
  | openHeader h ho ht => exact .openHeader h ho ht
  | iterator h hn ht => exact .iterator h hn ht
  | nextIterator h ht => exact .nextIterator h ht
  | iterators h hn ht => exact .iterators h hn ht
  | openSwitch h ht => exact .openSwitch h ht
  | flow h ht =>
    obtain ⟨stmts, hstow, heq⟩ := Session.finishStmt_below _ (hs.stack h.stmts).2 (by simp) hf
    rw [heq]
    exact .flow h ht hstow
  | defaultLabel h ht =>
    obtain ⟨-, hk⟩ := hs.stack h.stmts
    cases hk with
    | cons _ hon =>
      obtain ⟨node, labels, statements, rfl⟩ := hon
      obtain ⟨hp, heq⟩ := Session.addLabel_added (by rfl) hf
      rw [heq]
      exact .defaultLabel h hp ht
  | elseBranch h ht => exact .elseBranch h ht
  | noElse h ht =>
    obtain ⟨stmts, hstow, heq⟩ := Session.finishStmt_below _ (hs.stack h.stmts).2 (by simp) hf
    rw [heq]
    exact .noElse h ht hstow
  | openBlock h ht => exact .openBlock h ht
  | openStmt h ht hn => exact .openStmt h ht hn
  | openCall h ht => exact .openCall h ht
  | openFlow h ht hn => exact .openFlow h ht hn
  | openCase h ht => exact .openCase h ht
  | openDefault h ht => exact .openDefault h ht
  | straySemicolon h hb ht => exact .straySemicolon h hb ht
  | emptyBody h hb ht =>
    obtain ⟨warned, hw⟩ := Session.report_warning (s := s) (p := .straySemicolon) t.loc rfl
    -- The warning comes before the statement is finished.
    have hadv (stmts : List PendingStmt) (hk : Stowed s.stmts (.block ⟨s.nextId, t.loc⟩ []) stmts) :=
      Advance.emptyBody h hb ht hk
    rw [hw] at hf hadv ⊢
    obtain ⟨stmts, hstow, heq⟩ := Session.finishStmt_stowed
      (s := { s with warned := warned, nextId := s.nextId + 1 }) (.block ⟨s.nextId, t.loc⟩ [])
      (h.inBody hs).stack (by simpa [h.stmts] using h.opened) hf
    have := hadv stmts hstow
    rw [← heq] at this
    exact this
  | closeBlock h ht =>
    obtain ⟨-, hk⟩ := hs.stack h.stmts
    cases hk with
    | cons hk hon =>
      obtain ⟨stmts, hstow, heq⟩ := Session.finishStmt_stowed (s := { s with stmts := _ :: _ }) _ hk
        (by simpa [PendingStmt.StandsOn] using hon) hf
      rw [heq]
      exact .closeBlock h ht hstow
  | @closeSwitch node labels statements switch subject rest h ht =>
    obtain ⟨-, hk⟩ := hs.stack h.stmts
    cases hk with
    | cons hk =>
      obtain ⟨warned, hw⟩ := Session.noteSwitch_warned (s := { s with stmts := rest }) switch labels statements t
      have hadv (stmts : List PendingStmt) (hk : Stowed rest (.switch switch subject node statements.reverse
          (closeGroups statements.length labels.groups)) stmts) := Advance.closeSwitch h ht hk
      rw [hw] at hf hadv ⊢
      obtain ⟨stmts, hstow, heq⟩ := Session.finishStmt_below (s := { s with warned := warned }) _ hk (by simp) hf
      rw [heq]
      exact hadv stmts hstow
  | closeFunction h hm ht =>
    have hd := Session.defineFunction_defined hf
    exact .closeFunction h hm hd ht
  | pass h hp => exact .pass h hp
  | rootSemicolon h ht => exact .rootSemicolon h ht
  | dots h hp hm hst ht => exact .dots h hp hm hst ht
  | importScript h ht => exact .importScript h ht
  | declarative h hn hfresh ht => exact .declarative h hn hfresh ht
  | bareDirective h hn ht => exact .bareDirective h hn ht
  | directive h ht => exact .directive h ht
  | openArgs h ht => exact .openArgs h ht
  | openConstant h ht => exact .openConstant h ht
  | globals h ht => exact .globals h ht
  | openParams h ht => exact .openParams h ht
  | openBody h hd ht => exact .openBody h hd ht
  | declare h hd ht =>
    have hn := Session.defineFunction_defined hf
    refine .declare h hd (hn.resolve_left ?_) ht
    intro hc
    simp [show s.config.target = .function from hc] at hd
  | scriptEnd h hc hf' ht =>
    obtain ⟨rfl, rfl⟩ | hf' := hf'
    · exact .scriptEnd h hc ht
    · exact (hgrew hf' hf).elim
  | functionEnd h hc hf' =>
    obtain ⟨rfl, rfl, ho, ht⟩ | hf' := hf'
    · exact .functionEnd h hc ho ht
    · exact (hgrew hf' hf).elim
  | expressionEnd hr hx hm hf' =>
    obtain ⟨rfl, ht⟩ | hf' := hf'
    · exact .expressionEnd hr hx hm ht
    · exact (hgrew hf' hf).elim

theorem Advance.calm {s s' : Session} {t : Token} (h : Advance s t s') :
    s'.recovery = s.recovery ∧ s'.halted = s.halted ∧ s'.failed = s.failed := by
  have hdefine {b : Session} {f : FunctionDef} (hr : b.recovery = s.recovery) (hh : b.halted = s.halted)
      (hf : b.failed = s.failed) (hd : b.config.target = .function ∨ b.script.findFunction? f.name.name = none) :
      (b.defineFunction f).recovery = s.recovery ∧ (b.defineFunction f).halted = s.halted ∧
        (b.defineFunction f).failed = s.failed := by
    obtain ⟨-, he⟩ | ⟨-, he⟩ := Session.defineFunction_new hd <;> rw [he] <;> exact ⟨hr, hh, hf⟩
  cases h with
  | exprStmt _ _ he | supply _ _ _ _ he | caseValue _ _ _ he | constant _ _ he | nextArg _ _ he | whole _ _ _ he =>
    obtain ⟨_, _, -, rfl⟩ := he.of_value
    exact ⟨rfl, rfl, rfl⟩
  | clause _ _ _ he hf | keywordCall _ _ _ he hf | closeArgs _ _ he hf =>
    obtain ⟨_, _, -, rfl⟩ := he.of_not_failed hf
    exact ⟨rfl, rfl, rfl⟩
  | iterator =>
    obtain ⟨_, _, hw⟩ := Session.iteratorName_warned (s := s) _ _ _
    rw [hw]
    exact ⟨rfl, rfl, rfl⟩
  | noElse => exact ⟨rfl, rfl, rfl⟩
  | straySemicolon | rootSemicolon | emptyBody =>
    obtain ⟨_, hw⟩ := Session.report_warning (s := s) (p := .straySemicolon) t.loc rfl
    rw [hw]
    exact ⟨rfl, rfl, rfl⟩
  | @closeSwitch _ labels statements switch _ rest =>
    obtain ⟨_, hw⟩ := Session.noteSwitch_warned (s := { s with stmts := rest }) switch labels statements t
    rw [hw]
    exact ⟨rfl, rfl, rfl⟩
  | closeFunction _ _ hd => exact hdefine rfl rfl rfl hd
  | declare _ _ hn => exact hdefine rfl rfl rfl (.inr hn)
  | _ => exact ⟨rfl, rfl, rfl⟩

def Graph.target : Graph → ParseTarget
  | script _ => .script
  | function _ => .function
  | expression _ => .expression

def Mode.Fits (target : ParseTarget) (output : Option Graph) : Mode → Prop
  | root _ | body _ => target ≠ .expression
  | expression => target = .expression
  | expressionEnd | done => output.isSome = true

structure Session.OnTarget (s : Session) : Prop where
  output : ∀ g ∈ s.output, g.target = s.config.target
  mode : s.mode.Fits s.config.target s.output

theorem Advance.onTarget {s s' : Session} {t : Token} (h : Advance s t s') (hs : s.OnTarget) : s'.OnTarget := by
  obtain ⟨ho, hm⟩ := hs
  have hroot {phase : RootPhase} (hr : s.AtRoot phase) : s.config.target ≠ .expression := by
    rw [hr.mode] at hm
    exact hm
  have hdefine {b : Session} {f : FunctionDef} (hc : b.config = s.config) (hout : b.output = s.output)
      (hb : b.mode = .root .idle) (ht : s.config.target ≠ .expression)
      (hd : b.config.target = .function ∨ b.script.findFunction? f.name.name = none) :
      (b.defineFunction f).OnTarget := by
    obtain ⟨hf, he⟩ | ⟨-, he⟩ := Session.defineFunction_new hd <;> rw [he]
    · exact ⟨by rintro _ ⟨⟩; exact hf.symm, by simpa [Mode.Fits, hb, hc] using ht⟩
    · refine ⟨?_, by simpa [Mode.Fits, Session.addDeclaration, hb, hc] using ht⟩
      simpa [Session.addDeclaration, hout, hc] using ho
  cases h with
  | exprStmt _ _ he | supply _ _ _ _ he | caseValue _ _ _ he =>
    obtain ⟨_, _, -, rfl⟩ := he.of_value
    exact ⟨ho, hm⟩
  | clause _ _ _ he hf | keywordCall _ _ _ he hf =>
    obtain ⟨_, _, -, rfl⟩ := he.of_not_failed hf
    exact ⟨ho, hm⟩
  | constant _ hm' he | nextArg _ hm' he =>
    obtain ⟨_, _, -, rfl⟩ := he.of_value
    rw [hm'] at hm
    exact ⟨ho, hm⟩
  | closeArgs _ hm' he hf =>
    obtain ⟨_, _, -, rfl⟩ := he.of_not_failed hf
    rw [hm'] at hm
    exact ⟨ho, hm⟩
  | whole _ _ hm' he =>
    obtain ⟨_, _, -, rfl⟩ := he.of_value
    rw [hm'] at hm
    refine ⟨by rintro _ ⟨⟩; exact hm.symm, ?_⟩
    simp only
    split <;> rfl
  | iterator =>
    obtain ⟨_, _, hw⟩ := Session.iteratorName_warned (s := s) _ _ _
    rw [hw]
    exact ⟨ho, hm⟩
  | noElse => exact ⟨ho, hm⟩
  | straySemicolon | rootSemicolon | emptyBody =>
    obtain ⟨_, hw⟩ := Session.report_warning (s := s) (p := .straySemicolon) t.loc rfl
    rw [hw]
    exact ⟨ho, hm⟩
  | @closeSwitch _ labels statements switch _ rest =>
    obtain ⟨_, hw⟩ := Session.noteSwitch_warned (s := { s with stmts := rest }) switch labels statements t
    rw [hw]
    exact ⟨ho, hm⟩
  | closeFunction _ hm' hd =>
    rw [hm'] at hm
    exact hdefine rfl rfl rfl hm hd
  | declare hr _ hn => exact hdefine rfl rfl rfl (hroot hr) (.inr hn)
  | pass hr | dots hr | importScript hr | declarative hr | bareDirective hr | directive hr | openArgs hr
  | openConstant hr | globals hr | openParams hr | openBody hr => exact ⟨ho, hroot hr⟩
  | scriptEnd hr hc =>
    refine ⟨?_, rfl⟩
    rintro _ ⟨⟩
    cases ht : s.config.target with
    | script => rfl
    | function => exact (hc ht).elim
    | expression => exact (hroot hr ht).elim
  | functionEnd _ _ hsome => exact ⟨ho, hsome⟩
  | expressionEnd _ _ hm' =>
    rw [hm'] at hm
    exact ⟨ho, hm⟩
  | _ => exact ⟨ho, hm⟩

namespace Session

theorem le_failed_quiet (s : Session) (t : Token) (c : Char) {next : Session → Session}
    (h : (next s).failed = s.failed) : s.failed.size ≤ (s.expect t c true next).failed.size := by
  unfold expect
  split
  · exact Nat.le_of_eq (congrArg Array.size h.symm)
  · exact Nat.le_of_eq (congrArg Array.size (s.failed_resync t).symm)

theorem le_failed_exprDone (s : Session) (context : ExprContext) (t : Token) :
    s.failed.size ≤ (s.exprDone context .failed t).failed.size := by
  cases context with
  | statement => exact s.le_failed_quiet t ';' rfl
  | condition =>
    refine s.le_failed_quiet t ')' ?_
    simp only
    split <;> rfl
  | foreachCollection =>
    refine s.le_failed_quiet t ')' ?_
    simp only
    split <;> rfl
  | forClause clause =>
    refine s.le_failed_quiet t _ ?_
    cases clause <;> simp only <;> split <;> rfl
  | keywordArg =>
    simp only [exprDone, keywordArgDone]
    split
    · exact s.popStmt.le_failed_quiet t ';' rfl
    · exact Nat.le_refl _
  | caseLabel =>
    simp only [exprDone, caseLabelDone]
    split
    · exact s.popStmt.le_failed_quiet t ':' rfl
    · exact Nat.le_refl _
  | constValue =>
    simp only [exprDone, constValueDone]
    split
    · exact (s.inRoot .idle).le_failed_quiet t ';' rfl
    · exact Nat.le_refl _
  | directiveArgs =>
    simp only [exprDone, directiveArgDone]
    split
    · exact Nat.le_of_eq (congrArg Array.size (failed_resync (s.inRoot .idle) t).symm)
    · exact Nat.le_refl _
  | topLevel =>
    simp only [exprDone, topLevelDone]
    split
    · exact Nat.le_refl _
    split
    · exact Nat.le_refl _
    · exact failed_report s _ _

/-- What the expression comes to that the token is read into, if the token ends it. -/
def completes? (s : Session) (x : ExprState) (t : Token) : Option Completed :=
  match { s with expr := some x }.exprToken x t with
  | (_, .consumed) => none
  | (s, .terminated) => some (s.finishExpr (s.expr.getD x) t).2

theorem completes?_fresh {s : Session} {context : ExprContext} {t : Token} {completed : Completed} (hc : s.stream.Closed)
    (h : s.completes? (fresh context) t = some completed) : completed.isFailed = false := by
  obtain ⟨m, ho, hm⟩ := exprToken_outcome (s := { s with expr := some (fresh context) })
    (x := fresh context) (t := t) hc
  rw [completes?, hm] at h
  cases ho with
  | ended _ hf =>
    cases h
    obtain ⟨-, rfl⟩ | hf := hf
    · rfl
    · obtain ⟨rfl, -⟩ := hf.eq_of_none rfl
      rfl
  | _ => cases h

theorem completes?_feedExpr {s : Session} {x : ExprState} {t : Token} {completed : Completed} (hc : s.stream.Closed)
    (hx : s.expr = some x) (hb : x.started = true → x.stack ≠ [] ∨ x.slot.isSome = true)
    (hf : (s.feedExpr t).failed.size ≤ s.failed.size)
    (h : s.completes? x t = some completed) : completed.isFailed = false := by
  have hself : { s with expr := some x } = s := by rw [← hx]
  obtain ⟨m, ho, hm⟩ := exprToken_outcome (s := s) (x := x) (t := t) hc
  rw [completes?, hself, hm] at h
  rw [feedExpr, hx] at hf
  simp only [hm] at hf
  cases ho with
  | @ended stream id y hs hfold =>
    have he := finishExpr_ends (s := s) hs hfold hb (some y) t
    obtain rfl : ({ s with stream := stream, nextId := id, expr := some y }.finishExpr y t).2 = completed := by
      simpa [started] using h
    cases hd : ({ s with stream := stream, nextId := id, expr := some y }.finishExpr y t).2 with
    | value | empty => rfl
    | failed =>
      have hle := le_failed_exprDone ({ s with stream := stream, nextId := id, expr := some y }.finishExpr y t).1
        x.context t
      rw [← hd] at hle
      have := (he.of_failed_le (Nat.le_trans hle hf)).1
      rw [hd] at this
      cases this
  | _ => cases h

theorem steps_advances {P : Session → Prop} {s : Session} (hs : s.Sound) (hr : s.recovery = none) (h : P s)
    (hskip : ∀ s, s.Sound → P s → s.stream.read.1.isTrivia = true → P { s with stream := s.stream.read.2 })
    (hadvance : ∀ s s', s.Sound → s.isFinished = false → P s → s.stream.read.1.isTrivia = false →
      Turn { s with stream := s.stream.read.2 } s.stream.read.1 s' →
      Advance { s with stream := s.stream.read.2 } s.stream.read.1 s' → P s')
    (n : Nat) (hf : (steps n s).failed.size = 0) : (steps n s).recovery = none ∧ P (steps n s) := by
  refine steps_induction (P := fun s => s.failed.size = 0 → s.recovery = none ∧ P s) hs (fun _ => ⟨hr, h⟩) ?_ ?_ n hf
  · exact fun s hs hw ht hf => ⟨(hw hf).1, hskip s hs (hw hf).2 ht⟩
  · intro s s' hs hfin hw ht hturn hf
    have hle : s.failed.size ≤ s'.failed.size := hturn.le_failed
    obtain ⟨hr, hP⟩ := hw (by omega)
    have hadv := hturn.advance (hs.read.shaped (halted_of_isFinished hfin)) hr (by simpa using (by omega))
    exact ⟨hadv.calm.1.trans hr, hadvance s s' hs hfin hP ht hturn hadv⟩

end Session

end GameScript
