import GameScript.Proofs.Complain
import GameScript.Proofs.Shape
import GameScript.Proofs.Shift

/-!
What one significant token does to a session. Every constructor is one way in which the handlers can
leave the session; what they do to an expression under construction is in `ExprOutcome`.
-/

namespace GameScript

inductive Ends (s : Session) (x : ExprState) : Session → Completed → Prop
  | value {stream : TokenStream} {id : Nat} {y : ExprState} {e : Expr} (hs : s.stream.Takes [] stream)
      (hf : Folds PendingExpr.isOperator s.nextId x id y) (hy : y.stack = []) (he : y.slot = some e) :
      Ends s x { s with stream := stream, nextId := id, expr := none } (.value e)
  | empty {stream : TokenStream} (hs : s.stream.Takes [] stream) (hx : x.stack = []) (he : x.slot = none) :
      Ends s x { s with stream := stream, expr := none } .empty
  | failed {stream : TokenStream} {id : Nat} {s' : Session} (hs : s.stream.Takes [] stream)
      (hi : s.nextId ≤ id) (hf : Fails { s with stream := stream, nextId := id, expr := none } s') :
      Ends s x s' .failed

inductive Supplies (s : Session) (x : ExprState) : Session → Expr → Prop
  | given {s' : Session} {e : Expr} (h : Ends s x s' (.value e)) : Supplies s x s' e
  | missing {stream : TokenStream} {id : Nat} {s' : Session} {loc : Location}
      (hs : s.stream.Takes [] stream) (hi : s.nextId ≤ id)
      (hf : Fails { s with stream := stream, nextId := id, expr := none } s') :
      Supplies s x (s'.placeholder loc).2 (s'.placeholder loc).1

namespace Session

/-- The token can begin the statement that comes next, or end the innermost block. -/
structure AtStatement (s : Session) (top : PendingStmt) (rest : List PendingStmt) : Prop where
  recovery : s.recovery = none
  expr : s.expr = none
  mode : ∃ header, s.mode = .body header
  stmts : s.stmts = top :: rest
  opened : top.isOpen = true

structure AtHeader (s : Session) (top : PendingStmt) (rest : List PendingStmt) : Prop where
  recovery : s.recovery = none
  expr : s.expr = none
  mode : ∃ header, s.mode = .body header
  stmts : s.stmts = top :: rest

structure AtRoot (s : Session) (phase : RootPhase) : Prop where
  recovery : s.recovery = none
  expr : s.expr = none
  mode : s.mode = .root phase

def stopsBefore (s : Session) (t : Token) : Bool :=
  t.isSymbol '\x7b' || t.isSymbol '\x7d' || t.isEof || s.isSyncKeyword t

inductive Reading (s : Session) (t : Token) : ExprState → Prop
  | further {x : ExprState} (hr : s.recovery = none) (hx : s.expr = some x) : Reading s t x
  | statement {top : PendingStmt} {rest : List PendingStmt} (h : s.AtStatement top rest)
      (ht : s.stopsBefore t = false) : Reading s t (fresh .statement)
  | whole (hr : s.recovery = none) (hx : s.expr = none) (hm : s.mode = .expression)
      (ht : t.isEof = false) : Reading s t (fresh .topLevel)

end Session

inductive Passes (s : Session) (t : Token) : RootPhase → RootPhase → Prop
  | hash (hc : s.config.target ≠ .function) (ht : t.isSymbol '#' = true) :
      Passes s t .idle (.directiveName t.loc)
  | constKeyword (hc : s.config.target ≠ .function) (ht : t.isKeyword .constKw s.gameMode = true) :
      Passes s t .idle (.constName t.loc)
  | globalKeyword (hc : s.config.target ≠ .function) (ht : t.isKeyword .globalKw s.gameMode = true) :
      Passes s t .idle (.globals [] true)
  | functionName {name : Ident} (hc : s.config.target = .function → s.output = none)
      (ht : s.plainName? t = some name) : Passes s t .idle (.functionOpen name)
  | importName {loc : Location} {name : Ident} (ht : s.plainName? t = some name)
      (hn : DirectiveName.ofWord? name.name = some .includeFile) :
      Passes s t (.directiveName loc) (.importPath loc [] true)
  | directiveName {loc : Location} {name : Ident} (ht : s.plainName? t = some name)
      (hn : DirectiveName.ofWord? name.name ≠ some .includeFile) :
      Passes s t (.directiveName loc) (.directiveHead loc name)
  | segment {loc : Location} {segments : ModulePath} {name : Ident} (ht : s.plainName? t = some name) :
      Passes s t (.importPath loc segments true) (.importPath loc (segments ++ [name]) false)
  | backslash {loc : Location} {segments : ModulePath} (ht : t.isSymbol '\\' = true) :
      Passes s t (.importPath loc segments false) (.importPath loc segments true)
  | constName {loc : Location} {name : Ident} (ht : s.plainName? t = some name) :
      Passes s t (.constName loc) (.constEquals loc name)
  | globalName {names : List Ident} {name : Ident} (ht : s.plainName? t = some name) :
      Passes s t (.globals names true) (.globals (names ++ [name]) false)
  | nextGlobal {names : List Ident} (ht : t.isSymbol ',' = true) :
      Passes s t (.globals names false) (.globals names true)
  | mark {header : FunctionHeader} {pending : PendingParam} {loc : Location} {m m' : ParamModifiers}
      (hp : pending.getD (t.loc, {}) = (loc, m))
      (ht : (t.isSymbol '&' = true ∧ m.byRef = false ∧ m' = { m with byRef := true }) ∨
        (t.isSymbol '?' = true ∧ m.optional = false ∧ m' = { m with optional := true })) :
      Passes s t (.param header pending) (.param header (some (loc, m')))
  | param {header : FunctionHeader} {pending : PendingParam} {loc : Location} {m : ParamModifiers}
      {name : Ident} (hp : pending.getD (t.loc, {}) = (loc, m)) (ht : s.plainName? t = some name)
      (ho : Session.paramProblem? header.params ⟨loc, some name, m⟩ = none) :
      Passes s t (.param header pending)
        (.paramEnd { header with params := header.params ++ [⟨loc, some name, m⟩] })
  | bareDots {header : FunctionHeader} {loc : Location} {m : ParamModifiers} (ht : t.isSymbol ')' = true)
      (hm : m.variadic = true ∧ m.byRef = false ∧ m.optional = false)
      (ho : Session.paramProblem? header.params ⟨loc, none, m⟩ = none) :
      Passes s t (.param header (some (loc, m)))
        (.functionEnd { header with params := header.params ++ [⟨loc, none, m⟩] })
  | noParams {header : FunctionHeader} (ht : t.isSymbol ')' = true) (hp : header.params = []) :
      Passes s t (.param header none) (.functionEnd header)
  | nextParam {header : FunctionHeader} (ht : t.isSymbol ',' = true) :
      Passes s t (.paramEnd header) (.param header none)
  | closeParams {header : FunctionHeader} (ht : t.isSymbol ')' = true) :
      Passes s t (.paramEnd header) (.functionEnd header)

def ForClause.next? : ForClause → Option ForClause
  | first => some condition
  | condition => some step
  | step => none

def FlowKind.keyword : FlowKind → Keyword
  | breakFlow => .breakKw
  | continueFlow => .continueKw

def PendingStmt.begun? (node : Node) : Keyword → Option PendingStmt
  | .ifKw => some (ifStmt node .start)
  | .whileKw => some (whileLoop node .start)
  | .forKw => some (forLoop node .start)
  | .foreachKw => some (foreachLoop node .start)
  | .switchKw => some (switch node .start)
  | _ => none

def Session.noteSwitch (s : Session) (switch : Node) (labels : SwitchLabels) (statements : List Stmt)
    (t : Token) : Session :=
  let cases := closeGroups statements.length labels.groups
  let s := if cases.isEmpty then s.report .emptySwitch switch.loc else s
  match redundantBreak? switch.id statements with
  | some loc => s.report (.redundantBreak t.loc) loc
  | none => s

/-- The effect of reading one significant token. -/
inductive Turn (s : Session) (t : Token) : Session → Prop
  | skip {r : Recovery} (hr : s.recovery = some r) : Turn s t (s.recoverToken r t)
  -- Expressions
  | shift {x y : ExprState} {more : List Token} {stream : TokenStream} {id : Nat} (hx : s.Reading t x)
      (hs : s.stream.Takes more stream) (h : Shift s.config s.nextId x (t :: more) id y) :
      Turn s t { s with stream := stream, nextId := id, expr := some { y with started := true } }
  | truncate {s' : Session} {x y : ExprState} {id : Nat} (hx : s.Reading t x)
      (h : Truncates s.nextId x id y) (hf : Fails { s with nextId := id + 1 } s')
      (ht : t.isSymbol ')' = true) : Turn s t { s' with expr := some { y with started := true } }
  | halt {s' : Session} {x : ExprState} {stream : TokenStream} {id : Nat} (hx : s.Reading t x)
      (hs : ∃ more, s.stream.Takes more stream) (hi : s.nextId ≤ id)
      (hf : Fails { s with stream := stream, nextId := id, expr := none } s') (hh : s'.halted = true) :
      Turn s t s'
  | reject {s' : Session} {stream : TokenStream} {id : Nat}
      (hx : (∃ x, s.Reading t x) ∨ (∃ top rest, s.AtHeader top rest ∧ top.inHeader = true) ∨
        ∃ phase, s.AtRoot phase ∧ t.isEof = false)
      (hs : ∃ more, s.stream.Takes more stream) (hi : s.nextId ≤ id)
      (hf : Fails { s with stream := stream, nextId := id, expr := none } s') : Turn s t (s'.resync t)
  -- Ends of expressions
  | exprStmt {s' : Session} {x : ExprState} {e : Expr} (hx : s.Reading t x) (hc : x.context = .statement)
      (hm : ∃ header, s.mode = .body header) (he : Ends s x s' (.value e)) (hf : e.hasEffect = true)
      (ht : t.isSymbol ';' = true) :
      Turn s t ({ s' with nextId := s'.nextId + 1 }.finishStmt (.expr ⟨s'.nextId, e.loc⟩ e))
  | dropStmt {s' : Session} {x : ExprState} {stream : TokenStream} {id : Nat} (hx : s.Reading t x)
      (hc : x.context = .statement) (hs : s.stream.Takes [] stream) (hi : s.nextId ≤ id)
      (hf : Fails { s with stream := stream, nextId := id, expr := none } s')
      (ht : t.isSymbol ';' = true) : Turn s t s'
  | supply {s' : Session} {x : ExprState} {e : Expr} {top top' : PendingStmt} {rest : List PendingStmt}
      (hx : s.Reading t x) (hst : s.stmts = top :: rest) (hc : top.reads = some x.context)
      (ht : t.isSymbol ')' = true) (he : Supplies s x s' e) (hp : top.supplied? e = some top') :
      Turn s t { s' with stmts := top' :: rest }
  | clause {s' : Session} {x : ExprState} {completed : Completed} {node : Node} {clause : ForClause}
      {first condition : Option Expr} {rest : List PendingStmt} (hx : s.Reading t x)
      (hst : s.stmts = .forLoop node (.clause clause first condition) :: rest)
      (hc : x.context = .forClause clause) (he : Ends s x s' completed)
      (ht : t.isSymbol (if clause = .step then ')' else ';') = true) :
      Turn s t { s' with
        stmts := .forLoop node (Session.nextForPhase clause first condition completed.value?) :: rest,
        expr := clause.next?.map fun c => Session.fresh (.forClause c) }
  | keywordCall {s' : Session} {x : ExprState} {completed : Completed} {node : Node}
      {keyword : CallKeyword} {rest : List PendingStmt} (hx : s.Reading t x)
      (hst : s.stmts = .keywordCall node keyword :: rest) (hc : x.context = .keywordArg)
      (he : Ends s x s' completed) (hf : completed.isFailed = false)
      (hp : Session.argumentProblem? node keyword completed.value? = none) (ht : t.isSymbol ';' = true) :
      Turn s t ({ s' with stmts := rest }.finishStmt (.keywordCall node keyword completed.value?))
  | caseValue {s' : Session} {x : ExprState} {e : Expr} {loc : Location} {rest : List PendingStmt}
      (hx : s.Reading t x) (hst : s.stmts = .caseLabel loc :: rest) (hc : x.context = .caseLabel)
      (he : Ends s x s' (.value e)) (ht : t.isSymbol ':' = true) :
      Turn s t ({ s' with stmts := rest }.caseValue e loc)
  | dropHeader {s' : Session} {x : ExprState} {stream : TokenStream} {id : Nat} {top : PendingStmt}
      {rest : List PendingStmt} (hx : s.Reading t x) (hst : s.stmts = top :: rest)
      (htop : top.inHeader = true) (hc : top.reads = some x.context) (hs : s.stream.Takes [] stream)
      (hi : s.nextId ≤ id)
      (hf : Fails { s with stream := stream, nextId := id, expr := none, stmts := rest } s')
      (ht : t.isEdge = false) : Turn s t s'
  | constant {s' : Session} {x : ExprState} {e : Expr} {loc : Location} {name : Ident}
      (hx : s.Reading t x) (hm : s.mode = .root (.constValue loc name)) (he : Ends s x s' (.value e))
      (ht : t.isSymbol ';' = true) : Turn s t ((s'.inRoot .idle).addConstant loc name e)
  | dropConstant {s' : Session} {x : ExprState} {stream : TokenStream} {id : Nat} {phase : RootPhase}
      (hx : s.Reading t x) (hm : s.mode = .root phase) (hs : s.stream.Takes [] stream)
      (hi : s.nextId ≤ id)
      (hf : Fails { s with stream := stream, nextId := id, expr := none, mode := .root .idle } s')
      (ht : t.isEdge = false) : Turn s t s'
  | nextArg {s' : Session} {x : ExprState} {e : Expr} {loc : Location} {name : Ident} {args : List Expr}
      (hx : s.Reading t x) (hm : s.mode = .root (.directiveArgs loc name args))
      (he : Ends s x s' (.value e)) (ht : t.isSymbol ',' = true) :
      Turn s t ((s'.inRoot (.directiveArgs loc name (args ++ [e]))).beginExpr .directiveArgs)
  | closeArgs {s' : Session} {x : ExprState} {completed : Completed} {loc : Location} {name : Ident}
      {args : List Expr} (hx : s.Reading t x) (hm : s.mode = .root (.directiveArgs loc name args))
      (he : Ends s x s' completed) (hf : completed.isFailed = false)
      (ha : completed.value? = none → args = []) (ht : t.isSymbol ')' = true) :
      Turn s t (s'.inRoot (.directiveEnd loc name (args ++ completed.value?.toList)))
  | whole {s' : Session} {x : ExprState} {e : Expr} (hx : s.Reading t x) (hc : x.context = .topLevel)
      (hm : s.mode = .expression) (he : Ends s x s' (.value e))
      (ht : t.isSymbol ';' = true ∨ t.isEof = true) :
      Turn s t { s' with
        output := some (.expression e), mode := if t.isSymbol ';' then .expressionEnd else .done }
  | spoilWhole {s' : Session} {x : ExprState} {completed : Completed} {stream : TokenStream} {id : Nat}
      (hx : s.Reading t x) (hc : x.context = .topLevel) (hm : s.mode = .expression)
      (he : ∃ s₁, Ends s x s₁ completed ∧ s₁.nextId = id) (hs : s.stream.Takes [] stream) (hi : s.nextId ≤ id)
      (hf : Fails { s with stream := stream, nextId := id, expr := none } s') :
      Turn s t { s' with
        output := (completed.value?.map .expression).or s.output,
        mode := if t.isSymbol ';' then .expressionEnd else .done }
  -- Headers
  | openHeader {top top' : PendingStmt} {context : Option ExprContext} {rest : List PendingStmt}
      (h : s.AtHeader top rest) (ho : top.opened? = some (top', context)) (ht : t.isSymbol '(' = true) :
      Turn s t { s with stmts := top' :: rest, expr := context.map Session.fresh }
  | iterator {node : Node} {names names' : IteratorNames} {name : Ident} {rest : List PendingStmt}
      (h : s.AtHeader (.foreachLoop node (.names names)) rest) (hn : names.add? name = some names')
      (ht : s.plainName? t = some name) : Turn s t (s.iteratorName node names' name)
  | nextIterator {node : Node} {name : Ident} {rest : List PendingStmt}
      (h : s.AtHeader (.foreachLoop node (.names (.one name))) rest) (ht : t.isSymbol ',' = true) :
      Turn s t { s with stmts := .foreachLoop node (.names (.oneMore name)) :: rest }
  | iterators {node : Node} {names : IteratorNames} {key : Option Ident} {value : Ident}
      {rest : List PendingStmt} (h : s.AtHeader (.foreachLoop node (.names names)) rest)
      (hn : names.whole? = some (key, value)) (ht : t.isKeyword .inKw s.gameMode = true) :
      Turn s t { s with
        stmts := .foreachLoop node (.collection key value) :: rest,
        expr := some (Session.fresh .foreachCollection) }
  | openSwitch {node : Node} {subject : Expr} {rest : List PendingStmt}
      (h : s.AtHeader (.switch node (.body subject)) rest) (ht : t.isSymbol '\x7b' = true) :
      Turn s t { s with
        nextId := s.nextId + 1, stmts := .block ⟨⟨s.nextId, t.loc⟩, .switchBody {}, []⟩ :: s.stmts }
  | flow {node : Node} {kind : FlowKind} {target : FlowTarget} {rest : List PendingStmt}
      (h : s.AtHeader (.flow node kind target) rest) (ht : t.isSymbol ';' = true) :
      Turn s t ({ s with stmts := rest }.finishStmt (.flow node kind target))
  | defaultLabel {loc : Location} {rest : List PendingStmt} (h : s.AtHeader (.defaultLabel loc) rest)
      (ht : t.isSymbol ':' = true) :
      Turn s t ({ s with stmts := rest }.addLabel (.default loc) none loc)
  | elseBranch {node : Node} {condition : Expr} {thenBranch : Stmt} {rest : List PendingStmt}
      (h : s.AtHeader (.ifStmt node (.awaitElse condition thenBranch)) rest)
      (ht : t.isKeyword .elseKw s.gameMode = true) :
      Turn s t { s with stmts := .ifStmt node (.elseBranch condition thenBranch) :: rest }
  | noElse {node : Node} {condition : Expr} {thenBranch : Stmt} {rest : List PendingStmt}
      (h : s.AtHeader (.ifStmt node (.awaitElse condition thenBranch)) rest)
      (ht : t.isKeyword .elseKw s.gameMode = false) :
      Turn s t ({ s with stmts := rest }.finishStmt (.ifThen node condition thenBranch)).defer
  -- Statements
  | openBlock {top : PendingStmt} {rest : List PendingStmt} (h : s.AtStatement top rest)
      (ht : t.isSymbol '\x7b' = true) :
      Turn s t { s with
        nextId := s.nextId + 1, stmts := .block ⟨⟨s.nextId, t.loc⟩, .nested, []⟩ :: s.stmts }
  | openStmt {top : PendingStmt} {rest : List PendingStmt} {k : Keyword} {new : PendingStmt}
      (h : s.AtStatement top rest) (ht : t.keyword? s.gameMode = some k)
      (hn : PendingStmt.begun? ⟨s.nextId, t.loc⟩ k = some new) :
      Turn s t { s with nextId := s.nextId + 1, stmts := new :: s.stmts }
  | openCall {top : PendingStmt} {rest : List PendingStmt} {keyword : CallKeyword}
      (h : s.AtStatement top rest) (ht : t.keyword? s.gameMode = some keyword.keyword) :
      Turn s t { s with
        nextId := s.nextId + 1, stmts := .keywordCall ⟨s.nextId, t.loc⟩ keyword :: s.stmts,
        expr := some (Session.fresh .keywordArg) }
  | openFlow {top : PendingStmt} {rest : List PendingStmt} {kind : FlowKind} {target : FlowTarget}
      (h : s.AtStatement top rest) (ht : t.keyword? s.gameMode = some kind.keyword)
      (hf : Session.flowTarget? s.stmts kind = some target) :
      Turn s t { s with
        nextId := s.nextId + 1, stmts := .flow ⟨s.nextId, t.loc⟩ kind target :: s.stmts }
  | openCase {node : Node} {labels : SwitchLabels} {statements : List Stmt} {rest : List PendingStmt}
      (h : s.AtStatement (.block ⟨node, .switchBody labels, statements⟩) rest)
      (ht : t.keyword? s.gameMode = some .caseKw) :
      Turn s t { s with
        stmts := .caseLabel t.loc :: s.stmts, expr := some (Session.fresh .caseLabel) }
  | openDefault {node : Node} {labels : SwitchLabels} {statements : List Stmt} {rest : List PendingStmt}
      (h : s.AtStatement (.block ⟨node, .switchBody labels, statements⟩) rest)
      (ht : t.keyword? s.gameMode = some .defaultKw) :
      Turn s t { s with stmts := .defaultLabel t.loc :: s.stmts }
  | misplace {s' : Session} {top : PendingStmt} {rest : List PendingStmt} (h : s.AtStatement top rest)
      (hf : Fails s s') (ht : t.isEdge = false) : Turn s t s'.enterRecovery
  | straySemicolon {top : PendingStmt} {rest : List PendingStmt} (h : s.AtStatement top rest)
      (hb : top.awaitsBody = false) (ht : t.isSymbol ';' = true) :
      Turn s t (s.report .straySemicolon t.loc)
  | emptyBody {top : PendingStmt} {rest : List PendingStmt} (h : s.AtStatement top rest)
      (hb : top.awaitsBody = true) (ht : t.isSymbol ';' = true) :
      Turn s t ((s.report .straySemicolon t.loc).bindEmptyBody t.loc)
  | missBody {s' : Session} {top : PendingStmt} {rest : List PendingStmt} (h : s.AtStatement top rest)
      (hb : top.awaitsBody = true) (ht : t.isSymbol '\x7d' = true) (hf : Fails s s') :
      Turn s t (s'.bindEmptyBody t.loc).defer
  | closeBlock {node : Node} {statements : List Stmt} {rest : List PendingStmt}
      (h : s.AtStatement (.block ⟨node, .nested, statements⟩) rest) (ht : t.isSymbol '\x7d' = true) :
      Turn s t ({ s with stmts := rest }.finishStmt (.block node statements.reverse))
  | closeSwitch {node : Node} {labels : SwitchLabels} {statements : List Stmt} {switch : Node}
      {subject : Expr} {rest : List PendingStmt}
      (h : s.AtStatement (.block ⟨node, .switchBody labels, statements⟩)
        (.switch switch (.body subject) :: rest)) (ht : t.isSymbol '\x7d' = true) :
      Turn s t (({ s with stmts := rest }.noteSwitch switch labels statements t).finishStmt
        (.switch switch subject node statements.reverse (closeGroups statements.length labels.groups)))
  | closeFunction {node : Node} {statements : List Stmt} {header : FunctionHeader}
      (h : s.AtStatement (.block ⟨node, .functionBody, statements⟩) []) (hm : s.mode = .body header)
      (ht : t.isSymbol '\x7d' = true) :
      Turn s t ({ s with stmts := [], mode := .root .idle }.defineFunction
        (header.define (some ⟨node, statements.reverse⟩)))
  | unbalanced {s' : Session} {top : PendingStmt} {rest : List PendingStmt} (h : s.AtStatement top rest)
      (ht : t.isEof = true) (hf : Fails s s') (hh : s'.halted = true) : Turn s t s'
  -- Declarations
  | pass {phase phase' : RootPhase} (h : s.AtRoot phase) (hp : Passes s t phase phase') :
      Turn s t (s.inRoot phase')
  | spoil {s' : Session} {stream : TokenStream} {phase phase' : RootPhase} (h : s.AtRoot phase)
      (hs : ∃ more, s.stream.Takes more stream) (hf : Fails { s with stream := stream } s')
      (hp : phase'.isBare = true) (ht : t.isEdge = false)
      (hh : phase' = .idle ∨ ∃ header header', phase.header? = some header ∧
        phase'.header? = some header' ∧ header'.node = header.node) : Turn s t (s'.inRoot phase')
  | rootSemicolon (h : s.AtRoot .idle) (ht : t.isSymbol ';' = true) :
      Turn s t (s.report .straySemicolon t.loc)
  | dots {header : FunctionHeader} {pending : PendingParam} {loc : Location} {m : ParamModifiers}
      {u v : Token} {stream : TokenStream} (h : s.AtRoot (.param header pending))
      (hp : pending.getD (t.loc, {}) = (loc, m)) (hm : m.variadic = false)
      (hs : s.stream.Takes [u, v] stream) (ht : Token.Spell [t, u, v] "...") :
      Turn s t { s with
        stream := stream, mode := .root (.param header (some (loc, { m with variadic := true }))) }
  | importScript {loc : Location} {segments : ModulePath} (h : s.AtRoot (.importPath loc segments false))
      (ht : t.isSymbol ';' = true) : Turn s t ((s.inRoot .idle).addImport loc segments)
  | declarative {loc : Location} {name : Ident} (h : s.AtRoot (.directiveHead loc name))
      (hn : DirectiveName.ofWord? name.name = some .declarative)
      (hf : Session.isFresh s.script = true) (ht : t.isSymbol ';' = true) :
      Turn s t ({ s with mode := .root .idle, script := { s.script with declarative := true } }.addDirective
        loc (.bare name))
  | bareDirective {loc : Location} {name : Ident} (h : s.AtRoot (.directiveHead loc name))
      (hn : DirectiveName.ofWord? name.name ≠ some .declarative) (ht : t.isSymbol ';' = true) :
      Turn s t ((s.inRoot .idle).addDirective loc (.bare name))
  | directive {loc : Location} {name : Ident} {args : List Expr} (h : s.AtRoot (.directiveEnd loc name args))
      (ht : t.isSymbol ';' = true) : Turn s t ((s.inRoot .idle).addDirective loc (.withArgs name args))
  | openArgs {loc : Location} {name : Ident} (h : s.AtRoot (.directiveHead loc name))
      (ht : t.isSymbol '(' = true) :
      Turn s t ((s.inRoot (.directiveArgs loc name [])).beginExpr .directiveArgs)
  | openConstant {loc : Location} {name : Ident} (h : s.AtRoot (.constEquals loc name))
      (ht : t.isSymbol '=' = true) : Turn s t ((s.inRoot (.constValue loc name)).beginExpr .constValue)
  | globals {names : List Ident} (h : s.AtRoot (.globals names false)) (ht : t.isSymbol ';' = true) :
      Turn s t { s with
        mode := .root .idle, script := { s.script with globals := s.script.globals ++ names } }
  | openParams {name : Ident} (h : s.AtRoot (.functionOpen name)) (ht : t.isSymbol '(' = true) :
      Turn s t { s with
        nextId := s.nextId + 1, mode := .root (.param ⟨⟨s.nextId, name.loc⟩, name, []⟩ none) }
  | openBody {header : FunctionHeader} (h : s.AtRoot (.functionEnd header))
      (hd : (s.script.declarative && s.config.target == .script) = false)
      (ht : t.isSymbol '\x7b' = true) :
      Turn s t { s with
        nextId := s.nextId + 1, mode := .body header,
        stmts := .block ⟨⟨s.nextId, t.loc⟩, .functionBody, []⟩ :: s.stmts }
  | declare {header : FunctionHeader} (h : s.AtRoot (.functionEnd header))
      (hd : (s.script.declarative && s.config.target == .script) = true) (ht : t.isSymbol ';' = true) :
      Turn s t ((s.inRoot .idle).defineFunction (header.define none))
  | scriptEnd {s' : Session} {phase : RootPhase} (h : s.AtRoot phase) (hc : s.config.target ≠ .function)
      (hf : phase = .idle ∧ s' = s ∨ Fails s s') (ht : t.isEof = true) :
      Turn s t { s' with script := {}, output := some (.script s.script), mode := .done }
  | functionEnd {s' : Session} {phase : RootPhase} (h : s.AtRoot phase) (hc : s.config.target = .function)
      (hf : phase = .idle ∧ s' = s ∧ s.output.isSome = true ∧ t.isEof = true ∨ Fails s s') :
      Turn s t { s' with mode := .done }
  -- Lone expressions
  | noExpression {s' : Session} (hr : s.recovery = none) (hx : s.expr = none) (hm : s.mode = .expression)
      (hf : Fails s s') : Turn s t { s' with mode := .done }
  | expressionEnd {s' : Session} (hr : s.recovery = none) (hx : s.expr = none)
      (hm : s.mode = .expressionEnd) (hf : s' = s ∧ t.isEof = true ∨ Fails s s') :
      Turn s t { s' with mode := .done }

end GameScript
