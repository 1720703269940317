import GameScript.Parser.Step
import GameScript.Proofs.LikeStatement

namespace GameScript

namespace Session

namespace Like

variable {g : Guise} {s r : Session} {t : Token} {loc : Location}

theorem addDirective (h : Like g s r) (loc : Location) (kind : DirectiveKind) :
    Like g (s.addDirective loc kind) (r.addDirective (g.loc loc) (g.directiveKind kind)) := by
  have := (h.withNode loc).addDeclaration (.directive ⟨(s.withNode loc).1, kind⟩)
  rw [Recast.declaration, Recast.directive, ← h.newNode] at this
  exact this

theorem addImport (h : Like g s r) (loc : Location) (path : ModulePath) :
    Like g (s.addImport loc path) (r.addImport (g.loc loc) (g.path path)) := by
  refine (h.withNode loc).withScript ?_
  simp only [h.script, h.nextId, Guise.behind, Recast.script, List.map_append, List.map_cons, List.map_nil, List.append_assoc]
  rfl

theorem directiveName (h : Like g s r) (loc : Location) (t : Token) :
    Like g (s.directiveName loc t) (r.directiveName (g.loc loc) (g.token t)) := by
  simp only [Session.directiveName, h.plainName?]
  cases s.plainName? t with
  | none => exact h.rejectToken t _
  | some name =>
    simp only [Option.map_some, show (g.ident name).name = g.word name.name from rfl, g.directive_word]
    exact byCases' (fun _ => h.inRoot (.importPath loc [] true)) fun _ => h.inRoot (.directiveHead loc name)

theorem importPath (h : Like g s r) (loc : Location) (segments : ModulePath) (awaiting : Bool) (t : Token) :
    Like g (s.importPath loc segments awaiting t) (r.importPath (g.loc loc) (g.path segments) awaiting (g.token t)) := by
  simp only [Session.importPath, h.plainName?, Recast.isSymbol_token]
  cases awaiting with
  | true =>
    cases s.plainName? t with
    | none => exact h.rejectToken t _
    | some segment =>
      simp only [if_true, Option.map_some, ← path_append]
      exact h.inRoot (.importPath loc (segments ++ [segment]) false)
  | false =>
    simp only [Bool.false_eq_true, if_false]
    exact byCases' (fun _ => h.inRoot (.importPath loc segments true)) fun _ =>
      byCases' (fun _ => h.addImport loc segments) fun _ => h.rejectToken t _

theorem bareDirective (h : Like g s r) (loc : Location) (name : Ident) (hp : g.Permits t (s.bareDirective loc name)) :
    Like g (s.bareDirective loc name) (r.bareDirective (g.loc loc) (g.ident name)) := by
  have hadd := h.addDirective loc (.bare name)
  unfold Session.bareDirective at hp ⊢
  rw [show (g.ident name).name = g.word name.name from rfl, g.directive_word]
  refine permitted hp (fun _ hp => ?_) fun _ _ => hadd
  -- Without errors the script is not declared declarative, so nothing stands in front.
  have ha : g.Alone := by
    refine hp.resolve_right fun hp => ?_
    split at hp
    · exact Bool.noConfusion (show true = false from hp.2.plain)
    · exact failed_report_ne (p := .lateDeclarative _) nofun _ _ hp.2.failed
  have hscript : r.script = g.script s.script := by
    rw [h.script, Guise.behind, ha.1]
    rfl
  rw [hscript, Recast.isFresh_script]
  refine byCases' (fun _ => ?_) fun _ => h.report (.refl rfl) loc
  refine addDirective (h.withScript ?_) loc (.bare name)
  rw [Guise.behind, ha.1]
  rfl

theorem directiveHead (h : Like g s r) (loc : Location) (name : Ident) (hp : g.Permits t (s.directiveHead loc name t)) :
    Like g (s.directiveHead loc name t) (r.directiveHead (g.loc loc) (g.ident name) (g.token t)) := by
  unfold Session.directiveHead at hp ⊢
  simp only [Recast.isSymbol_token]
  refine permitted hp (fun _ hp => h.bareDirective loc name hp) fun _ _ => byCases' (fun _ => ?_) fun _ => h.rejectToken t _
  exact (h.inRoot (.directiveArgs loc name [])).beginExpr .directiveArgs

theorem directiveArgEnd (h : Like g s r) (loc : Location) (name : Ident) (args : List Expr) (t : Token) :
    Like g (s.directiveArgEnd loc name args t)
      (r.directiveArgEnd (g.loc loc) (g.ident name) (g.exprs args) (g.token t)) := by
  simp only [Session.directiveArgEnd, Recast.isSymbol_token]
  exact byCases' (fun _ => (h.inRoot (.directiveArgs loc name args)).beginExpr .directiveArgs) fun _ =>
    byCases' (fun _ => h.inRoot (.directiveEnd loc name args)) fun _ => h.rejectToken t _

theorem directiveArgDone (h : Like g s r) (completed : Completed) (t : Token) :
    Like g (s.directiveArgDone completed t) (r.directiveArgDone (g.completed completed) (g.token t)) := by
  have hmode := h.mode
  have hidle := h.inRoot .idle
  cases hm : s.mode with
  | root phase =>
    cases phase with
    | directiveArgs loc name args =>
      simp only [Session.directiveArgDone, hmode, hm, Recast.mode, Recast.rootPhase]
      cases completed with
      | value arg =>
        have := hidle.directiveArgEnd loc name (args ++ [arg]) t
        rwa [Recast.exprs_eq_map, List.map_append, ← Recast.exprs_eq_map] at this
      | empty =>
        have hempty : (g.exprs args).isEmpty = args.isEmpty := by rw [Recast.exprs_eq_map, List.isEmpty_map]
        simp only [Recast.completed, Recast.isSymbol_token, hempty]
        exact byCases' (fun _ => hidle.directiveArgEnd loc name args t) fun _ => hidle.rejectToken t _
      | failed => exact hidle.resync t
    | _ =>
      simp only [Session.directiveArgDone, hmode, hm, Recast.mode, Recast.rootPhase]
      exact hidle
  | _ =>
    simp only [Session.directiveArgDone, hmode, hm, Recast.mode]
    exact hidle

theorem withConstants (h : Like g s r) (constants : Constants) :
    Like g { s with constants := constants } { r with constants := constants ++ g.constants } := by
  obtain ⟨o, rfl, ho⟩ := h
  exact ⟨o, rfl, ho.stream, ho.warned, ho.failed⟩

end Like

def declareConstant (s : Session) (loc : Location) (name : Ident) (value : Expr) (folded : Option Value) : Session :=
  let (node, s) := s.withNode loc
  { s with script := { s.script with constants := s.script.constants ++ [⟨node, name, value, folded⟩] } }

def foldConstant (s : Session) (loc : Location) (name : Ident) (value : Expr) : Session :=
  let read := Fold.noteRead s.constants.lookup? value
  match Fold.evaluate s.constants.lookup? value with
  | .ok v => ({ s with constants := (lowerWord name.name, v) :: s.constants } : Session).declareConstant loc name read (some v)
  | .error e => (s.report (.constantNotFolded name.name e) value.loc).declareConstant loc name read none

theorem addConstant_fold (s : Session) (loc : Location) (name : Ident) (value : Expr) :
    s.addConstant loc name value =
      if s.script.constants.any fun c => c.name.same name then s.report (.duplicateConstant name.name) name.loc
      else s.foldConstant loc name value := rfl

theorem constants_foldConstant (s : Session) (loc : Location) (name : Ident) (value : Expr) :
    ∃ c ∈ (s.foldConstant loc name value).script.constants, c.name = name := by
  unfold foldConstant
  cases Fold.evaluate s.constants.lookup? value with
  | ok v => exact ⟨_, List.mem_append_right _ (List.mem_singleton_self _), rfl⟩
  | error e => exact ⟨_, List.mem_append_right _ (List.mem_singleton_self _), rfl⟩

namespace Like

variable {g : Guise} {s r : Session} {t : Token} {loc : Location}

theorem declareConstant (h : Like g s r) (loc : Location) (name : Ident) (value : Expr) (folded : Option Value) :
    Like g (s.declareConstant loc name value folded)
      (r.declareConstant (g.loc loc) (g.ident name) (g.expr value) folded) := by
  refine (h.withNode loc).withScript ?_
  simp only [h.script, h.nextId, Guise.behind, Recast.script, List.map_append, List.map_cons, List.map_nil, List.append_assoc]
  rfl

theorem foldConstant (h : Like g s r) (loc : Location) (name : Ident) (value : Expr)
    (hp : g.Permits t (s.foldConstant loc name value)) :
    Like g (s.foldConstant loc name value) (r.foldConstant (g.loc loc) (g.ident name) (g.expr value)) := by
  have hevaluate := Guise.evaluate_expr h.knows value
  have hsettles : Guise.Settles g.Alone (Fold.evaluate s.constants.lookup? value) := by
    unfold Session.foldConstant at hp
    cases he : Fold.evaluate s.constants.lookup? value with
    | ok v => exact .inr ⟨v, rfl⟩
    | error e =>
      simp only [he] at hp
      exact .inl (hp.resolve_right fun hp =>
        failed_report_ne (p := .constantNotFolded name.name e) nofun s value.loc hp.2.failed)
  simp only [Session.foldConstant, Guise.noteRead_expr h.knows value hsettles]
  cases he : Fold.evaluate s.constants.lookup? value with
  | ok v =>
    have hword : lowerWord (g.ident name).name = lowerWord name.name := g.lower name.name
    rw [hevaluate.ok v he]
    have := (h.withConstants ((lowerWord name.name, v) :: s.constants)).declareConstant loc name
      (Fold.noteRead s.constants.lookup? value) (some v)
    rw [List.cons_append, ← h.constants] at this
    simpa only [hword] using this
  | error e =>
    obtain ha | ⟨v, hv⟩ := hsettles
    · obtain ⟨e', he', hreason⟩ := hevaluate.error ha e he
      have hmeans : g.Means (.constantNotFolded name.name e) (.constantNotFolded (g.ident name).name e') :=
        ⟨rfl, fun hexact => by rw [Recast.name_ident (g.words hexact), hreason hexact]; rfl⟩
      rw [he']
      simp only [Recast.loc_expr]
      exact (h.report hmeans value.loc).declareConstant loc name (Fold.noteRead s.constants.lookup? value) none
    · rw [he] at hv
      cases hv

theorem addConstant (h : Like g s r) (loc : Location) (name : Ident) (value : Expr)
    (hp : g.Permits t (s.addConstant loc name value)) :
    Like g (s.addConstant loc name value) (r.addConstant (g.loc loc) (g.ident name) (g.expr value)) := by
  rw [addConstant_fold] at hp
  have hprior : g.prior.constants.any (fun c => c.name.same (g.ident name)) = false := by
    obtain ⟨hprior, -⟩ | ⟨-, ha⟩ := hp
    · rw [hprior]
      rfl
    split at ha
    · exact absurd ha.failed (failed_report_ne (p := .duplicateConstant name.name) nofun s name.loc)
    · obtain ⟨c, hc, rfl⟩ := s.constants_foldConstant loc name value
      exact List.any_eq_false.2 fun c' hc' => Bool.not_eq_true _ ▸ ha.constants c hc c' hc'
  have hany : (r.script.constants.any fun c => c.name.same (g.ident name)) =
      s.script.constants.any fun c => c.name.same name := by
    have hconstants : r.script.constants = g.prior.constants ++ s.script.constants.map g.constant := by
      rw [h.script]
      rfl
    rw [hconstants, List.any_append, hprior, Bool.false_or, List.any_map]
    exact congrArg _ (funext fun c => g.same_ident c.name name)
  rw [addConstant_fold, addConstant_fold, hany]
  refine permitted hp (fun _ _ => ?_) fun _ hp => h.foldConstant loc name value hp
  have hmeans : g.Means (.duplicateConstant name.name) (.duplicateConstant (g.ident name).name) :=
    ⟨rfl, fun he => by rw [Recast.name_ident (g.words he)]; rfl⟩
  exact h.report hmeans name.loc

theorem constValueDone (h : Like g s r) (completed : Completed) (hp : g.Permits t (s.constValueDone completed t)) :
    Like g (s.constValueDone completed t) (r.constValueDone (g.completed completed) (g.token t)) := by
  have hmode := h.mode
  have hidle := h.inRoot .idle
  cases hm : s.mode with
  | root phase =>
    cases phase with
    | constValue loc name =>
      simp only [Session.constValueDone, hm] at hp
      simp only [Session.constValueDone, hmode, hm, Recast.mode, Recast.rootPhase]
      cases completed with
      | value e =>
        refine hidle.expect t ';' false fun ht => ?_
        simp only [Session.expect, ht, if_true] at hp
        exact hidle.addConstant loc name e hp
      | empty =>
        have hmeans : g.Means (.constantWithoutValue name.name) (.constantWithoutValue (g.ident name).name) :=
          ⟨rfl, fun he => by rw [Recast.name_ident (g.words he)]; rfl⟩
        refine hidle.expect t ';' false fun _ => ?_
        exact hidle.report hmeans t.loc
      | failed =>
        refine hidle.expect t ';' true fun _ => ?_
        exact hidle
    | _ =>
      simp only [Session.constValueDone, hmode, hm, Recast.mode, Recast.rootPhase]
      exact hidle
  | _ =>
    simp only [Session.constValueDone, hmode, hm, Recast.mode]
    exact hidle

theorem globalNames (h : Like g s r) (names : List Ident) (awaiting : Bool) (t : Token) :
    Like g (s.globalNames names awaiting t) (r.globalNames (names.map g.ident) awaiting (g.token t)) := by
  simp only [Session.globalNames, h.plainName?, Recast.isSymbol_token]
  cases awaiting with
  | true =>
    cases s.plainName? t with
    | none => exact h.rejectToken t _
    | some name =>
      have := h.inRoot (.globals (names ++ [name]) false)
      rwa [Recast.rootPhase, List.map_append] at this
  | false =>
    simp only [Bool.false_eq_true, if_false]
    refine byCases' (fun _ => h.inRoot (.globals names true)) fun _ =>
      byCases' (fun _ => h.withScript ?_) fun _ => h.rejectToken t _
    simp only [h.script, Guise.behind, Recast.script, List.map_append, List.append_assoc]

theorem addParam (h : Like g s r) (header : FunctionHeader) (p : Param) :
    Like g (s.addParam header p).2 (r.addParam (g.header header) (g.param p)).2 ∧
      (r.addParam (g.header header) (g.param p)).1 = g.header (s.addParam header p).1 := by
  have hproblem : Session.paramProblem? (g.header header).params (g.param p) = _ := g.paramProblem?_param header.params p
  refine ⟨?_, by simp only [Session.addParam, Recast.header, List.map_append, List.map_cons, List.map_nil]⟩
  simp only [Session.addParam, hproblem]
  cases paramProblem? header.params p with
  | none => exact h
  | some q =>
    obtain ⟨problem, loc⟩ := q
    simp only [Option.map_some]
    refine h.report ?_ loc
    cases problem with
    | duplicateParam name => exact ⟨rfl, fun he => by rw [Guise.paramProblem, g.words he]; rfl⟩
    | _ => exact ⟨rfl, fun _ => rfl⟩

theorem closeParams (h : Like g s r) (header : FunctionHeader) (pending : PendingParam) (t : Token) :
    Like g (s.closeParams header pending t) (r.closeParams (g.header header) (g.pendingParam pending) (g.token t)) := by
  cases pending with
  | none =>
    have hempty : (g.header header).params.isEmpty = header.params.isEmpty := List.isEmpty_map
    simp only [Session.closeParams, Recast.pendingParam, Option.map_none, hempty]
    exact byCases' (fun _ => h.inRoot (.functionEnd header)) fun _ => (h.report (.refl rfl) t.loc).resync t
  | some q =>
    obtain ⟨loc, m⟩ := q
    obtain ⟨hadd, hheader⟩ := h.addParam header ⟨loc, none, m⟩
    simp only [Recast.param, Option.map_none] at hadd hheader
    simp only [Session.closeParams, Recast.pendingParam, Option.map_some, hheader]
    exact byCases' (fun _ => hadd.inRoot (.functionEnd (s.addParam header ⟨loc, none, m⟩).1)) fun _ =>
      (h.report (.refl rfl) t.loc).resync t

theorem paramMark (h : Like g s r) (header : FunctionHeader) (loc : Location) (m : ParamModifiers) (again : Bool)
    (t : Token) :
    Like g (s.paramMark header loc m again t) (r.paramMark (g.header header) (g.loc loc) m again (g.token t)) := by
  have hmeans : g.Means (.repeatedModifier t.describe) (.repeatedModifier (g.token t).describe) :=
    ⟨rfl, fun he => by rw [Recast.describe_token (g.words he)]; rfl⟩
  exact inRoot (byCases' (fun _ => h.report hmeans t.loc) fun _ => h) (.param header (some (loc, m)))

theorem paramEnd (h : Like g s r) (header : FunctionHeader) (t : Token) :
    Like g (s.paramEnd header t) (r.paramEnd (g.header header) (g.token t)) := by
  simp only [Session.paramEnd, Recast.isSymbol_token]
  exact byCases' (fun _ => h.inRoot (.param header none)) fun _ =>
    byCases' (fun _ => h.inRoot (.functionEnd header)) fun _ => h.rejectToken t _

theorem withMode (h : Like g s r) (mode : Mode) : Like g { s with mode := mode } { r with mode := g.mode mode } := by
  obtain ⟨o, rfl, ho⟩ := h
  exact ⟨o, rfl, ho.stream, ho.warned, ho.failed⟩

theorem functionEnd (h : Like g s r) (header : FunctionHeader) (hp : g.Permits t (s.functionEnd header t)) :
    Like g (s.functionEnd header t) (r.functionEnd (g.header header) (g.token t)) := by
  have hdeclarative : (r.script.declarative && r.config.target == .script) = (s.script.declarative && s.config.target == .script) := by
    rw [h.script, h.config]
    rfl
  have hmeans : g.Means (.missingBody header.name.name) (.missingBody (g.header header).name.name) :=
    ⟨rfl, fun he => by rw [show (g.header header).name.name = header.name.name from Recast.name_ident (g.words he) _]; rfl⟩
  unfold Session.functionEnd at hp ⊢
  simp only [Recast.isSymbol_token, hdeclarative] at hp ⊢
  refine permitted hp (fun _ _ => byCases' (fun _ => (h.report (.refl rfl) t.loc).resync t) fun _ => ?_) fun _ hp =>
    permitted hp (fun _ hp => permitted hp (fun _ hp => ?_) fun _ _ => h.report hmeans header.node.loc) fun _ _ => h.rejectToken t _
  · exact (h.pushNew t.loc (fun node => .block ⟨node, .functionBody, []⟩) (fun node => .block ⟨node, .functionBody, []⟩)
      fun _ => rfl).withMode (.body header)
  · have := h.defineFunction (header.define none) hp
    rwa [← Recast.define_header] at this

theorem output (h : Like g s r) : r.output = s.output.map g.graph := by
  obtain ⟨o, rfl, -⟩ := h
  rfl

theorem functionTarget (h : Like g s r) (t : Token) : Like g (s.functionTarget t) (r.functionTarget (g.token t)) := by
  have houtput : r.output.isSome = s.output.isSome := by rw [h.output, Option.isSome_map]
  simp only [Session.functionTarget, h.plainName?, houtput, show (g.token t).isEof = t.isEof from rfl]
  refine byCases' (fun _ => withMode (byCases' (fun _ => h) fun _ => h.reportUnexpected t _) .done) fun _ =>
    byCases' (fun _ => (h.report (.refl rfl) t.loc).withMode .done) fun _ => ?_
  cases s.plainName? t with
  | none => exact h.rejectToken t _
  | some name => exact h.inRoot (.functionOpen name)

theorem rootIdle (h : Like g s r) (hp : g.Permits t (s.rootIdle t)) : Like g (s.rootIdle t) (r.rootIdle (g.token t)) := by
  have hconfig : (r.config.target = .function) = (s.config.target = .function) := by rw [h.config]
  unfold Session.rootIdle at hp ⊢
  simp only [Recast.isSymbol_token, h.isKeyword, h.plainName?, hconfig, show (g.token t).isEof = t.isEof from rfl] at hp ⊢
  refine permitted hp (fun _ _ => h.functionTarget t) fun _ hp => permitted hp (fun heof hp => ?_) fun _ _ =>
    byCases' (fun _ => h.inRoot (.directiveName t.loc)) fun _ => byCases' (fun _ => h.report (.refl rfl) t.loc) fun _ =>
    byCases' (fun _ => h.inRoot (.constName t.loc)) fun _ => byCases' (fun _ => h.inRoot (.globals [] true)) fun _ => ?_
  · obtain ⟨hprior, -⟩ : g.Alone := hp.resolve_right fun hp => by rw [heof] at hp; exact Bool.noConfusion hp.1
    have hscript : r.script = g.script s.script := by
      rw [h.script, Guise.behind, hprior]
      rfl
    have hempty : ({} : Script) = g.behind (g.script {}) := by
      rw [Guise.behind, hprior]
      rfl
    rw [hscript]
    exact ((h.withScript hempty).withOutput (some (.script s.script))).withMode .done
  · cases s.plainName? t with
    | none => exact h.rejectToken t _
    | some name => exact h.inRoot (.functionOpen name)

theorem topLevelDone (h : Like g s r) (completed : Completed) (t : Token) :
    Like g (s.topLevelDone completed t) (r.topLevelDone (g.completed completed) (g.token t)) := by
  have hend {s r : Session} (h : Like g s r) : Like g
      (if t.isSymbol ';' then { s with mode := .expressionEnd }
        else { (if t.isEof then s else s.reportUnexpected t "`;` or end of input") with mode := .done })
      (if (g.token t).isSymbol ';' then { r with mode := .expressionEnd }
        else { (if (g.token t).isEof then r else r.reportUnexpected (g.token t) "`;` or end of input") with mode := .done }) := by
    simp only [Recast.isSymbol_token, show (g.token t).isEof = t.isEof from rfl]
    exact byCases' (fun _ => h.withMode .expressionEnd) fun _ =>
      withMode (byCases' (fun _ => h) fun _ => h.reportUnexpected t _) .done
  cases completed with
  | value e => exact hend (h.withOutput (some (.expression e)))
  | empty => exact hend (h.report (.refl rfl) t.loc)
  | failed => exact hend h

theorem exprDone (h : Like g s r) (context : ExprContext) (completed : Completed)
    (hp : g.Permits t (s.exprDone context completed t)) :
    Like g (s.exprDone context completed t) (r.exprDone context (g.completed completed) (g.token t)) := by
  cases context with
  | statement => exact h.statementDone completed t
  | condition => exact h.conditionDone completed t
  | forClause clause => exact h.forClauseDone clause completed t
  | foreachCollection => exact h.collectionDone completed t
  | keywordArg => exact h.keywordArgDone completed t
  | caseLabel => exact h.caseLabelDone completed hp
  | constValue => exact h.constValueDone completed hp
  | directiveArgs => exact h.directiveArgDone completed t
  | topLevel => exact h.topLevelDone completed t

theorem expressionEnd (h : Like g s r) (t : Token) : Like g (s.expressionEnd t) (r.expressionEnd (g.token t)) :=
  withMode (byCases' (fun _ => h) fun _ => h.reportUnexpected t _) .done

end Like

end Session

end GameScript
