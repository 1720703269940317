import GameScript.Proofs.Advance
import GameScript.Proofs.Switched

namespace GameScript

namespace Session

variable (s : Session) (w : Switches) (prior : Array Complaint)

@[simp] theorem switched_addToBlock (b : PendingBlock) (rest : List PendingStmt) (stmt : Stmt) :
    (s.switched w prior).addToBlock b rest stmt = (s.addToBlock b rest stmt).switched w prior := by
  unfold addToBlock
  simp only
  split
  · split
    · exact switched_report { s with stmts := .block b :: rest } w prior _ _
    · rfl
  · rfl

@[simp] theorem switched_bind (stmts : List PendingStmt) (stmt : Stmt) :
    (s.switched w prior).bind stmts stmt = (s.bind stmts stmt).switched w prior := by
  -- By induction on the unfinished statements, which those that wait for a body leave one after another.
  induction stmts generalizing stmt with
  | nil => rfl
  | cons top rest ih =>
    unfold bind
    split
    · simp
    · rfl
    · split
      · split
        · exact ih _
        · rfl
      · rfl

@[simp] theorem switched_finishStmt (stmt : Stmt) :
    (s.switched w prior).finishStmt stmt = (s.finishStmt stmt).switched w prior :=
  s.switched_bind w prior _ _

@[simp] theorem switched_bindEmptyBody (loc : Location) :
    (s.switched w prior).bindEmptyBody loc = (s.bindEmptyBody loc).switched w prior := by
  simp [bindEmptyBody]

@[simp] theorem switched_popStmt : (s.switched w prior).popStmt = s.popStmt.switched w prior :=
  rfl

@[simp] theorem switched_pushStmt (p : PendingStmt) :
    (s.switched w prior).pushStmt p = (s.pushStmt p).switched w prior :=
  rfl

@[simp] theorem switched_replaceStmt (p : PendingStmt) :
    (s.switched w prior).replaceStmt p = (s.replaceStmt p).switched w prior :=
  rfl

@[simp] theorem switched_beginExpr (context : ExprContext) :
    (s.switched w prior).beginExpr context = (s.beginExpr context).switched w prior :=
  rfl

@[simp] theorem switched_inRoot (phase : RootPhase) :
    (s.switched w prior).inRoot phase = (s.inRoot phase).switched w prior :=
  rfl

@[simp] theorem switched_defer : (s.switched w prior).defer = s.defer.switched w prior :=
  rfl

@[simp] theorem switched_pushNew (loc : Location) (stmt : Node → PendingStmt) :
    (s.switched w prior).pushNew loc stmt = (s.pushNew loc stmt).switched w prior :=
  rfl

theorem labelProblem?_or {allow more : Bool} {labels : SwitchLabels} {group : List CaseLabel}
    {label : CaseLabel} {value : Option Value} (h : labelProblem? allow labels group label value = none) :
    labelProblem? (allow || more) labels group label value = none := by
  cases more with
  | false => rwa [Bool.or_false]
  | true =>
    rw [Bool.or_true]
    unfold labelProblem? at h ⊢
    grind

theorem switched_addLabel (label : CaseLabel) (value : Option Value) (loc : Location)
    (hp : w.Permits (s.addLabel label value loc)) :
    (s.switched w prior).addLabel label value loc = (s.addLabel label value loc).switched w prior := by
  have hallow : (s.switched w prior).config.allowDefaultWithCase =
      (s.config.allowDefaultWithCase || w.allowDefaultWithCase) := rfl
  unfold addLabel at hp ⊢
  simp only [hallow, switched_stmts]
  split
  · next hs =>
    simp only [hs] at hp
    obtain hw | hf := hp
    · rw [hw.2, Bool.or_false]
      split
      · simp
      · rfl
    · split at hf
      · next hl => exact absurd hf (failed_ne_of_report (labelProblem?_severity hl))
      · next hl =>
        rw [labelProblem?_or hl]
        rfl
  · rfl

@[simp] theorem switched_closeSwitch (b : PendingBlock) (labels : SwitchLabels) (t : Token) :
    (s.switched w prior).closeSwitch b labels t = (s.closeSwitch b labels t).switched w prior := by
  unfold closeSwitch
  simp only [switched_stmts]
  split
  · next node subject rest hs =>
    have hstmts : { s.switched w prior with stmts := rest } = { s with stmts := rest }.switched w prior := rfl
    simp only [hstmts]
    split <;> split <;> simp
  · rfl

@[simp] theorem switched_addDeclaration (d : Declaration) :
    (s.switched w prior).addDeclaration d = (s.addDeclaration d).switched w prior :=
  rfl

@[simp] theorem switched_defineFunction (f : FunctionDef) :
    (s.switched w prior).defineFunction f = (s.defineFunction f).switched w prior := by
  unfold defineFunction
  simp only [switched_target, switched_script, switched_report, switched_addDeclaration, switched_ite]
  rfl

@[simp] theorem switched_closeFunction (b : PendingBlock) :
    (s.switched w prior).closeFunction b = (s.closeFunction b).switched w prior := by
  unfold closeFunction
  simp only [switched_mode]
  split
  · exact switched_defineFunction ({ s with stmts := [] }.inRoot .idle) w prior _
  · rfl

@[simp] theorem switched_closeBlock (b : PendingBlock) (t : Token) :
    (s.switched w prior).closeBlock b t = (s.closeBlock b t).switched w prior := by
  unfold closeBlock
  simp only [switched_popStmt]
  split <;> simp

@[simp] theorem switched_closeBrace (t : Token) :
    (s.switched w prior).closeBrace t = (s.closeBrace t).switched w prior := by
  unfold closeBrace
  simp only [switched_stmts]
  split
  · simp
  · split <;> simp
  · simp

@[simp] theorem switched_statementDone (completed : Completed) (t : Token) :
    (s.switched w prior).statementDone completed t = (s.statementDone completed t).switched w prior := by
  unfold statementDone
  split
  · split
    · exact s.switched_expect w prior t ';' false fun _ => by simp
    · rw [switched_report]
      exact switched_expect _ w prior t ';' false fun _ => rfl
  · simp
  · exact s.switched_expect w prior t ';' true fun _ => rfl

theorem switched_required (completed : Completed) (t : Token) (missing : Problem) {next : Session → Expr → Session}
    (hnext : ∀ s e, next (switched s w prior) e = (next s e).switched w prior) :
    (s.switched w prior).required completed t missing next = (s.required completed t missing next).switched w prior := by
  have hplace (s : Session) : (s.switched w prior).placeholder t.loc =
      ((s.placeholder t.loc).1, (s.placeholder t.loc).2.switched w prior) := rfl
  unfold required
  cases completed with
  | empty =>
    simp only [switched_report]
    exact switched_expect _ w prior t ')' _ fun _ => by simp [hplace, hnext]
  | failed => exact switched_expect _ w prior t ')' _ fun _ => by simp [hplace, hnext]
  | value e => exact switched_expect _ w prior t ')' _ fun _ => hnext s e

@[simp] theorem switched_conditionDone (completed : Completed) (t : Token) :
    (s.switched w prior).conditionDone completed t = (s.conditionDone completed t).switched w prior := by
  refine s.switched_required w prior completed t _ fun s e => ?_
  simp only [switched_stmts]
  split <;> rfl

@[simp] theorem switched_collectionDone (completed : Completed) (t : Token) :
    (s.switched w prior).collectionDone completed t = (s.collectionDone completed t).switched w prior := by
  refine s.switched_required w prior completed t _ fun s e => ?_
  simp only [switched_stmts]
  split <;> rfl

@[simp] theorem switched_forClauseDone (clause : ForClause) (completed : Completed) (t : Token) :
    (s.switched w prior).forClauseDone clause completed t =
      (s.forClauseDone clause completed t).switched w prior := by
  unfold forClauseDone
  refine s.switched_expect w prior t _ _ fun _ => ?_
  simp only [switched_stmts]
  cases clause <;> simp only <;> split <;> rfl

@[simp] theorem switched_keywordArgDone (completed : Completed) (t : Token) :
    (s.switched w prior).keywordArgDone completed t = (s.keywordArgDone completed t).switched w prior := by
  unfold keywordArgDone
  simp only [switched_stmts]
  split
  · refine switched_expect s.popStmt w prior t ';' _ fun _ => ?_
    split
    · rfl
    split <;> simp
  · rfl

theorem switched_caseValue (e : Expr) (loc : Location) (hp : w.Permits (s.caseValue e loc)) :
    (s.switched w prior).caseValue e loc = (s.caseValue e loc).switched w prior := by
  unfold caseValue at hp ⊢
  simp only [switched_constants]
  split
  · next v hv =>
    simp only [hv] at hp
    exact s.switched_addLabel w prior _ _ loc hp
  · next reason hv =>
    simp only [hv] at hp
    rw [switched_report]
    exact switched_addLabel _ w prior _ _ loc hp

theorem switched_caseLabelDone (completed : Completed) (t : Token) (hp : w.Permits (s.caseLabelDone completed t)) :
    (s.switched w prior).caseLabelDone completed t = (s.caseLabelDone completed t).switched w prior := by
  unfold caseLabelDone at hp ⊢
  simp only [switched_stmts]
  split
  · next hs =>
    simp only [hs] at hp
    refine switched_expect s.popStmt w prior t ':' _ fun ht => ?_
    rw [expect, if_pos ht] at hp
    cases completed with
    | value e => exact switched_caseValue s.popStmt w prior e _ hp
    | empty => exact switched_report s.popStmt w prior _ _
    | failed => rfl
  · rfl

@[simp] theorem switched_openHeader : (s.switched w prior).openHeader = s.openHeader.switched w prior := by
  unfold openHeader
  simp only [switched_stmts]
  split <;> rfl

@[simp] theorem switched_iteratorName (node : Node) (names : IteratorNames) (name : Ident) :
    (s.switched w prior).iteratorName node names name = (s.iteratorName node names name).switched w prior := by
  simp only [iteratorName, switched_stmts, switched_report, ← switched_ite, switched_replaceStmt]

@[simp] theorem switched_beginCollection (node : Node) (key : Option Ident) (value : Ident) :
    (s.switched w prior).beginCollection node key value = (s.beginCollection node key value).switched w prior :=
  rfl

@[simp] theorem switched_iteratorToken (node : Node) (names : IteratorNames) (t : Token) :
    (s.switched w prior).iteratorToken node names t = (s.iteratorToken node names t).switched w prior := by
  unfold iteratorToken
  simp only [switched_gameMode, switched_plainName?]
  split <;> simp

@[simp] theorem switched_openSwitchBody (t : Token) :
    (s.switched w prior).openSwitchBody t = (s.openSwitchBody t).switched w prior :=
  s.switched_expect w prior t '\x7b' false fun _ => rfl

theorem switched_headerToken? (t : Token) (hp : ∀ s' ∈ s.headerToken? t, w.Permits s') :
    (s.switched w prior).headerToken? t = (s.headerToken? t).map (switched · w prior) := by
  unfold headerToken? at hp ⊢
  simp only [switched_stmts]
  split
  case h_9 hs =>
    simp only [hs, Option.mem_def, Option.some.injEq, forall_eq'] at hp
    refine congrArg some (s.switched_expect w prior t ':' false fun ht => ?_)
    rw [expect, if_pos ht] at hp
    exact switched_addLabel s.popStmt w prior _ _ _ hp
  case h_8 => exact congrArg some (s.switched_expect w prior t ';' false fun _ => by simp)
  case h_10 => rfl
  all_goals simp [switched_expect]

@[simp] theorem switched_startKeywordCall (keyword : CallKeyword) (loc : Location) :
    (s.switched w prior).startKeywordCall keyword loc = (s.startKeywordCall keyword loc).switched w prior :=
  rfl

@[simp] theorem switched_startFlow (kind : FlowKind) (loc : Location) :
    (s.switched w prior).startFlow kind loc = (s.startFlow kind loc).switched w prior := by
  unfold startFlow
  simp only [switched_stmts]
  split <;> simp

theorem switched_startLabel (k : Keyword) (loc : Location) {next : Session → Session}
    (hnext : next (s.switched w prior) = (next s).switched w prior) :
    (s.switched w prior).startLabel k loc next = (s.startLabel k loc next).switched w prior := by
  have hin : (s.switched w prior).inSwitchBody = s.inSwitchBody := rfl
  simp [startLabel, hin, hnext]

@[simp] theorem switched_startKeyword? (k : Keyword) (loc : Location) :
    (s.switched w prior).startKeyword? k loc = (s.startKeyword? k loc).map (switched · w prior) := by
  cases k with
  | caseKw | defaultKw => exact congrArg some (s.switched_startLabel w prior _ loc rfl)
  | _ => simp [startKeyword?]

@[simp] theorem switched_straySemicolon (t : Token) :
    (s.switched w prior).straySemicolon t = (s.straySemicolon t).switched w prior := by
  simp only [straySemicolon, switched_report, switched_stmts]
  split <;> simp

@[simp] theorem switched_awaitElse (node : Node) (condition : Expr) (thenBranch : Stmt) (t : Token) :
    (s.switched w prior).awaitElse node condition thenBranch t =
      (s.awaitElse node condition thenBranch t).switched w prior := by
  simp [awaitElse]

@[simp] theorem switched_addDirective (loc : Location) (kind : DirectiveKind) :
    (s.switched w prior).addDirective loc kind = (s.addDirective loc kind).switched w prior :=
  rfl

@[simp] theorem switched_addImport (loc : Location) (path : ModulePath) :
    (s.switched w prior).addImport loc path = (s.addImport loc path).switched w prior :=
  rfl

@[simp] theorem switched_directiveName (loc : Location) (t : Token) :
    (s.switched w prior).directiveName loc t = (s.directiveName loc t).switched w prior := by
  unfold directiveName
  simp only [switched_plainName?]
  split <;> simp

@[simp] theorem switched_importPath (loc : Location) (segments : ModulePath) (awaiting : Bool) (t : Token) :
    (s.switched w prior).importPath loc segments awaiting t =
      (s.importPath loc segments awaiting t).switched w prior := by
  unfold importPath
  cases awaiting with
  | true =>
    simp only [switched_plainName?, if_true]
    split <;> simp
  | false => simp

@[simp] theorem switched_bareDirective (loc : Location) (name : Ident) :
    (s.switched w prior).bareDirective loc name = (s.bareDirective loc name).switched w prior := by
  simp only [bareDirective, switched_script, switched_report, switched_addDirective, switched_ite]
  rfl

@[simp] theorem switched_directiveHead (loc : Location) (name : Ident) (t : Token) :
    (s.switched w prior).directiveHead loc name t = (s.directiveHead loc name t).switched w prior := by
  simp [directiveHead]

@[simp] theorem switched_directiveArgEnd (loc : Location) (name : Ident) (args : List Expr) (t : Token) :
    (s.switched w prior).directiveArgEnd loc name args t = (s.directiveArgEnd loc name args t).switched w prior := by
  simp [directiveArgEnd]

@[simp] theorem switched_directiveArgDone (completed : Completed) (t : Token) :
    (s.switched w prior).directiveArgDone completed t = (s.directiveArgDone completed t).switched w prior := by
  unfold directiveArgDone
  simp only [switched_mode]
  split
  · cases completed <;> simp
  · rfl

@[simp] theorem switched_addConstant (loc : Location) (name : Ident) (value : Expr) :
    (s.switched w prior).addConstant loc name value = (s.addConstant loc name value).switched w prior := by
  simp only [addConstant, switched_script, switched_constants, switched_report, switched_ite]
  split
  · rfl
  split <;> rfl

@[simp] theorem switched_constValueDone (completed : Completed) (t : Token) :
    (s.switched w prior).constValueDone completed t = (s.constValueDone completed t).switched w prior := by
  unfold constValueDone
  simp only [switched_mode]
  split
  · refine switched_expect (s.inRoot .idle) w prior t ';' _ fun _ => ?_
    cases completed <;> simp
  · rfl

@[simp] theorem switched_globalNames (names : List Ident) (awaiting : Bool) (t : Token) :
    (s.switched w prior).globalNames names awaiting t = (s.globalNames names awaiting t).switched w prior := by
  unfold globalNames
  cases awaiting with
  | true =>
    simp only [switched_plainName?, if_true]
    split <;> simp
  | false =>
    simp
    rfl

@[simp] theorem switched_addParam (header : FunctionHeader) (p : Param) :
    (s.switched w prior).addParam header p = ((s.addParam header p).1, (s.addParam header p).2.switched w prior) := by
  unfold addParam
  split <;> simp

@[simp] theorem switched_closeParams (header : FunctionHeader) (pending : PendingParam) (t : Token) :
    (s.switched w prior).closeParams header pending t = (s.closeParams header pending t).switched w prior := by
  unfold closeParams
  split <;> simp

@[simp] theorem switched_paramMark (header : FunctionHeader) (loc : Location) (m : ParamModifiers) (again : Bool)
    (t : Token) :
    (s.switched w prior).paramMark header loc m again t = (s.paramMark header loc m again t).switched w prior := by
  cases again <;> simp [paramMark]

@[simp] theorem switched_paramDots (header : FunctionHeader) (loc : Location) (m : ParamModifiers) (t : Token) :
    (s.switched w prior).paramDots header loc m t = (s.paramDots header loc m t).switched w prior := by
  by_cases hr : (s.stream.symbols ['.'] 2).1.length = 2
  · simp only [paramDots, switched_stream, ne_eq, hr, not_true_eq_false, if_false]
    exact switched_paramMark { s with stream := (s.stream.symbols ['.'] 2).2.commit 2 } w prior header loc _ _ t
  · simp only [paramDots, switched_stream, ne_eq, hr, not_false_eq_true, if_true]
    have hs := switched_report { s with stream := (s.stream.symbols ['.'] 2).2 } w prior
    exact (congrArg (resync · t) (hs _ _)).trans (switched_resync _ w prior t)

@[simp] theorem switched_paramToken (header : FunctionHeader) (pending : PendingParam) (t : Token) :
    (s.switched w prior).paramToken header pending t = (s.paramToken header pending t).switched w prior := by
  unfold paramToken
  simp only [switched_plainName?]
  split <;> simp

@[simp] theorem switched_paramEnd (header : FunctionHeader) (t : Token) :
    (s.switched w prior).paramEnd header t = (s.paramEnd header t).switched w prior := by
  simp [paramEnd]

@[simp] theorem switched_functionEnd (header : FunctionHeader) (t : Token) :
    (s.switched w prior).functionEnd header t = (s.functionEnd header t).switched w prior := by
  simp only [functionEnd, switched_script, switched_target, switched_report, switched_resync, switched_withNode,
    switched_pushStmt, switched_defineFunction, switched_rejectToken, switched_ite]
  rfl

@[simp] theorem switched_functionTarget (t : Token) :
    (s.switched w prior).functionTarget t = (s.functionTarget t).switched w prior := by
  simp only [functionTarget, switched_output, switched_reportUnexpected, switched_report, ← switched_ite,
    switched_plainName?]
  split
  · rfl
  split
  · rfl
  split <;> simp

@[simp] theorem switched_rootIdle (t : Token) :
    (s.switched w prior).rootIdle t = (s.rootIdle t).switched w prior := by
  cases hn : s.plainName? t <;>
    simp only [rootIdle, switched_target, switched_functionTarget, switched_script, switched_inRoot, switched_report,
      switched_gameMode, switched_plainName?, switched_rejectToken, switched_ite, hn] <;> rfl

@[simp] theorem switched_rootToken (phase : RootPhase) (t : Token) :
    (s.switched w prior).rootToken phase t = (s.rootToken phase t).switched w prior := by
  unfold rootToken
  simp only [switched_inRoot]
  generalize s.inRoot .idle = s
  split
  · simp
  · cases phase with
    | directiveEnd loc name args => exact s.switched_expect w prior t ';' false fun _ => by simp
    | constEquals loc name => exact s.switched_expect w prior t '=' false fun _ => by simp
    | functionOpen name => exact s.switched_expect w prior t '(' false fun _ => by simp
    | constName loc =>
      simp only [switched_plainName?]
      split <;> simp
    | _ => simp

@[simp] theorem switched_topLevelDone (completed : Completed) (t : Token) :
    (s.switched w prior).topLevelDone completed t = (s.topLevelDone completed t).switched w prior := by
  have hend (s : Session) :
      (if t.isSymbol ';' then { s.switched w prior with mode := .expressionEnd }
        else
          let s := if t.isEof then s.switched w prior else (s.switched w prior).reportUnexpected t "`;` or end of input"
          { s with mode := .done }) =
      (if t.isSymbol ';' then { s with mode := .expressionEnd }
        else
          let s := if t.isEof then s else s.reportUnexpected t "`;` or end of input"
          { s with mode := .done }).switched w prior := by
    simp only [switched_reportUnexpected, ← switched_ite]
    split <;> rfl
  cases completed with
  | value e => exact hend { s with output := some (.expression e) }
  | empty =>
    simp only [topLevelDone, switched_report]
    exact hend _
  | failed => exact hend s

theorem switched_exprDone (context : ExprContext) (completed : Completed) (t : Token)
    (hp : w.Permits (s.exprDone context completed t)) :
    (s.switched w prior).exprDone context completed t = (s.exprDone context completed t).switched w prior := by
  cases context with
  | caseLabel => exact s.switched_caseLabelDone w prior completed t hp
  | _ => simp [exprDone]

theorem switched_feedExpr (t : Token) (hc : s.stream.Closed) (h₀ : w.Permits s) (hp : w.Permits (s.feedExpr t)) :
    (s.switched w prior).feedExpr t = (s.feedExpr t).switched w prior := by
  unfold feedExpr at hp ⊢
  simp only [switched_expr]
  cases hx : s.expr with
  | none => rfl
  | some x =>
    simp only [hx] at hp ⊢
    obtain ⟨m, ho, hm⟩ := exprToken_outcome (x := x) (t := t) hc
    -- Where the expression ends, nothing was complained about so far.
    have hmove : w.Permits (s.exprToken x t).1 := by
      cases ho with
      | ended => rw [hm]; exact h₀
      | _ => simpa only [hm, started] using hp
    rw [(switched_unseen w prior).exprToken s x t hmove]
    revert hp
    rcases s.exprToken x t with ⟨s₁, _ | _⟩
    · exact fun _ => rfl
    · intro hp
      simp only [moved, switched_expr, (switched_unseen w prior).finishExpr] at hp ⊢
      exact switched_exprDone _ w prior _ _ t hp

theorem switched_startExprStmt (t : Token) (hc : s.stream.Closed) (h₀ : w.Permits s)
    (hp : w.Permits (s.startExprStmt t)) :
    (s.switched w prior).startExprStmt t = (s.startExprStmt t).switched w prior :=
  (s.beginExpr .statement).switched_feedExpr w prior t hc h₀ hp

theorem switched_startStmt (t : Token) (hc : s.stream.Closed) (h₀ : w.Permits s) (hp : w.Permits (s.startStmt t)) :
    (s.switched w prior).startStmt t = (s.startStmt t).switched w prior := by
  unfold startStmt at hp ⊢
  simp only [switched_pushNew, switched_closeBrace, switched_straySemicolon, switched_report, switched_gameMode,
    switched_startKeyword?]
  iterate 4
    split at hp
    · simp [*]
  rename_i h₁ h₂ h₃ h₄
  simp only [h₁, h₂, h₃, h₄, Bool.false_eq_true, if_false]
  cases hk : t.keyword? s.gameMode with
  | none =>
    simp only [hk] at hp
    exact s.switched_startExprStmt w prior t hc h₀ hp
  | some k =>
    simp only [hk] at hp
    cases hs : s.startKeyword? k t.loc with
    | none =>
      simp only [hs] at hp
      simp only [hs, Option.map_none]
      exact s.switched_startExprStmt w prior t hc h₀ hp
    | some s' => simp only [hs, Option.map_some]

theorem switched_bodyToken (t : Token) (hc : s.stream.Closed) (h₀ : w.Permits s) (hp : w.Permits (s.bodyToken t)) :
    (s.switched w prior).bodyToken t = (s.bodyToken t).switched w prior := by
  unfold bodyToken at hp ⊢
  simp only [switched_stmts]
  split at hp
  · simp
  · rw [s.switched_headerToken? w prior t fun s' hs' => by simpa only [Option.mem_def.1 hs'] using hp]
    cases hh : s.headerToken? t with
    | some s' => rfl
    | none =>
      rw [hh] at hp
      exact s.switched_startStmt w prior t hc h₀ hp

theorem switched_expressionStart (t : Token) (hc : s.stream.Closed) (h₀ : w.Permits s)
    (hp : w.Permits (s.expressionStart t)) :
    (s.switched w prior).expressionStart t = (s.expressionStart t).switched w prior := by
  unfold expressionStart at hp ⊢
  rw [switched_report]
  split at hp
  · next h =>
    simp only [h, if_true]
    rfl
  · next h =>
    simp only [h, Bool.false_eq_true, if_false]
    exact (s.beginExpr .topLevel).switched_feedExpr w prior t hc h₀ hp

@[simp] theorem switched_expressionEnd (t : Token) :
    (s.switched w prior).expressionEnd t = (s.expressionEnd t).switched w prior := by
  simp only [expressionEnd, switched_reportUnexpected, ← switched_ite]
  rfl

theorem switched_dispatch (t : Token) (hc : s.stream.Closed) (h₀ : w.Permits s) (hp : w.Permits (s.dispatch t)) :
    (s.switched w prior).dispatch t = (s.dispatch t).switched w prior := by
  unfold dispatch at hp ⊢
  simp only [switched_recovery, switched_expr, switched_mode]
  cases hr : s.recovery with
  | some r => simp
  | none =>
    simp only [hr] at hp ⊢
    by_cases hx : s.expr.isSome = true
    · simp only [hx, if_true] at hp ⊢
      exact s.switched_feedExpr w prior t hc h₀ hp
    · simp only [hx, Bool.false_eq_true, if_false] at hp ⊢
      cases hm : s.mode with
      | body header =>
        rw [hm] at hp
        exact s.switched_bodyToken w prior t hc h₀ hp
      | expression =>
        rw [hm] at hp
        exact s.switched_expressionStart w prior t hc h₀ hp
      | _ => simp

end Session

end GameScript
