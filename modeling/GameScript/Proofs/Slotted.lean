import GameScript.Parser.Slots
import GameScript.Proofs.Frame
import GameScript.Proofs.Unseen

/-!
The statement automaton with stage and slots apart does what the one with typed phases does: the entries that it
meets are those that can be typed.
-/

namespace GameScript

namespace PendingStmt

@[simp] theorem inHeader_slotted (p : PendingStmt) : p.slotted.inHeader = p.inHeader := by
  cases p with
  | ifStmt _ phase | whileLoop _ phase | forLoop _ phase | foreachLoop _ phase => cases phase <;> rfl
  | _ => rfl

@[simp] theorem awaitsBody_slotted (p : PendingStmt) : p.slotted.awaitsBody = p.awaitsBody := by
  cases p with
  | ifStmt _ phase | whileLoop _ phase | forLoop _ phase | foreachLoop _ phase => cases phase <;> rfl
  | _ => rfl

@[simp] theorem flowTarget?_slotted (p : PendingStmt) : p.slotted.flowTarget? = p.flowTarget? := by
  cases p with
  | whileLoop _ phase | forLoop _ phase | foreachLoop _ phase | switch _ phase => cases phase <;> rfl
  | _ => rfl

@[simp] theorem iterators_slotted (p : PendingStmt) : p.slotted.iterators = p.iterators := by
  cases p with
  | foreachLoop _ phase => cases phase <;> rfl
  | _ => rfl

theorem inHeader_outline (p : SlotStmt) : p.outline.inHeader = p.inHeader := by
  unfold SlotStmt.outline
  split
  · next h => exact h.symm
  · next h => simpa [inHeader] using h

end PendingStmt

namespace Session

def restack (g : List PendingStmt → List PendingStmt) (s : Session) : Session :=
  { s with stmts := g s.stmts }

section

variable {g : List PendingStmt → List PendingStmt} (s : Session)

theorem restack_report (p : Problem) (loc : Location) : (s.restack g).report p loc = (s.report p loc).restack g := by
  simp only [restack, report_withStmts, report_stmts]

variable (hg : ∀ stmts, (g stmts).dropWhile PendingStmt.inHeader = g (stmts.dropWhile PendingStmt.inHeader))
include hg

theorem restack_enterRecovery : (s.restack g).enterRecovery = s.enterRecovery.restack g := by
  cases hm : s.mode <;> simp [restack, enterRecovery, clearExpr, hm, hg]

theorem restack_resync (t : Token) : (s.restack g).resync t = (s.resync t).restack g := by
  have hrecover (s : Session) (r : Recovery) : (s.restack g).recoverToken r t = (s.recoverToken r t).restack g := by
    have hsync : (s.restack g).isSyncKeyword t = s.isSyncKeyword t := rfl
    cases r <;> simp only [recoverToken, hsync] <;> repeat' split
    all_goals rfl
  have hr : (s.enterRecovery.restack g).recovery = s.enterRecovery.recovery := rfl
  simp only [resync, s.restack_enterRecovery hg, hr]
  cases s.enterRecovery.recovery with
  | none => rfl
  | some r => exact hrecover _ r

theorem restack_assignTarget (x : ExprState) (op : Operator) (target : Expr) (t : Token) :
    (s.restack g).assignTarget x op target t = moved (restack g) (s.assignTarget x op target t) := by
  have hallow : (s.restack g).config.allowAssignmentExpressions = s.config.allowAssignmentExpressions := rfl
  have hclear (s : Session) : (s.restack g).clearExpr = s.clearExpr.restack g := rfl
  have hkeep : (s.restack g).keep (x.push (.assign op target)) =
      moved (restack g) (s.keep (x.push (.assign op target))) := rfl
  simp only [assignTarget, hallow, fail, restack_report, hclear, restack_resync _ hg, hkeep, moved_ite]
  rfl

/-- Expressions do not see the stack, if recovery takes the same headers off it. -/
theorem restack_unseen : Unseen (restack g) fun _ => True where
  stream _ := rfl
  expr _ := rfl
  nextId _ := rfl
  gameMode _ := rfl
  withStream _ _ := rfl
  withExpr _ _ := rfl
  withNextId _ _ := rfl
  panic _ := rfl
  report s := s.restack_report
  resync s := s.restack_resync hg
  assignTarget s x op target t _ := s.restack_assignTarget hg x op target t
  ok _ _ := id

end

variable (s : Session)

@[simp] theorem slotted_base : s.slotted.base = { s with stmts := [] } :=
  rfl

@[simp] theorem slotted_stmts : s.slotted.stmts = s.stmts.map PendingStmt.slotted :=
  rfl

theorem slotted_of_nil {s : Session} (hs : s.stmts = []) : s.slotted = ⟨s, []⟩ := by
  simp only [slotted, hs, List.map_nil]
  rw [← hs]

theorem slotted_outside {s : Session} (hs : s.stmts = []) (f : Session → Session) :
    s.slotted.outside f = (f s).slotted := by
  rw [slotted_of_nil hs, SlotSession.outside, List.append_nil]
  rfl

theorem slotted_ite {c : Prop} [Decidable c] (r : Session) :
    (if c then s else r).slotted = if c then s.slotted else r.slotted :=
  apply_ite slotted c s r

@[simp] theorem slotted_report (p : Problem) (loc : Location) : s.slotted.report p loc = (s.report p loc).slotted := by
  simp only [SlotSession.report, slotted, report_withStmts, report_stmts]

@[simp] theorem slotted_withNode (loc : Location) :
    s.slotted.withNode loc = ((s.withNode loc).1, (s.withNode loc).2.slotted) :=
  rfl

@[simp] theorem slotted_beginExpr (context : ExprContext) :
    s.slotted.beginExpr context = (s.beginExpr context).slotted :=
  rfl

@[simp] theorem slotted_defer : s.slotted.defer = s.defer.slotted :=
  rfl

@[simp] theorem slotted_pushStmt (p : PendingStmt) : s.slotted.pushStmt p.slotted = (s.pushStmt p).slotted :=
  rfl

@[simp] theorem slotted_popStmt : s.slotted.popStmt = s.popStmt.slotted := by
  simp only [SlotSession.popStmt, popStmt, slotted, List.map_tail]

@[simp] theorem slotted_replaceStmt (p : PendingStmt) : s.slotted.replaceStmt p.slotted = (s.replaceStmt p).slotted := by
  simp only [SlotSession.replaceStmt, replaceStmt, slotted, List.map_cons, List.map_tail]

@[simp] theorem slotted_enterRecovery : s.slotted.enterRecovery = s.enterRecovery.slotted := by
  have hdrop : (s.stmts.map PendingStmt.slotted).dropWhile SlotStmt.inHeader =
      (s.stmts.dropWhile PendingStmt.inHeader).map PendingStmt.slotted := by
    rw [List.dropWhile_map]
    congr 2
    funext p
    exact p.inHeader_slotted
  cases hm : s.mode <;> simp [SlotSession.enterRecovery, enterRecovery, clearExpr, slotted, hm, hdrop]

@[simp] theorem slotted_recoverToken (r : Recovery) (t : Token) :
    s.slotted.recoverToken r t = (s.recoverToken r t).slotted := by
  have hsync : isSyncKeyword { s with stmts := [] } t = s.isSyncKeyword t := rfl
  cases r <;> simp only [SlotSession.recoverToken, recoverToken, slotted_base, hsync] <;> repeat' split
  all_goals rfl

@[simp] theorem slotted_resync (t : Token) : s.slotted.resync t = (s.resync t).slotted := by
  simp only [SlotSession.resync, resync, slotted_enterRecovery, slotted_base]
  cases s.enterRecovery.recovery with
  | none => rfl
  | some r => exact slotted_recoverToken _ r t

@[simp] theorem slotted_rejectToken (t : Token) (expected : String) :
    s.slotted.rejectToken t expected = (s.rejectToken t expected).slotted := by
  simp only [SlotSession.rejectToken, rejectToken, reportUnexpected, slotted_report, slotted_resync]

theorem slotted_expect (t : Token) (expected : Char) (quiet : Bool) {next : Session → Session}
    {next' : SlotSession → SlotSession} (hnext : next' s.slotted = (next s).slotted) :
    s.slotted.expect t expected quiet next' = (s.expect t expected quiet next).slotted := by
  unfold SlotSession.expect expect
  split
  · exact hnext
  split
  · exact s.slotted_resync t
  · rw [slotted_report, slotted_resync]

theorem slotted_addToBlock (b : PendingBlock) (rest : List PendingStmt) (stmt : Stmt) :
    s.slotted.addToBlock ⟨b.node, b.role.slotRole, b.statements, b.role.labels?⟩ (rest.map PendingStmt.slotted) stmt =
      (s.addToBlock b rest stmt).slotted := by
  obtain ⟨node, role, statements⟩ := b
  cases role with
  | functionBody | nested => rfl
  | switchBody labels =>
    have hany : (BlockRole.switchBody labels).labels?.any (fun l => l.groups.isEmpty) = labels.groups.isEmpty := rfl
    cases he : labels.groups.isEmpty with
    | true =>
      simp only [SlotSession.addToBlock, addToBlock, hany, he, if_true]
      exact slotted_report { s with stmts := .block ⟨node, .switchBody labels, statements⟩ :: rest } _ _
    | false =>
      simp only [SlotSession.addToBlock, addToBlock, hany, he, Bool.false_eq_true, if_false]
      rfl

@[simp] theorem slotted_bind (stmts : List PendingStmt) (stmt : Stmt) :
    s.slotted.bind (stmts.map PendingStmt.slotted) stmt = (s.bind stmts stmt).slotted := by
  induction stmts generalizing stmt with
  | nil => rfl
  | cons top rest ih =>
    cases top with
    | block b => exact s.slotted_addToBlock b rest stmt
    | ifStmt node phase =>
      cases phase with
      | elseBranch condition thenBranch => exact ih _
      | _ => rfl
    | whileLoop node phase =>
      cases phase with
      | body condition => exact ih _
      | _ => rfl
    | forLoop node phase =>
      cases phase with
      | body first condition step => exact ih _
      | _ => rfl
    | foreachLoop node phase =>
      cases phase with
      | body key value collection => cases key <;> exact ih _
      | _ => rfl
    | _ => rfl

@[simp] theorem slotted_finishStmt (stmt : Stmt) : s.slotted.finishStmt stmt = (s.finishStmt stmt).slotted :=
  s.slotted_bind s.stmts stmt

@[simp] theorem slotted_bindEmptyBody (loc : Location) : s.slotted.bindEmptyBody loc = (s.bindEmptyBody loc).slotted :=
  (s.withNode loc).2.slotted_finishStmt _

@[simp] theorem slotted_addLabel (label : CaseLabel) (value : Option Value) (loc : Location) :
    s.slotted.addLabel label value loc = (s.addLabel label value loc).slotted := by
  unfold SlotSession.addLabel addLabel
  simp only [slotted_stmts]
  cases hs : s.stmts with
  | nil => rfl
  | cons top rest =>
    cases top with
    | block b =>
      obtain ⟨node, role, statements⟩ := b
      cases role with
      | functionBody | nested => rfl
      | switchBody labels =>
        simp only [List.map_cons, PendingStmt.slotted, BlockRole.labels?, slotted_base]
        cases labelProblem? s.config.allowDefaultWithCase labels (labels.groupAt statements.length) label value with
        | none => rfl
        | some problem => exact s.slotted_report problem loc
    | _ => rfl

theorem slotted_closeSwitch (b : PendingBlock) (labels : SwitchLabels) (t : Token) :
    s.slotted.closeSwitch ⟨b.node, .switchBody, b.statements, some labels⟩ t = (s.closeSwitch b labels t).slotted := by
  unfold SlotSession.closeSwitch closeSwitch
  simp only [slotted_stmts]
  cases hs : s.stmts with
  | nil => rfl
  | cons top rest =>
    cases top with
    | switch node phase =>
      cases phase with
      | start | condition => rfl
      | body subject =>
        have hrest : (⟨s.slotted.base, rest.map PendingStmt.slotted⟩ : SlotSession) = { s with stmts := rest }.slotted :=
          rfl
        simp only [List.map_cons, PendingStmt.slotted, HeaderPhase.expr?, hrest, Option.getD_some, slotted_report,
          ← slotted_ite]
        cases redundantBreak? node.id b.statements with
        | none => exact slotted_finishStmt _ _
        | some loc =>
          simp only
          exact slotted_finishStmt _ _
    | _ => rfl

theorem slotted_closeFunction (b : PendingBlock) :
    (⟨s.slotted.base.closeFunction ⟨b.node, .functionBody, b.statements⟩, []⟩ : SlotSession) =
      (s.closeFunction b).slotted := by
  have hstmts (f : FunctionDef) : (({ s with stmts := [] }.inRoot .idle).defineFunction f).stmts = [] := by
    unfold defineFunction
    split
    · rfl
    split
    · exact report_stmts _ _ _
    · rfl
  unfold closeFunction
  simp only [slotted_base]
  split
  · exact (slotted_of_nil (hstmts _)).symm
  · rfl

theorem slotted_closeBlock (b : PendingBlock) (t : Token) :
    s.slotted.closeBlock ⟨b.node, b.role.slotRole, b.statements, b.role.labels?⟩ t = (s.closeBlock b t).slotted := by
  obtain ⟨node, role, statements⟩ := b
  unfold SlotSession.closeBlock closeBlock
  rw [slotted_popStmt]
  cases role with
  | functionBody => exact s.popStmt.slotted_closeFunction ⟨node, .functionBody, statements⟩
  | nested => exact s.popStmt.slotted_finishStmt _
  | switchBody labels => exact s.popStmt.slotted_closeSwitch ⟨node, .switchBody labels, statements⟩ labels t

@[simp] theorem slotted_closeBrace (t : Token) : s.slotted.closeBrace t = (s.closeBrace t).slotted := by
  unfold SlotSession.closeBrace closeBrace
  simp only [slotted_stmts, slotted_report]
  have hother (top : PendingStmt) : (if top.slotted.awaitsBody = true
        then ((s.report (.unexpected "`\x7d`" "a statement") t.loc).slotted.bindEmptyBody t.loc).defer
        else (s.report (.unexpected "`\x7d`" "a statement") t.loc).slotted) =
      (if top.awaitsBody = true then ((s.report (.unexpected "`\x7d`" "a statement") t.loc).bindEmptyBody t.loc).defer
        else s.report (.unexpected "`\x7d`" "a statement") t.loc).slotted := by
    rw [PendingStmt.awaitsBody_slotted, slotted_bindEmptyBody, slotted_defer, slotted_ite]
  cases hs : s.stmts with
  | nil => rfl
  | cons top rest =>
    cases top with
    | block b => exact s.slotted_closeBlock b t
    | _ => exact hother _

@[simp] theorem slotted_statementDone (completed : Completed) (t : Token) :
    s.slotted.statementDone completed t = (s.statementDone completed t).slotted := by
  unfold SlotSession.statementDone statementDone
  cases completed with
  | value e =>
    simp only
    split
    · exact s.slotted_expect t ';' false ((s.withNode e.loc).2.slotted_finishStmt _)
    · rw [slotted_report]
      exact slotted_expect _ t ';' false rfl
  | empty => exact s.slotted_rejectToken t _
  | failed => exact s.slotted_expect t ';' true rfl

theorem slotted_required (completed : Completed) (t : Token) (missing : Problem) {next : Session → Expr → Session}
    {next' : SlotSession → Expr → SlotSession}
    (hnext : ∀ s' e, s'.stmts = s.stmts → next' s'.slotted e = (next s' e).slotted) :
    s.slotted.required completed t missing next' = (s.required completed t missing next).slotted := by
  unfold SlotSession.required required
  cases completed with
  | empty =>
    simp only [slotted_report]
    exact slotted_expect _ t ')' _ (hnext ((s.report missing t.loc).placeholder t.loc).2 _ (by simp [placeholder]))
  | failed => exact slotted_expect _ t ')' _ (hnext (s.placeholder t.loc).2 _ rfl)
  | value e => exact slotted_expect _ t ')' _ (hnext s e rfl)

theorem slotted_conditionDone {top : PendingStmt} {rest : List PendingStmt} (completed : Completed) (t : Token)
    (hs : s.stmts = top :: rest) (ht : top.reads = some .condition) :
    s.slotted.conditionDone completed t = (s.conditionDone completed t).slotted := by
  refine s.slotted_required completed t _ fun s' e hs' => ?_
  have hstmts : s'.stmts = top :: rest := hs'.trans hs
  simp only [slotted_stmts, hstmts]
  cases top with
  | ifStmt node phase =>
    cases phase with
    | condition => exact s'.slotted_replaceStmt (.ifStmt node (.thenBranch e))
    | _ => cases ht
  | whileLoop node phase => exact s'.slotted_replaceStmt (.whileLoop node (.body e))
  | switch node phase => exact s'.slotted_replaceStmt (.switch node (.body e))
  | _ => rfl

theorem slotted_collectionDone {top : PendingStmt} {rest : List PendingStmt} (completed : Completed) (t : Token)
    (hs : s.stmts = top :: rest) (ht : top.reads = some .foreachCollection) :
    s.slotted.collectionDone completed t = (s.collectionDone completed t).slotted := by
  refine s.slotted_required completed t _ fun s' e hs' => ?_
  have hstmts : s'.stmts = top :: rest := hs'.trans hs
  simp only [slotted_stmts, hstmts]
  cases top with
  | foreachLoop node phase =>
    cases phase with
    | collection key value => exact s'.slotted_replaceStmt (.foreachLoop node (.body key value e))
    | _ => cases ht
  | _ => rfl

theorem fillClause_slotted (node : Node) (clause : ForClause) (first condition e : Option Expr) :
    SlotSession.fillClause node clause (ForPhase.clause clause first condition).first?
        (ForPhase.clause clause first condition).condition? (ForPhase.clause clause first condition).step? e =
      (PendingStmt.forLoop node (nextForPhase clause first condition e)).slotted := by
  cases clause <;> rfl

theorem slotted_forClauseDone {node : Node} {clause : ForClause} {first condition : Option Expr}
    {rest : List PendingStmt} (completed : Completed) (t : Token)
    (hs : s.stmts = .forLoop node (.clause clause first condition) :: rest) :
    s.slotted.forClauseDone clause completed t = (s.forClauseDone clause completed t).slotted := by
  refine s.slotted_expect t _ _ ?_
  have hfill := s.slotted_replaceStmt (.forLoop node (nextForPhase clause first condition completed.value?))
  rw [← fillClause_slotted] at hfill
  simp only [slotted_stmts, hs, List.map_cons, PendingStmt.slotted, hfill]
  cases clause <;> rfl

@[simp] theorem slotted_keywordArgDone (completed : Completed) (t : Token) :
    s.slotted.keywordArgDone completed t = (s.keywordArgDone completed t).slotted := by
  unfold SlotSession.keywordArgDone keywordArgDone
  simp only [slotted_stmts, slotted_popStmt]
  cases hs : s.stmts with
  | nil => rfl
  | cons top rest =>
    cases top with
    | keywordCall node keyword =>
      refine slotted_expect s.popStmt t ';' _ ?_
      split
      · rfl
      cases argumentProblem? node keyword completed.value? with
      | none => exact slotted_finishStmt _ _
      | some m => exact slotted_report _ _ _
    | _ => rfl

theorem slotted_caseValue (e : Expr) (loc : Location) : s.slotted.caseValue e loc = (s.caseValue e loc).slotted := by
  unfold SlotSession.caseValue caseValue
  simp only [slotted_base, slotted_report, slotted_addLabel]
  cases Fold.evaluate s.constants.lookup? e <;> rfl

@[simp] theorem slotted_caseLabelDone (completed : Completed) (t : Token) :
    s.slotted.caseLabelDone completed t = (s.caseLabelDone completed t).slotted := by
  unfold SlotSession.caseLabelDone caseLabelDone
  simp only [slotted_stmts, slotted_popStmt]
  cases hs : s.stmts with
  | nil => rfl
  | cons top rest =>
    cases top with
    | caseLabel loc =>
      refine slotted_expect s.popStmt t ':' _ ?_
      cases completed with
      | value e => exact slotted_caseValue _ e loc
      | empty => exact slotted_report _ _ _
      | failed => rfl
    | _ => rfl

/-- The stack has what an expression in this context is for. -/
inductive Owned : ExprContext → List PendingStmt → Prop
  | statement {stmts : List PendingStmt} : Owned .statement stmts
  | header {context : ExprContext} {top : PendingStmt} {rest : List PendingStmt} (h : top.reads = some context) :
      Owned context (top :: rest)
  | outside {context : ExprContext} (h : context = .constValue ∨ context = .directiveArgs ∨ context = .topLevel) :
      Owned context []

theorem slotted_exprDone {context : ExprContext} (completed : Completed) (t : Token) (hc : Owned context s.stmts) :
    s.slotted.exprDone context completed t = (s.exprDone context completed t).slotted := by
  generalize hs : s.stmts = stmts at hc
  cases hc with
  | statement => exact s.slotted_statementDone completed t
  | header h =>
    obtain ⟨rfl, -⟩ | ⟨node, clause, first, condition, rfl, rfl⟩ | ⟨rfl, -⟩ | ⟨rfl, -⟩ | ⟨rfl, -⟩ :=
      PendingStmt.reads_cases h
    · exact s.slotted_conditionDone completed t hs h
    · exact s.slotted_forClauseDone completed t hs
    · exact s.slotted_collectionDone completed t hs h
    · exact s.slotted_keywordArgDone completed t
    · exact s.slotted_caseLabelDone completed t
  | outside h =>
    obtain rfl | rfl | rfl := h
    · exact slotted_outside hs (·.constValueDone completed t)
    · exact slotted_outside hs (·.directiveArgDone completed t)
    · exact slotted_outside hs (·.topLevelDone completed t)

theorem outline_dropWhile (stmts : List PendingStmt) :
    (stmts.map fun p => p.slotted.outline).dropWhile PendingStmt.inHeader =
      (stmts.dropWhile PendingStmt.inHeader).map fun p => p.slotted.outline := by
  rw [List.dropWhile_map]
  congr 2
  funext p
  exact (PendingStmt.inHeader_outline _).trans p.inHeader_slotted

theorem exprToken_suffix {x : ExprState} {t : Token} (hc : s.stream.Closed) :
    (s.exprToken x t).1.stmts <:+ s.stmts := by
  obtain ⟨m, ho, hm⟩ := exprToken_outcome (x := x) (t := t) hc
  have hreport (stream : TokenStream) (id : Nat) (p : Problem) (loc : Location) :
      ({ s with stream := stream, nextId := id }.report p loc).stmts <:+ s.stmts := by
    simpa only [report_stmts] using List.suffix_rfl
  rw [hm]
  cases ho with
  | kept | ended => exact List.suffix_rfl
  | truncated => exact hreport _ _ _ _
  | gaveUp => exact (resync_stmts _ t).trans (hreport _ _ _ _)
  | halted => exact hreport _ _ _ _

theorem slotted_exprToken (x : ExprState) (t : Token) (hc : s.stream.Closed) :
    s.slotted.exprToken x t = ((s.exprToken x t).1.slotted, (s.exprToken x t).2) := by
  have hstart : { s.slotted.base with stmts := s.slotted.stmts.map SlotStmt.outline } =
      s.restack (·.map fun p => p.slotted.outline) := by
    simp [restack, Function.comp_def]
  have hrest := List.suffix_iff_eq_drop.1 (s.exprToken_suffix (x := x) (t := t) hc)
  unfold SlotSession.exprToken
  rw [hstart, (restack_unseen outline_dropWhile).exprToken s x t trivial]
  simp only [moved, restack, slotted_stmts, List.length_map, ← List.map_drop, ← hrest]
  rfl

theorem slotted_finishExpr (x : ExprState) (t : Token) :
    s.slotted.base.finishExpr x t = ((s.finishExpr x t).1.slotted.base, (s.finishExpr x t).2) :=
  (restack_unseen (g := fun _ => []) fun _ => rfl).finishExpr s x t

theorem foldWhile_stmts {x : ExprState} {p : PendingExpr → Bool} {t : Token} {m : Session × ExprState}
    (h : s.foldWhile x p t = .ok m) : m.1.stmts = s.stmts := by
  unfold foldWhile at h
  split at h
  · cases h
    rfl
  split at h
  · split at h
    · cases h
    split at h <;> cases h <;> rfl
  · cases h
    rfl

theorem finishExpr_stmts (x : ExprState) (t : Token) : (s.finishExpr x t).1.stmts = s.stmts := by
  unfold finishExpr
  simp only
  split
  · exact report_stmts _ _ _
  · next hm =>
    have hstmts := foldWhile_stmts _ hm
    split
    · exact (report_stmts _ _ _).trans hstmts
    · split <;> exact hstmts

theorem slotted_ended {x y : ExprState} (t : Token) (hx : Owned x.context s.stmts) :
    SlotSession.exprDone ⟨(s.slotted.base.finishExpr y t).1, s.slotted.stmts⟩ x.context
        (s.slotted.base.finishExpr y t).2 t =
      ((s.finishExpr y t).1.exprDone x.context (s.finishExpr y t).2 t).slotted := by
  have howned : Owned x.context (s.finishExpr y t).1.stmts := by rwa [finishExpr_stmts]
  have hstmts : s.slotted.stmts = (s.finishExpr y t).1.slotted.stmts := by
    rw [slotted_stmts, slotted_stmts, finishExpr_stmts]
  rw [← slotted_exprDone _ _ t howned, slotted_finishExpr, hstmts]

theorem slotted_feedExpr (t : Token) (hc : s.stream.Closed) (hx : ∀ x ∈ s.expr, Owned x.context s.stmts) :
    s.slotted.feedExpr t = (s.feedExpr t).slotted := by
  unfold SlotSession.feedExpr feedExpr
  simp only [slotted_base]
  cases he : s.expr with
  | none => rfl
  | some x =>
    obtain ⟨m, ho, hm⟩ := exprToken_outcome (x := x) (t := t) hc
    simp only [s.slotted_exprToken x t hc]
    cases ho with
    | @ended stream id y =>
      simp only [hm, started, Option.getD_some]
      exact slotted_ended { s with stream := stream, nextId := id, expr := some y } t (hx x he)
    | _ => simp only [hm, started]

theorem slotted_openHeader {top : PendingStmt} {rest : List PendingStmt} (hs : s.stmts = top :: rest)
    (ht : (top.opened?).isSome = true) : s.slotted.openHeader = s.openHeader.slotted := by
  have hreplace (p : PendingStmt) : s.slotted.replaceStmt p.slotted = (s.replaceStmt p).slotted := s.slotted_replaceStmt p
  unfold SlotSession.openHeader openHeader
  simp only [slotted_stmts, hs, List.map_cons]
  cases top with
  | ifStmt node phase =>
    cases phase with
    | start => exact congrArg (·.beginExpr .condition) (hreplace (.ifStmt node .condition))
    | _ => cases ht
  | whileLoop node phase =>
    cases phase with
    | start => exact congrArg (·.beginExpr .condition) (hreplace (.whileLoop node .condition))
    | _ => cases ht
  | switch node phase =>
    cases phase with
    | start => exact congrArg (·.beginExpr .condition) (hreplace (.switch node .condition))
    | _ => cases ht
  | forLoop node phase =>
    cases phase with
    | start =>
      exact congrArg (·.beginExpr (.forClause .first)) (hreplace (.forLoop node (.clause .first none none)))
    | _ => cases ht
  | foreachLoop node phase =>
    cases phase with
    | start => exact hreplace (.foreachLoop node (.names .none))
    | _ => cases ht
  | _ => rfl

theorem bindsIterator_slotted (stmts : List PendingStmt) (name : Ident) :
    SlotSession.bindsIterator (stmts.map PendingStmt.slotted) name = bindsIterator stmts name := by
  simp only [SlotSession.bindsIterator, bindsIterator, List.any_map, Function.comp_def,
    PendingStmt.iterators_slotted]

theorem slotted_iteratorName (node : Node) (names names' : IteratorNames) (name : Ident)
    (hlist : names'.list = names.list ++ [name]) (hcomma : names'.behindComma = false) :
    (if SlotSession.bindsIterator s.slotted.stmts name then s.slotted.report (.shadowedIterator name.name) name.loc
        else s.slotted).replaceStmt (.foreachLoop node (.names false) (names.list ++ [name]) none) =
      (s.iteratorName node names' name).slotted := by
  unfold iteratorName
  rw [slotted_stmts, bindsIterator_slotted, slotted_report, ← slotted_ite, ← slotted_replaceStmt, ← hlist, ← hcomma]
  rfl

theorem slotted_iteratorToken (node : Node) (names : IteratorNames) (t : Token) :
    s.slotted.iteratorToken node names.behindComma names.list none t = (s.iteratorToken node names t).slotted := by
  have hplain : s.slotted.base.plainName? t = s.plainName? t := rfl
  have hmode : s.slotted.base.gameMode = s.gameMode := rfl
  have hcollection (key : Option Ident) (value : Ident) :
      (s.slotted.replaceStmt (.foreachLoop node .collection (key.toList ++ [value]) none)).beginExpr .foreachCollection =
        (s.beginCollection node key value).slotted :=
    congrArg (·.beginExpr .foreachCollection) (s.slotted_replaceStmt (.foreachLoop node (.collection key value)))
  unfold SlotSession.iteratorToken iteratorToken
  rw [hplain, hmode]
  cases names with
  | none =>
    cases s.plainName? t with
    | none => simp [IteratorNames.list]
    | some name => exact s.slotted_iteratorName node .none (.one name) name rfl rfl
  | one key =>
    cases s.plainName? t with
    | none =>
      have hcomma : (s.replaceStmt (.foreachLoop node (.names (.oneMore key)))).slotted =
          s.slotted.replaceStmt (.foreachLoop node (.names true) [key] none) := (s.slotted_replaceStmt _).symm
      simp [IteratorNames.list, IteratorNames.behindComma, slotted_ite, hcomma, ← hcollection]
    | some name => simp [IteratorNames.list, IteratorNames.behindComma]
  | oneMore key =>
    cases s.plainName? t with
    | none => simp [IteratorNames.list, IteratorNames.behindComma]
    | some name => exact s.slotted_iteratorName node (.oneMore key) (.two key name) name rfl rfl
  | two key value =>
    cases s.plainName? t with
    | none => simp [IteratorNames.list, IteratorNames.behindComma, slotted_ite, ← hcollection]
    | some name => simp [IteratorNames.list]

@[simp] theorem slotted_openSwitchBody (t : Token) : s.slotted.openSwitchBody t = (s.openSwitchBody t).slotted :=
  s.slotted_expect t '\x7b' false rfl

theorem slotted_headerToken? (t : Token) :
    s.slotted.headerToken? t = (s.headerToken? t).map slotted := by
  unfold SlotSession.headerToken? headerToken?
  simp only [slotted_stmts]
  cases hs : s.stmts with
  | nil => rfl
  | cons top rest =>
    have hopen (ht : top.opened?.isSome = true) : s.slotted.expect t '(' false SlotSession.openHeader =
        (s.expect t '(' false openHeader).slotted := s.slotted_expect t '(' false (s.slotted_openHeader hs ht)
    cases top with
    | ifStmt node phase | whileLoop node phase | forLoop node phase =>
      cases phase with
      | start => exact congrArg some (hopen rfl)
      | _ => rfl
    | foreachLoop node phase =>
      cases phase with
      | start => exact congrArg some (hopen rfl)
      | names names => exact congrArg some (s.slotted_iteratorToken node names t)
      | _ => rfl
    | switch node phase =>
      cases phase with
      | start => exact congrArg some (hopen rfl)
      | condition => rfl
      | body => exact congrArg some (s.slotted_openSwitchBody t)
    | flow node kind target =>
      refine congrArg some (s.slotted_expect t ';' false ?_)
      rw [slotted_popStmt, slotted_finishStmt]
    | defaultLabel loc =>
      refine congrArg some (s.slotted_expect t ':' false ?_)
      rw [slotted_popStmt, slotted_addLabel]
    | _ => rfl

@[simp] theorem slotted_startKeywordCall (keyword : CallKeyword) (loc : Location) :
    s.slotted.startKeywordCall keyword loc = (s.startKeywordCall keyword loc).slotted :=
  rfl

theorem flowTarget?_slotted (stmts : List PendingStmt) (kind : FlowKind) :
    SlotSession.flowTarget? (stmts.map PendingStmt.slotted) kind = flowTarget? stmts kind := by
  simp only [SlotSession.flowTarget?, flowTarget?, List.filterMap_map, Function.comp_def,
    PendingStmt.flowTarget?_slotted]

@[simp] theorem slotted_startFlow (kind : FlowKind) (loc : Location) :
    s.slotted.startFlow kind loc = (s.startFlow kind loc).slotted := by
  unfold SlotSession.startFlow startFlow
  simp only [slotted_stmts, flowTarget?_slotted]
  cases flowTarget? s.stmts kind with
  | none => simp only [slotted_report, slotted_enterRecovery]
  | some target => rfl

theorem slotted_startLabel (k : Keyword) (loc : Location) {next : Session → Session}
    {next' : SlotSession → SlotSession} (hnext : next' s.slotted = (next s).slotted) :
    s.slotted.startLabel k loc next' = (s.startLabel k loc next).slotted := by
  have hin : s.slotted.inSwitchBody = s.inSwitchBody := by
    unfold SlotSession.inSwitchBody inSwitchBody
    simp only [slotted_stmts]
    cases s.stmts with
    | nil => rfl
    | cons top rest =>
      cases top with
      | block b =>
        obtain ⟨node, role, statements⟩ := b
        cases role <;> rfl
      | _ => rfl
  unfold SlotSession.startLabel startLabel
  rw [hin, hnext, slotted_report, slotted_enterRecovery, slotted_ite]

theorem slotted_pushNew (loc : Location) {stmt : Node → PendingStmt} {stmt' : Node → SlotStmt}
    (hstmt : ∀ node, stmt' node = (stmt node).slotted) :
    s.slotted.pushNew loc stmt' = (s.pushNew loc stmt).slotted := by
  obtain rfl : stmt' = fun node => (stmt node).slotted := funext hstmt
  rfl

theorem slotted_startKeyword? (k : Keyword) (loc : Location) :
    s.slotted.startKeyword? k loc = (s.startKeyword? k loc).map slotted := by
  cases k with
  | ifKw | whileKw | forKw | foreachKw | switchKw => exact congrArg some (s.slotted_pushNew loc fun _ => rfl)
  | breakKw | continueKw => exact congrArg some (s.slotted_startFlow _ loc)
  | caseKw | defaultKw => exact congrArg some (s.slotted_startLabel _ loc rfl)
  | elseKw => simp [SlotSession.startKeyword?, startKeyword?]
  | _ => rfl

@[simp] theorem slotted_straySemicolon (t : Token) : s.slotted.straySemicolon t = (s.straySemicolon t).slotted := by
  simp only [SlotSession.straySemicolon, straySemicolon, slotted_report, slotted_stmts, report_stmts]
  cases s.stmts with
  | nil => rfl
  | cons top rest =>
    simp only [List.map_cons, PendingStmt.awaitsBody_slotted, slotted_bindEmptyBody, slotted_ite]

theorem slotted_startExprStmt (t : Token) (hc : s.stream.Closed) :
    s.slotted.startExprStmt t = (s.startExprStmt t).slotted := by
  refine (s.beginExpr .statement).slotted_feedExpr t hc ?_
  rintro _ ⟨⟩
  exact .statement

theorem slotted_startStmt (t : Token) (hc : s.stream.Closed) : s.slotted.startStmt t = (s.startStmt t).slotted := by
  have hmode : s.slotted.base.gameMode = s.gameMode := rfl
  have hblock : s.slotted.pushNew t.loc (fun node => .block ⟨node, .nested, [], none⟩) =
      (s.pushNew t.loc fun node => .block ⟨node, .nested, []⟩).slotted := rfl
  unfold SlotSession.startStmt startStmt
  simp only [hmode, hblock, slotted_closeBrace, slotted_straySemicolon, slotted_report, slotted_startKeyword?,
    s.slotted_startExprStmt t hc]
  iterate 4
    split
    · rfl
  cases t.keyword? s.gameMode with
  | none => rfl
  | some k =>
    simp only
    cases s.startKeyword? k t.loc <;> rfl

theorem slotted_awaitElse (node : Node) (condition : Expr) (thenBranch : Stmt) (t : Token) :
    s.slotted.awaitElse node (some condition) (some thenBranch) t =
      (s.awaitElse node condition thenBranch t).slotted := by
  have hmode : s.slotted.base.gameMode = s.gameMode := rfl
  have helse := s.slotted_replaceStmt (.ifStmt node (.elseBranch condition thenBranch))
  unfold SlotSession.awaitElse awaitElse
  simp only [hmode, slotted_popStmt, slotted_finishStmt, slotted_defer, slotted_ite, ← helse]
  rfl

theorem slotted_bodyToken (t : Token) (hc : s.stream.Closed) : s.slotted.bodyToken t = (s.bodyToken t).slotted := by
  unfold SlotSession.bodyToken bodyToken
  simp only [slotted_stmts, slotted_headerToken?, s.slotted_startStmt t hc]
  cases hs : s.stmts with
  | nil => cases s.headerToken? t <;> rfl
  | cons top rest =>
    cases top with
    | ifStmt node phase =>
      cases phase with
      | awaitElse condition thenBranch => exact s.slotted_awaitElse node condition thenBranch t
      | _ => cases s.headerToken? t <;> rfl
    | _ => cases s.headerToken? t <;> rfl

theorem Shaped.owned {s : Session} (hs : s.Shaped) : ∀ x ∈ s.expr, Owned x.context s.stmts := by
  intro x hx
  rw [Option.mem_def] at hx
  cases hs with
  | @root phase hm hst hr he =>
    rw [hst]
    rw [hx] at he
    cases phase <;> simp [RootPhase.reads] at he <;> exact .outside (by simp [he])
  | body hm hst hk hr he =>
    rw [hst]
    rw [hx] at he
    exact .header he.symm
  | statement hm hst hk ht hr he hc =>
    obtain rfl := Option.some.inj (hx.symm.trans he)
    rw [hc]
    exact .statement
  | expression hm hst hr he =>
    rw [hst]
    exact .outside (by simp [he x hx])
  | rootRecovery _ _ _ he | bodyRecovery _ _ _ _ _ he | closed _ _ _ he => cases hx.symm.trans he

theorem slotted_dispatch {s : Session} (t : Token) (hs : s.Shaped) (hc : s.stream.Closed) :
    s.slotted.dispatch t = (s.dispatch t).slotted := by
  have houtside (hm : ∀ header, s.mode ≠ .body header) : s.slotted.outside (·.dispatch t) = (s.dispatch t).slotted :=
    slotted_outside (hs.stmts_nil hm) _
  unfold SlotSession.dispatch
  simp only [slotted_base]
  cases hr : s.recovery with
  | some r =>
    simp only [dispatch, hr]
    exact s.slotted_recoverToken r t
  | none =>
    simp only
    by_cases hx : s.expr.isSome = true
    · simp only [dispatch, hr, hx, if_true]
      exact s.slotted_feedExpr t hc hs.owned
    · simp only [hx, Bool.false_eq_true, if_false]
      cases hm : s.mode with
      | body header =>
        simp only [dispatch, hr, hx, Bool.false_eq_true, if_false, hm]
        exact s.slotted_bodyToken t hc
      | _ => exact houtside (by simp [hm])

theorem slotted_step {s : Session} (hs : s.Sound) : s.slotted.step = s.step.slotted := by
  unfold SlotSession.step step
  have hf : s.slotted.base.isFinished = s.isFinished := rfl
  rw [hf]
  cases hh : s.isFinished with
  | true => rfl
  | false =>
    simp only [Bool.false_eq_true, if_false, slotted_base]
    rw [slotted_ite, ← slotted_dispatch _ (hs.read.shaped (halted_of_isFinished hh)) hs.read.closed]
    rfl

end Session

/-- Entries whose stage and slots are apart are at any time those that belong to typed phases. -/
theorem SlotSession.steps_slotted {s : Session} (hs : s.Sound) (n : Nat) :
    steps n s.slotted = (Session.steps n s).slotted := by
  induction n generalizing s with
  | zero => rfl
  | succ n ih =>
    have hf : s.slotted.base.isFinished = s.isFinished := rfl
    unfold steps Session.steps
    rw [hf, Session.slotted_step hs, ih hs.step, Session.slotted_ite]

end GameScript
