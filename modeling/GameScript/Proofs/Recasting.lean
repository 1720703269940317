import GameScript.Parser.Recast
import GameScript.Parser.Step
import GameScript.Proofs.Unlabelled

namespace GameScript

/-- The case of words does not matter, and all of the words are kept where messages are. Declarations of other tokens may
stand in front. -/
structure Guise extends Recast where
  exact : Prop
  lower : ∀ w, lowerWord (word w) = lowerWord w
  words : exact → ∀ w, word w = w
  filler : word "undefined" = "undefined"
  prior : Script := {}
  constants : Constants := []
  warned : List Complaint := []
  skipped : Nat := 0

def Guise.verbatim (loc : Location → Location) : Guise where
  loc := loc
  exact := True
  lower _ := rfl
  words _ _ := rfl
  filler := rfl

theorem Guise.expr_verbatim (e : Expr) : (verbatim id).expr e = e := by
  rw [Recast.expr_labelling (fun _ => rfl), Relabel.Keeps.expr ⟨Nat.zero_add, fun _ => rfl⟩]

namespace Recast

variable {r : Recast}

section Exact

variable (hw : ∀ w, r.word w = w)

include hw

theorem name_ident (n : Ident) : (r.ident n).name = n.name :=
  hw n.name

theorem text_expr (e : Expr) : (r.expr e).text = e.text := by
  rw [expr_labelling hw, Relabel.text_expr]

theorem describe_token (t : Token) : (r.token t).describe = t.describe := by
  simp only [token, hw, ite_self]
  rfl

end Exact

theorem symbol?_token (t : Token) : (r.token t).symbol? = t.symbol? := by
  unfold Token.symbol? token
  split
  · next h => rw [h]; rfl
  · rfl

theorem isSymbol_token (t : Token) (c : Char) : (r.token t).isSymbol c = t.isSymbol c := by
  rw [Token.isSymbol, symbol?_token, Token.isSymbol]

theorem text_token {t : Token} (h : t.kind ≠ .identifier) : (r.token t).text = t.text :=
  if_neg h

theorem ident_token {t : Token} (h : t.kind = .identifier) : (⟨(r.token t).text, r.loc t.loc⟩ : Ident) = r.ident ⟨t.text, t.loc⟩ := by
  simp only [token, h, if_true, ident]

theorem literal_token {t : Token} {kind : LiteralKind} (h : kind.isWord = (t.kind = .identifier)) :
    (⟨kind, (r.token t).text, false⟩ : Literal) = r.literal ⟨kind, t.text, false⟩ := by
  simp only [token, literal, h]

theorem isAssignable_expr (e : Expr) : (r.expr e).isAssignable = e.isAssignable := by
  cases e <;> rfl

theorem hasEffect_expr (e : Expr) : (r.expr e).hasEffect = e.hasEffect := by
  cases e <;> rfl

theorem labelProblem?_label (allow : Bool) (l : SwitchLabels) (group : List CaseLabel) (label : CaseLabel)
    (value : Option Value) :
    labelProblem? allow (r.labels l) (group.map r.label) (r.label label) value =
      labelProblem? allow l group label value :=
  labelProblem?_map r.expr r.loc allow l group label value

theorem groupAt_labels (l : SwitchLabels) (place : Nat) : (r.labels l).groupAt place = (l.groupAt place).map r.label :=
  l.groupAt_map r.expr r.loc place

theorem add_labels (l : SwitchLabels) (place : Nat) (label : CaseLabel) (value : Option Value) (loc : Location) :
    (r.labels l).add place (r.label label) value (r.loc loc) = r.labels (l.add place label value loc) :=
  l.add_map r.expr r.loc place label value loc

theorem closeGroups_switchCase (stop : Nat) (groups : List Case) :
    closeGroups stop (groups.map r.switchCase) = (closeGroups stop groups).map r.switchCase :=
  closeGroups_map r.expr r.loc stop groups

theorem redundantBreak?_stmts (id : Nat) (statements : List Stmt) :
    redundantBreak? (r.id id) (statements.map r.stmt) = (redundantBreak? id statements).map r.loc := by
  cases statements with
  | nil => rfl
  | cons s rest =>
    cases s with
    | flow node kind target =>
      cases kind with
      | breakFlow =>
        simp only [List.map_cons, stmt, redundantBreak?, flowTarget, Recast.id, Nat.add_left_cancel_iff]
        split <;> rfl
      | continueFlow => rfl
    | _ => rfl

theorem minArgs_param (params : List Param) : FunctionHeader.minArgs (params.map r.param) = FunctionHeader.minArgs params := by
  simp only [FunctionHeader.minArgs, List.findIdx?_map, List.filter_map, List.length_map]
  rfl

theorem define_header (h : FunctionHeader) (body : Option Block) :
    (r.header h).define (body.map r.block) = r.function (h.define body) := by
  simp only [FunctionHeader.define, header, function, minArgs_param, List.getLast?_map, Option.map_map]
  rfl

theorem functions_script (s : Script) : (r.script s).functions = s.functions.map r.function := by
  simp only [Script.functions, script, List.filterMap_map, List.map_filterMap]
  congr 1
  funext d
  cases d <;> rfl

theorem isFresh_script (s : Script) : Session.isFresh (r.script s) = Session.isFresh s := by
  simp [Session.isFresh, script]

theorem inHeader_pendingStmt (p : PendingStmt) : (r.pendingStmt p).inHeader = p.inHeader := by
  rcases p with b | ⟨_, _ | _⟩ | ⟨_, _ | _⟩ | ⟨_, _ | _⟩ | ⟨_, _ | _⟩ | _ | _ | _ | _ | _ <;> rfl

theorem awaitsBody_pendingStmt (p : PendingStmt) : (r.pendingStmt p).awaitsBody = p.awaitsBody := by
  rcases p with b | ⟨_, _ | _⟩ | ⟨_, _ | _⟩ | ⟨_, _ | _⟩ | ⟨_, _ | _⟩ | _ | _ | _ | _ | _ <;> rfl

theorem flowTarget?_pendingStmt (p : PendingStmt) :
    (r.pendingStmt p).flowTarget? = p.flowTarget?.map r.flowTarget := by
  rcases p with b | ⟨_, _ | _⟩ | ⟨_, _ | _⟩ | ⟨_, _ | _⟩ | ⟨_, _ | _⟩ | ⟨_, _ | _⟩ | _ | _ | _ | _ <;> rfl

theorem iterators_pendingStmt (p : PendingStmt) : (r.pendingStmt p).iterators = p.iterators.map r.ident := by
  cases p with
  | foreachLoop _ phase =>
    cases phase with
    | body key => cases key <;> rfl
    | _ => rfl
  | _ => rfl

theorem flowTarget?_pendingStmts (stmts : List PendingStmt) (kind : FlowKind) :
    Session.flowTarget? (stmts.map r.pendingStmt) kind = (Session.flowTarget? stmts kind).map r.flowTarget := by
  have h : PendingStmt.flowTarget? ∘ r.pendingStmt = fun p => p.flowTarget?.map r.flowTarget :=
    funext flowTarget?_pendingStmt
  simp only [Session.flowTarget?, List.filterMap_map, h, ← List.map_filterMap, List.find?_map]
  rfl

theorem argumentProblem?_expr (n : Node) (keyword : CallKeyword) (argument : Option Expr) :
    Session.argumentProblem? (r.node n) keyword (r.expr? argument) =
      (Session.argumentProblem? n keyword argument).map fun q => (q.1, r.loc q.2) := by
  cases keyword <;> cases argument <;> simp [Session.argumentProblem?, expr?, Recast.node, loc_expr]

theorem isOperator_pendingExpr (p : PendingExpr) : (r.pendingExpr p).isOperator = p.isOperator := by
  cases p <;> rfl

theorem isLead_pendingExpr (p : PendingExpr) : (r.pendingExpr p).isLead = p.isLead := by
  cases p <;> rfl

theorem refusesCallee_pendingExpr (p : PendingExpr) : (r.pendingExpr p).refusesCallee = p.refusesCallee := by
  cases p <;> rfl

theorem complaint_pendingExpr (p : PendingExpr) : (r.pendingExpr p).complaint = p.complaint := by
  cases p <;> rfl

theorem bindsBefore_pendingExpr (op : Operator) (p : PendingExpr) :
    ExprState.bindsBefore op (r.pendingExpr p) = ExprState.bindsBefore op p := by
  cases p <;> rfl

theorem complete?_pendingExpr (p : PendingExpr) (id : Nat) (e : Expr) :
    (r.pendingExpr p).complete? (r.id id) (r.expr e) = (p.complete? id e).map r.expr := by
  cases p <;> simp [pendingExpr, PendingExpr.complete?, expr, Recast.node, loc_expr]

theorem calleeAllowed_exprState (x : ExprState) : (r.exprState x).calleeAllowed = x.calleeAllowed := by
  obtain ⟨context, started, stack, slot⟩ := x
  cases stack <;> cases slot <;> simp [ExprState.calleeAllowed, exprState, refusesCallee_pendingExpr, expr?]

theorem topIsLead_exprState (x : ExprState) : (r.exprState x).topIsLead = x.topIsLead := by
  obtain ⟨context, started, stack, slot⟩ := x
  cases stack <;> simp [ExprState.topIsLead, exprState, isLead_pendingExpr]

theorem operandAllowed_exprState (x : ExprState) : (r.exprState x).operandAllowed = x.operandAllowed := by
  rw [ExprState.operandAllowed, calleeAllowed_exprState, topIsLead_exprState, ExprState.operandAllowed]

theorem foldStack_pendingExpr {p : PendingExpr → Bool} (hp : ∀ top, p (r.pendingExpr top) = p top)
    (stack : List PendingExpr) (e : Expr) (id : Nat) :
    ExprState.foldStack p (stack.map r.pendingExpr) (r.expr e) (r.id id) =
      (ExprState.foldStack p stack e id).map fun q => (q.1.map r.pendingExpr, r.expr q.2.1, r.id q.2.2) := by
  induction stack generalizing e id with
  | nil => rfl
  | cons top rest ih =>
    simp only [List.map_cons, ExprState.foldStack, hp, complete?_pendingExpr]
    split
    · cases top.complete? id e with
      | none => rfl
      | some whole => exact ih whole (id + 1)
    · rfl

theorem callTarget?_expr (e : Expr) : Session.callTarget? (r.expr e) = (Session.callTarget? e).map r.target := by
  cases e <;> rfl

theorem openCall_exprState (x : ExprState) (loc : Location) (callee : Callee) : r.exprState (Session.openCall x loc callee) =
    Session.openCall (r.exprState x) (r.loc loc) (r.callee callee) := by
  obtain ⟨context, started, stack, slot⟩ := x
  rcases stack with _ | ⟨top, rest⟩
  · rfl
  · cases top <;> rfl

theorem close_exprState (x : ExprState) (e : Expr) : r.exprState (x.close e) = (r.exprState x).close (r.expr e) := by
  simp only [ExprState.close, exprState, List.map_tail, expr?]

theorem sealCall_expr (n : Node) (l : CallLead) (callee : Callee) (args : List Expr) :
    r.expr (Session.sealCall n l callee args) =
      Session.sealCall (r.node n) (r.lead l) (r.callee callee) (r.exprs args) := by
  cases callee <;> rfl

theorem exprs_append (es : List Expr) (e : Option Expr) :
    r.exprs (es ++ e.toList) = r.exprs es ++ (r.expr? e).toList := by
  cases e <;> simp

theorem nextForPhase_expr (clause : ForClause) (first condition e : Option Expr) :
    r.forPhase (Session.nextForPhase clause first condition e) =
      Session.nextForPhase clause (r.expr? first) (r.expr? condition) (r.expr? e) := by
  cases clause <;> rfl

theorem isFailed_completed (completed : Completed) : (r.completed completed).isFailed = completed.isFailed := by
  cases completed <;> rfl

theorem value?_completed (completed : Completed) : (r.completed completed).value? = r.expr? completed.value? := by
  cases completed <;> rfl

end Recast

namespace Guise

variable (g : Guise)

theorem sameWord_word (a b : String) : sameWord (g.word a) (g.word b) = sameWord a b := by
  rw [Bool.eq_iff_iff, sameWord_iff, sameWord_iff, g.lower, g.lower]

theorem sameWord_left (a b : String) : sameWord (g.word a) b = sameWord a b := by
  rw [Bool.eq_iff_iff, sameWord_iff, sameWord_iff, g.lower]

theorem same_ident (a b : Ident) : (g.ident a).same (g.ident b) = a.same b :=
  g.sameWord_word a.name b.name

theorem keyword?_token (t : Token) (mode : GameMode) : (g.token t).keyword? mode = t.keyword? mode := by
  unfold Token.keyword? Recast.token
  split
  · exact Keyword.ofWord?_lower (g.lower t.text) mode
  · rfl

theorem directive_word (w : String) : DirectiveName.ofWord? (g.word w) = DirectiveName.ofWord? w :=
  DirectiveName.ofWord?_lower (g.lower w)

def paramProblem : Problem → Problem
  | .duplicateParam name => .duplicateParam (g.word name)
  | p => g.problem p

theorem paramProblem?_param (params : List Param) (p : Param) :
    Session.paramProblem? (params.map g.param) (g.param p) =
      (Session.paramProblem? params p).map fun q => (g.paramProblem q.1, g.loc q.2) := by
  have hrepeated (name : Ident) :
      (params.map g.param).any (fun q => (q.name.map fun n => n.same (g.ident name)).getD false) =
        params.any fun q => (q.name.map fun n => n.same name).getD false := by
    rw [List.any_map]
    refine congrArg _ (funext fun q => ?_)
    simp only [Function.comp_apply, Recast.param, Option.map_map, Function.comp_def, same_ident]
  have hvariadic : (params.map g.param).any (fun q => q.modifiers.variadic) = params.any fun q => q.modifiers.variadic :=
    List.any_map
  have hoptional : (params.map g.param).any (fun q => q.modifiers.optional) = params.any fun q => q.modifiers.optional :=
    List.any_map
  obtain ⟨loc, name, modifiers⟩ := p
  have hmodifiers (name : Option Ident) : (g.param ⟨loc, name, modifiers⟩).modifiers = modifiers := rfl
  cases name with
  | none =>
    simp only [Session.paramProblem?, Recast.param, Option.map_none, Option.filter_none, hvariadic, hoptional]
    grind [paramProblem, Recast.problem]
  | some name =>
    simp only [Session.paramProblem?, Recast.param, Option.map_some, Option.filter_some, hrepeated, hvariadic, hoptional]
    grind [paramProblem, Recast.problem, Recast.ident]

theorem bindsIterator_pendingStmt (stmts : List PendingStmt) (name : Ident) :
    Session.bindsIterator (stmts.map g.pendingStmt) (g.ident name) = Session.bindsIterator stmts name := by
  simp only [Session.bindsIterator, List.any_map, Function.comp_def, Recast.iterators_pendingStmt, same_ident]

end Guise

namespace Fold

/-- The second evaluation has the value of the first one. Where nothing else is known to it, it also fails when the first
one does. -/
structure Follows {α : Type} (alone exact : Prop) (a b : Except FoldError α) : Prop where
  ok : ∀ v, a = .ok v → b = .ok v
  error : alone → ∀ e, a = .error e → ∃ e', b = .error e' ∧ (exact → e' = e)

namespace Follows

variable {α β : Type} {alone exact : Prop} {a b : Except FoldError α}

theorem refl (a : Except FoldError α) : Follows alone exact a a :=
  ⟨fun _ h => h, fun _ e h => ⟨e, h, fun _ => rfl⟩⟩

theorem failure {e e' : FoldError} (h : exact → e' = e) :
    Follows alone exact (.error e : Except FoldError α) (.error e') := by
  refine ⟨fun _ hv => (nomatch hv), fun _ e₁ h₁ => ⟨e', rfl, fun he => ?_⟩⟩
  cases h₁
  exact h he

theorem bind {f f' : α → Except FoldError β} (h : Follows alone exact a b)
    (hf : ∀ v, Follows alone exact (f v) (f' v)) : Follows alone exact (a.bind f) (b.bind f') := by
  cases a with
  | error e =>
    refine ⟨fun _ hw => (nomatch hw), fun ha e₁ h₁ => ?_⟩
    obtain ⟨e', rfl, he⟩ := h.error ha e rfl
    cases h₁
    exact ⟨e', rfl, he⟩
  | ok v =>
    rw [h.ok v rfl]
    exact hf v

theorem succeeds (h : Follows alone exact a b) (ha : alone ∨ ∃ v, a = .ok v) : succeeds b = succeeds a := by
  cases a with
  | ok v => rw [h.ok v rfl]
  | error e =>
    obtain ha | ⟨v, hv⟩ := ha
    · obtain ⟨e', rfl, -⟩ := h.error ha e rfl
      rfl
    · cases hv

end Follows

end Fold

namespace Guise

open Fold (Follows evaluate noteRead reachesRight)

variable {g : Guise} {lookup lookup' : String → Option Value} {alone : Prop}

structure Knows (g : Guise) (alone : Prop) (lookup lookup' : String → Option Value) : Prop where
  some : ∀ n v, lookup n = some v → lookup' (g.word n) = some v
  none : alone → ∀ n, lookup n = none → lookup' (g.word n) = none

theorem evaluate_literal (n : Node) (l : Literal) :
    Follows alone g.exact (evaluate lookup (.literal n l)) (evaluate lookup' (.literal (g.node n) (g.literal l))) := by
  by_cases he : g.exact
  · rw [Recast.literal_labelling (g.words he)]
    exact .refl _
  obtain ⟨kind, raw, folded⟩ := l
  cases kind with
  | bool =>
    simp only [evaluate, Literal.value, Recast.literal, LiteralKind.isWord, if_true, Value.decode, g.sameWord_left]
    by_cases ht : sameWord raw Keyword.trueKw.spelling = true
    · simp only [ht, if_true]
      exact .refl _
    by_cases hf : sameWord raw Keyword.falseKw.spelling = true
    · simp only [ht, hf, if_true]
      exact .refl _
    · simp only [ht, hf]
      exact .failure fun h => absurd h he
  | _ => exact .refl _

theorem evaluate_expr (hk : g.Knows alone lookup lookup') :
    ∀ e : Expr, Follows alone g.exact (evaluate lookup e) (evaluate lookup' (g.expr e))
  | .literal n l => evaluate_literal n l
  | .var _ name => by
    simp only [evaluate, Recast.expr, Recast.ident]
    cases hn : lookup name.name with
    | some v =>
      rw [hk.some _ _ hn]
      exact .refl _
    | none =>
      constructor
      · intro _ hv
        cases hv
      · intro ha e he
        cases he
        rw [hk.none ha _ hn]
        exact ⟨_, rfl, fun he => by rw [g.words he]⟩
  | .group _ inner => evaluate_expr hk inner
  | .truple _ x y z =>
    ((evaluate_expr hk x).bind fun _ => .refl _).bind fun _ =>
      ((evaluate_expr hk y).bind fun _ => .refl _).bind fun _ =>
        ((evaluate_expr hk z).bind fun _ => .refl _).bind fun _ => .refl _
  | .unary _ op operand => (evaluate_expr hk operand).bind fun _ => .refl _
  | .binary _ op left right => by
    simp only [evaluate, Recast.expr]
    split
    · refine ((evaluate_expr hk left).bind fun _ => .refl _).bind fun l => ?_
      split
      · exact .refl _
      · exact ((evaluate_expr hk right).bind fun _ => .refl _).bind fun _ => .refl _
    · exact (evaluate_expr hk left).bind fun _ => (evaluate_expr hk right).bind fun _ => .refl _
  | .func n target => .failure fun he => by rw [Recast.text_expr (g.words he) (.func n target)]
  | .index n target index => .failure fun he => by rw [Recast.text_expr (g.words he) (.index n target index)]
  | .member n target name => .failure fun he => by rw [Recast.text_expr (g.words he) (.member n target name)]
  | .suffix n op operand => .failure fun he => by rw [Recast.text_expr (g.words he) (.suffix n op operand)]
  | .array n items => .failure fun he => by rw [Recast.text_expr (g.words he) (.array n items)]
  | .assign n op target value => .failure fun he => by rw [Recast.text_expr (g.words he) (.assign n op target value)]
  | .call n receiver modifier target args =>
    .failure fun he => by rw [Recast.text_expr (g.words he) (.call n receiver modifier target args)]
  | .pointerCall n receiver modifier target args =>
    .failure fun he => by rw [Recast.text_expr (g.words he) (.pointerCall n receiver modifier target args)]

def Settles {α : Type} (alone : Prop) (a : Except FoldError α) : Prop :=
  alone ∨ ∃ v, a = .ok v

theorem Settles.of_bind {α β : Type} {a : Except FoldError α} {f : α → Except FoldError β}
    (h : Settles alone (a.bind f)) : Settles alone a := by
  refine h.imp_right fun ⟨w, hw⟩ => ?_
  cases a with
  | error e => cases hw
  | ok v => exact ⟨v, rfl⟩

theorem Settles.behind {α β : Type} {a : Except FoldError α} {f : α → Except FoldError β}
    (h : Settles alone (a.bind f)) : alone ∨ ∃ v, a = .ok v ∧ Settles alone (f v) := by
  refine h.imp_right fun ⟨w, hw⟩ => ?_
  cases a with
  | error e => cases hw
  | ok v => exact ⟨v, rfl, .inr ⟨w, hw⟩⟩

theorem reachesRight_expr (hk : g.Knows alone lookup lookup') (op : Operator) {left : Expr}
    (h : Settles alone (evaluate lookup left)) :
    reachesRight lookup' op (g.expr left) = reachesRight lookup op left := by
  have hl := evaluate_expr hk left
  unfold reachesRight
  cases he : evaluate lookup left with
  | ok v => rw [hl.ok v he]
  | error e =>
    obtain ha | ⟨v, hv⟩ := h
    · obtain ⟨e', he', -⟩ := hl.error ha e he
      rw [he']
    · rw [he] at hv
      cases hv

theorem noteRead_expr (hk : g.Knows alone lookup lookup') :
    ∀ e : Expr, Settles alone (evaluate lookup e) → noteRead lookup' (g.expr e) = g.expr (noteRead lookup e)
  | .group _ inner, h => by
    simp only [Recast.expr, noteRead, noteRead_expr hk inner h]
  | .truple n x y z, h => by
    have hx := (evaluate_expr hk x).bind fun v => .refl (Fold.component v)
    have hy := (evaluate_expr hk y).bind fun v => .refl (Fold.component v)
    have sx : Settles alone ((evaluate lookup x).bind Fold.component) := h.of_bind
    have syz : Settles alone ((evaluate lookup y).bind Fold.component) ∧
        Settles alone ((evaluate lookup z).bind Fold.component) := by
      obtain ha | ⟨a, -, h₁⟩ := h.behind
      · exact ⟨.inl ha, .inl ha⟩
      obtain ha | ⟨b, -, h₂⟩ := h₁.behind
      · exact ⟨.inl ha, .inl ha⟩
      · exact ⟨h₁.of_bind, h₂.of_bind⟩
    simp only [Recast.expr, noteRead, hx.succeeds sx, hy.succeeds syz.1, noteRead_expr hk x sx.of_bind,
      noteRead_expr hk y syz.1.of_bind, noteRead_expr hk z syz.2.of_bind, apply_ite g.expr]
  | .unary _ op operand, h => by
    simp only [Recast.expr, noteRead, noteRead_expr hk operand h.of_bind]
  | .binary _ op left right, h => by
    have hl : Settles alone (evaluate lookup left) := by
      unfold evaluate at h
      split at h
      · exact h.of_bind.of_bind
      · exact h.of_bind
    -- The right operand is noted only where the evaluation comes to it.
    have hr : reachesRight lookup op left = true → Settles alone (evaluate lookup right) := by
      intro hreach
      unfold reachesRight at hreach
      unfold evaluate at h
      split at hreach
      · cases hreach
      · next v hv =>
        split at h
        · next hlogical =>
          rw [if_pos hlogical] at hreach
          rw [hv] at h
          obtain ha | ⟨l, hl, h₁⟩ := h.behind
          · exact .inl ha
          · rw [show Fold.condition op v = .ok l from hl] at hreach
            have hd : Fold.decidedBy op l = false := by simpa using hreach
            simp only [hd] at h₁
            exact h₁.of_bind.of_bind
        · obtain ha | ⟨l, -, h₁⟩ := h.behind
          · exact .inl ha
          · exact h₁.of_bind
    simp only [Recast.expr, noteRead, noteRead_expr hk left hl, reachesRight_expr hk op hl]
    split
    · next hreach => rw [noteRead_expr hk right (hr hreach)]
    · rfl
  | .literal .., _ | .var .., _ | .func .., _ | .index .., _ | .member .., _ | .suffix .., _ | .array .., _
  | .assign .., _ | .call .., _ | .pointerCall .., _ => rfl

end Guise

end GameScript
