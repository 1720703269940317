import GameScript.Proofs.Precedence

namespace GameScript

namespace Expr

def Literals (P : Literal → Prop) (e : Expr) : Prop :=
  (View.expr e).Everywhere fun v => ∀ node l, v = .expr (.literal node l) → P l

variable {P : Literal → Prop} {e : Expr}

theorem literals_iff : e.Literals P ↔ (∀ node l, e = .literal node l → P l) ∧ ∀ c ∈ e.children, c.Literals P := by
  unfold Literals
  rw [View.everywhere_expr]
  simp only [View.expr.injEq]

theorem literals_literal {node : Node} {l : Literal} : (literal node l).Literals P ↔ P l := by
  rw [literals_iff]
  simp [children]

theorem Literals.mono {Q : Literal → Prop} (h : e.Literals P) (hQ : ∀ l, P l → Q l) : e.Literals Q :=
  fun v hv node l hl => hQ l (h v hv node l hl)

theorem literals_of_children (h : ∀ node l, e ≠ .literal node l) (hc : ∀ c ∈ e.children, c.Literals P) :
    e.Literals P :=
  literals_iff.2 ⟨fun node l he => (h node l he).elim, hc⟩

end Expr

structure ExprState.Literals (P : Literal → Prop) (x : ExprState) : Prop where
  stack : ∀ p ∈ x.stack, ∀ e ∈ p.parts, e.Literals P
  slot : ∀ e ∈ x.slot, e.Literals P

section Reading

variable {P : Literal → Prop} {config : ParserConfig} {id id' : Nat} {x y : ExprState}

namespace ExprState.Literals

theorem top (h : x.Literals P) {top : PendingExpr} {rest : List PendingExpr} (hx : x.stack = top :: rest) :
    (∀ e ∈ top.parts, e.Literals P) ∧ ∀ p ∈ rest, ∀ e ∈ p.parts, e.Literals P :=
  List.forall_mem_cons.1 (hx ▸ h.stack)

theorem of_top {top : PendingExpr} {rest : List PendingExpr} (hx : x.stack = top :: rest)
    (ht : ∀ e ∈ top.parts, e.Literals P) (hr : ∀ p ∈ rest, ∀ e ∈ p.parts, e.Literals P)
    (hs : ∀ e ∈ x.slot, e.Literals P) : x.Literals P :=
  ⟨by rw [hx]; exact List.forall_mem_cons.2 ⟨ht, hr⟩, hs⟩

theorem openCall (h : x.Literals P) (loc : Location) (target : FunctionRef) :
    (Session.openCall x loc (.function target)).Literals P := by
  unfold Session.openCall
  split
  · next lead rest hx => exact .of_top rfl (by simpa [PendingExpr.parts] using (h.top hx).1) (h.top hx).2 (by simp)
  · exact .of_top rfl (by simp [PendingExpr.parts]) h.stack (by simp)

end ExprState.Literals

theorem PendingExpr.complete?_literals {p : PendingExpr} {operand e : Expr} (h : p.complete? id operand = some e)
    (hp : ∀ a ∈ p.parts, a.Literals P) (ho : operand.Literals P) : e.Literals P := by
  cases p with
  | binary op left | assign op left =>
    simp only [complete?, Option.some.injEq] at h
    subst h
    exact Expr.literals_of_children (by simp) (by simpa [Expr.children, parts, ho] using hp)
  | unary =>
    simp only [complete?, Option.some.injEq] at h
    subst h
    exact Expr.literals_of_children (by simp) (by simpa [Expr.children] using ho)
  | _ => simp [complete?] at h

theorem Folds.literals {p : PendingExpr → Bool} (h : Folds p id x id' y) (hx : x.Literals P) : y.Literals P := by
  induction h with
  | done => exact hx
  | join _ he _ ih =>
    obtain ⟨ht, hr⟩ := hx.top rfl
    refine ih ⟨hr, ?_⟩
    rintro _ ⟨⟩
    exact PendingExpr.complete?_literals he ht (hx.slot _ rfl)

namespace ExprState.Literals

theorem close (h : x.Literals P) {top : PendingExpr} {rest : List PendingExpr} {e : Expr}
    (hx : x.stack = top :: rest) (hn : ∀ node l, e ≠ .literal node l) (hc : ∀ c ∈ e.children, c.Literals P) :
    (x.close e).Literals P := by
  refine ⟨?_, ?_⟩
  · simpa [ExprState.close, hx] using (h.top hx).2
  · rintro _ ⟨⟩
    exact Expr.literals_of_children hn hc

theorem push (h : x.Literals P) {top : PendingExpr} (ht : ∀ e ∈ top.parts, e.Literals P) : (x.push top).Literals P :=
  .of_top rfl ht h.stack (by simp [ExprState.push])

end ExprState.Literals

theorem Shift.literals {ts : List Token} (h : Shift config id x ts id' y) (hx : x.Literals P)
    (ht : ∀ t ∈ ts, ∀ kind, t.literalKind? config.dialect.mode = some kind → P ⟨kind, t.text, false⟩) :
    y.Literals P := by
  have hname (node : Node) (name : Ident) : (Expr.var node name).Literals P :=
    Expr.literals_of_children (by simp) (by simp [Expr.children])
  cases h with
  | literal _ hk => exact ⟨hx.stack, by rintro _ ⟨⟩; exact Expr.literals_literal.2 (ht _ (by simp) _ hk)⟩
  | plainName => exact ⟨hx.stack, by rintro _ ⟨⟩; exact hname _ _⟩
  | receiver hs =>
    refine .of_top rfl ?_ hx.stack (by rintro _ ⟨⟩; exact hname _ _)
    simpa [PendingExpr.parts] using hx.slot _ hs
  | memberName hs => exact hx.close hs (by simp) (hx.top hs).1
  | functionName hs => exact hx.close hs (by simp) (by simp [Expr.children])
  | segment hs => exact .of_top rfl (by simp [PendingExpr.parts]) (hx.top hs).2 hx.slot
  | modifierBehind hs | pointerBehind hs => exact hx.push (by simpa [PendingExpr.parts] using hx.slot _ hs)
  | modifierInLead hn hs | pointerInLead hn hs => exact .of_top rfl (hx.top hs).1 (hx.top hs).2 hx.slot
  | openPointerArgs hs =>
    exact .of_top rfl (by simpa [PendingExpr.parts] using (hx.top hs).1) (hx.top hs).2 hx.slot
  | openArgs => exact hx.openCall _ _
  | backslash hn hs | qualifyPath hn hs => exact .of_top rfl (by simp [PendingExpr.parts]) (hx.top hs).2 hx.slot
  | modifier | openGroup | openPointer | openArray | firstBackslash | qualifyName | qualifyOwn | unary =>
    exact hx.push (by simp [PendingExpr.parts])
  | openIndex hs | point hs | assign hs => exact hx.push (by simpa [PendingExpr.parts] using hx.slot _ hs)
  | binary hf _ hs =>
    have hy := hf.literals hx
    exact hy.push (by simpa [PendingExpr.parts] using hy.slot _ hs)
  | suffix hs =>
    refine ⟨hx.stack, ?_⟩
    rintro _ ⟨⟩
    exact Expr.literals_of_children (by simp) (by simpa [Expr.children] using hx.slot _ hs)
  | closeGroup hf htop hs =>
    have hy := hf.literals hx
    exact hy.close htop (by simp) (by simpa [Expr.children] using hy.slot _ hs)
  | closeTruple hf htop hs =>
    have hy := hf.literals hx
    have hparts := (hy.top htop).1
    exact hy.close htop (by simp) (by simpa [Expr.children, PendingExpr.parts, hy.slot _ hs] using hparts)
  | closeIndex hf htop hs =>
    have hy := hf.literals hx
    have hparts := (hy.top htop).1
    exact hy.close htop (by simp) (by simpa [Expr.children, PendingExpr.parts, hy.slot _ hs] using hparts)
  | closeArray hf htop =>
    have hy := hf.literals hx
    have hparts := (hy.top htop).1
    have hslot := hy.slot
    refine hy.close htop (by simp) ?_
    simp only [Expr.children]
    grind [PendingExpr.parts]
  | @closeArgs _ _ _ _ _ _ callee _ _ hf htop =>
    have hy := hf.literals hx
    have hparts := (hy.top htop).1
    have hslot := hy.slot
    cases callee <;>
    · refine hy.close htop (by simp [Session.sealCall]) ?_
      simp only [Session.sealCall, Expr.children]
      grind [PendingExpr.parts]
  | nextItem hf htop hs | nextElement hf htop hs | closePointer hf htop hs =>
    have hy := hf.literals hx
    have hparts := (hy.top htop).1
    have hitem := hy.slot _ hs
    refine .of_top rfl ?_ (hy.top htop).2 (by simp)
    grind [PendingExpr.parts]
  | @nextArg _ _ _ _ _ _ callee _ _ _ hf htop hs =>
    have hy := hf.literals hx
    have hparts := (hy.top htop).1
    have harg := hy.slot _ hs
    refine .of_top rfl ?_ (hy.top htop).2 (by simp)
    cases callee <;> grind [PendingExpr.parts]

theorem Truncates.literals (h : Truncates id x id' y) (hx : x.Literals P) : y.Literals P := by
  obtain ⟨z, loc, a, more, rest, item, hf, hz, -, -, rfl⟩ := h.folds
  have hy := hf.literals hx
  refine hy.close hz (by simp) ?_
  simpa [Expr.children] using (hy.top hz).1 a (by simp [PendingExpr.parts])

theorem Fold.literals_noteRead {lookup : String → Option Value} (hP : ∀ l, P l → P { l with folded := true }) {e : Expr}
    (h : e.Literals P) : (noteRead lookup e).Literals P := by
  obtain ⟨hl, hc⟩ := Expr.literals_iff.1 h
  refine Expr.literals_iff.2 ⟨fun node l hn => ?_, fun c hmem => ?_⟩
  · cases e <;> cases hn
    exact hP _ (hl _ _ rfl)
  · obtain ⟨c', hc', rfl | rfl⟩ := children_noteRead hmem
    · exact hc c hc'
    · exact literals_noteRead hP (hc c' hc')
termination_by sizeOf e
decreasing_by exact View.sizeOf_expr_child hc'

def Literal.IsToken (config : ParserConfig) (l : Literal) (t : Token) : Prop :=
  t.literalKind? config.dialect.mode = some l.kind ∧ t.text = l.raw

theorem Inherited.literals {T : Token → Prop} (hplaceholder : P ⟨.undefined, "undefined", false⟩)
    (hmark : ∀ l, P l → P { l with folded := true })
    (htoken : ∀ t, T t → ∀ kind, t.literalKind? config.dialect.mode = some kind → P ⟨kind, t.text, false⟩) :
    Inherited config (Expr.Literals P) (ExprState.Literals P) T where
  children _ h := (Expr.literals_iff.1 h).2
  placeholder _ := Expr.literals_literal.2 hplaceholder
  noteRead _ _ h := Fold.literals_noteRead hmark h
  fresh _ := ⟨by simp [Session.fresh], by simp [Session.fresh]⟩
  shift hx ht h :=
    have hy := h.literals hx fun t hmem => htoken t (ht t hmem)
    ⟨hy.stack, hy.slot⟩
  truncate hx h :=
    have hy := h.literals hx
    ⟨hy.stack, hy.slot⟩
  fold hx hf _ he := (hf.literals hx).slot _ he

theorem inherited_literals (config : ParserConfig) (tokens : List Token) :
    Inherited config (Expr.Literals fun l => l.kind = .undefined ∨ ∃ t ∈ tokens, l.IsToken config t)
      (ExprState.Literals fun l => l.kind = .undefined ∨ ∃ t ∈ tokens, l.IsToken config t) (· ∈ tokens) :=
  .literals (.inl rfl) (fun _ hl => hl) fun t ht _ hk => .inr ⟨t, ht, hk, rfl⟩

end Reading

theorem TokenStream.mem_closed {tokens : List Token} {t : Token} (h : t ∈ closed tokens) :
    t ∈ tokens ∨ t.isEof = true := by
  unfold closed at h
  split at h
  · exact .inr (by rw [List.mem_singleton.1 h]; rfl)
  split at h
  · exact .inl h
  · obtain h | h := List.mem_append.1 h
    · exact .inl h
    · exact .inr (by rw [List.mem_singleton.1 h]; rfl)

theorem parse_literals {tokens : List Token} {config : ParserConfig} {g : Graph}
    (h : (parse tokens config).graph = some g) {e : Expr} (he : View.expr e ∈ g.view.walk) :
    e.Literals fun l => l.kind = .undefined ∨ ∃ t ∈ tokens, l.IsToken config t := by
  have hg := parse_exprs (inherited_literals config (TokenStream.closed tokens)) (fun _ ht => ht) h _ he _ rfl
  refine hg.mono fun l => Or.imp_right ?_
  rintro ⟨t, ht, htoken⟩
  refine ⟨t, (TokenStream.mem_closed ht).resolve_right fun he => ?_, htoken⟩
  have hkind := htoken.1
  simp only [Token.isEof, beq_iff_eq] at he
  simp [Token.literalKind?, he] at hkind

end GameScript
