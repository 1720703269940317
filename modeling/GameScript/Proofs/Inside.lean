import GameScript.Proofs.Display
import GameScript.Proofs.Formed
import GameScript.Proofs.Shifting
import GameScript.Tree.Relabel

namespace GameScript

namespace Expr

def Alike (e f : Expr) : Prop :=
  Relabel.blank.expr e = Relabel.blank.expr f

theorem Alike.eq {e f : Expr} (h : e.Alike f) : Relabel.blank.expr e = Relabel.blank.expr f := h

theorem Alike.of_relabel {α : Type} {g : Expr → α} (hg : ∀ e, g (Relabel.blank.expr e) = g e) {e f : Expr}
    (h : e.Alike f) : g e = g f := by
  rw [← hg e, ← hg f, h]

theorem Alike.isAssignable {e f : Expr} (h : e.Alike f) : e.isAssignable = f.isAssignable :=
  h.of_relabel fun e => by cases e <;> rfl

end Expr

/-- Joining the operators with the operand gives the expression, whatever numbers it gets. -/
inductive Yields : List PendingExpr → Expr → Expr → Prop
  | slot {e' e : Expr} (h : e'.Alike e) : Yields [] e' e
  | join {top : PendingExpr} {above : List PendingExpr} {operand e : Expr} (ho : top.isOperator = true)
      (h : ∀ id e', top.complete? id operand = some e' → Yields above e' e) : Yields (top :: above) operand e

namespace Yields

variable {above base : List PendingExpr} {operand e f : Expr}

theorem isOperator (h : Yields above operand e) : ∀ p ∈ above, p.isOperator = true := by
  induction h with
  | slot => simp
  | @join top above operand e ho _ ih =>
    obtain ⟨e', he⟩ := complete?_isSome ho 0 operand
    exact List.forall_mem_cons.2 ⟨ho, ih 0 e' he⟩

theorem alike (h : Yields above operand e) (hn : above = []) : operand.Alike e := by
  cases h with
  | slot h => exact h
  | join => cases hn

theorem snoc (h : Yields above operand e) {op : PendingExpr} (ho : op.isOperator = true)
    (hf : ∀ id e', e'.Alike e → ∀ f', op.complete? id e' = some f' → f'.Alike f) :
    Yields (above ++ [op]) operand f := by
  induction h with
  | slot h => exact .join ho fun id f' hc => .slot (hf id _ h f' hc)
  | join ho' _ ih => exact .join ho' fun id e' hc => ih id e' hc hf

theorem folds {p : PendingExpr → Bool} (h : Yields above operand e) (hp : ∀ q ∈ above, p q = true)
    (hb : ∀ q ∈ base.head?, p q = false) (context : ExprContext) (started : Bool) (id : Nat) :
    ∃ id' e', Folds p id ⟨context, started, above ++ base, some operand⟩ id' ⟨context, started, base, some e'⟩ ∧
      e'.Alike e := by
  induction h generalizing id with
  | slot h => exact ⟨id, _, .done hb, h⟩
  | @join top above operand e ho _ ih =>
    obtain ⟨htop, hrest⟩ := List.forall_mem_cons.1 hp
    obtain ⟨e', he⟩ := complete?_isSome ho id operand
    obtain ⟨id', f, hf, ha⟩ := ih id e' he hrest (id + 1)
    exact ⟨id', f, .join htop he hf, ha⟩

end Yields

/-- An operator to the right of the expression is above the pending one only when it has to be. -/
def Joins (e : Expr) (p : PendingExpr) : Prop :=
  ¬ e.isPrimary ∧ ∀ op, e.BindsLeftOf op → ExprState.bindsBefore op p = true

def Holds (context : ExprContext) (stack : List PendingExpr) (e : Expr) (z : ExprState) : Prop :=
  ∃ e', z = ⟨context, true, stack, some e'⟩ ∧ e'.Alike e

def Leaves (context : ExprContext) (stack : List PendingExpr) (e : Expr) (z : ExprState) : Prop :=
  ∃ above operand, z = ⟨context, true, above ++ stack, some operand⟩ ∧ Yields above operand e ∧
    ∀ p ∈ above, Joins e p

section Leaving

variable {context : ExprContext} {stack : List PendingExpr} {e : Expr} {z : ExprState}

theorem Holds.leaves (h : Holds context stack e z) : Leaves context stack e z := by
  obtain ⟨e', rfl, ha⟩ := h
  exact ⟨[], e', rfl, .slot ha, by simp⟩

theorem Leaves.holds (h : Leaves context stack e z) (he : e.isPrimary) : Holds context stack e z := by
  obtain ⟨above, operand, rfl, hy, hj⟩ := h
  have hnil : above = [] := List.eq_nil_iff_forall_not_mem.2 fun p hp => (hj p hp).1 he
  subst hnil
  exact ⟨operand, rfl, hy.alike rfl⟩

theorem Leaves.folds (h : Leaves context stack e z) (hs : ∀ top ∈ stack.head?, top.isOperator = false) (id : Nat) :
    ∃ id' y, Folds PendingExpr.isOperator id z id' y ∧ Holds context stack e y := by
  obtain ⟨above, operand, rfl, hy, -⟩ := h
  obtain ⟨id', e', hf, ha⟩ := hy.folds hy.isOperator hs context true id
  exact ⟨id', _, hf, e', rfl, ha⟩

theorem Leaves.bindsBefore {op : Operator} (h : Leaves context stack e z) (he : e.BindsLeftOf op)
    (hs : ∀ top ∈ stack.head?, ExprState.bindsBefore op top = false) (id : Nat) :
    ∃ id' y, Folds (ExprState.bindsBefore op) id z id' y ∧ Holds context stack e y := by
  obtain ⟨above, operand, rfl, hy, hj⟩ := h
  obtain ⟨id', e', hf, ha⟩ := hy.folds (fun p hp => (hj p hp).2 op he) hs context true id
  exact ⟨id', _, hf, e', rfl, ha⟩

theorem Leaves.slot_isSome (h : Leaves context stack e z) : z.slot.isSome = true := by
  obtain ⟨_, _, rfl, -⟩ := h
  rfl

theorem Leaves.under {op : PendingExpr} {f : Expr} (h : Leaves context (op :: stack) e z) (ho : op.isOperator = true)
    (hf : ∀ id e', e'.Alike e → ∀ f', op.complete? id e' = some f' → f'.Alike f) (hn : ¬ f.isPrimary)
    (hb : ∀ op', f.BindsLeftOf op' → e.BindsLeftOf op' ∧ ExprState.bindsBefore op' op = true) :
    Leaves context stack f z := by
  obtain ⟨above, operand, rfl, hy, hj⟩ := h
  refine ⟨above ++ [op], operand, by simp, hy.snoc ho hf, fun p hp => ⟨hn, fun op' hop => ?_⟩⟩
  obtain hp | hp := List.mem_append.1 hp
  · exact (hj p hp).2 op' (hb op' hop).1
  · obtain rfl := List.mem_singleton.1 hp
    exact (hb op' hop).2

end Leaving

namespace Session

structure Inside (b s : Session) (x : ExprState) (ps : List Piece) : Prop where
  same : s = { b with stream := s.stream, nextId := s.nextId, expr := some x }
  closed : s.stream.Closed
  shows : s.stream.Shows ps
  settled : x.Settled

structure Active (b : Session) : Prop where
  finished : b.isFinished = false
  recovery : b.recovery = none

def Comes (b s : Session) (ps : List Piece) (P : ExprState → Prop) : Prop :=
  ∃ s' x, s.Reaches s' ∧ b.Inside s' x ps ∧ P x

section Coming

variable {b s : Session} {x : ExprState} {apart : Bool} {ps : List Piece} {P Q : ExprState → Prop}

theorem Inside.comes (h : b.Inside s x ps) (hp : P x) : b.Comes s ps P :=
  ⟨s, x, .refl s, h, hp⟩

theorem Comes.trans {ps' : List Piece} (h : b.Comes s ps P)
    (hs : ∀ s' x, P x → b.Inside s' x ps → b.Comes s' ps' Q) : b.Comes s ps' Q := by
  obtain ⟨s', x, hr, hin, hp⟩ := h
  obtain ⟨s'', y, hr', hin', hq⟩ := hs s' x hp hin
  exact ⟨s'', y, hr.trans hr', hin', hq⟩

theorem Comes.imp (h : b.Comes s ps P) (hi : ∀ x, P x → Q x) : b.Comes s ps Q := by
  obtain ⟨s', x, hr, hin, hp⟩ := h
  exact ⟨s', x, hr, hin, hi x hp⟩

theorem dispatch_of_expr (hr : s.recovery = none) (hx : s.expr = some x) (t : Token) :
    s.dispatch t = s.feedExpr t := by
  simp [dispatch, hr, hx]

theorem feedExpr_of_consumed {s' : Session} {t : Token} (hx : s.expr = some x)
    (h : s.exprToken x t = (s', .consumed)) : s.feedExpr t = s' := by
  simp only [feedExpr, hx, h]

theorem Inside.shift {t : Token} (more : List Token) (hb : b.Active)
    (h : b.Inside s x ((apart, t) :: (more.map (fun u => (false, u)) ++ ps)))
    (hbracket : t.isSymbol '[' = true → more = [] → (joined ps).head? ≠ some '[')
    (hcalm : x.slot.isSome = true → ∀ c ∈ Operator.spellingChars, t.isSymbol c = true → Calm ps)
    (hs : ∀ loc id, ∃ id' y, Shift b.config id x (⟨t.kind, t.text, loc⟩ :: more) id' y ∧
      P { y with started := true }) : b.Comes s ps P := by
  have hfinished : s.isFinished = false := by
    rw [h.same]
    exact hb.finished
  have hrecovery : s.recovery = none := by
    rw [h.same]
    exact hb.recovery
  have hexpr : s.expr = some x := by rw [h.same]
  have hconfig : s.config = b.config := by rw [h.same]
  obtain ⟨u, stream, hsame, hdel, hreach⟩ := reaches_dispatch hfinished h.closed h.shows
  obtain ⟨id, y, hshift, hy⟩ := hs u.loc s.nextId
  have hu : (⟨t.kind, t.text, u.loc⟩ : Token) = u := by rw [← hsame.1, ← hsame.2]
  rw [hu] at hshift
  have hsymbol (c : Char) : u.isSymbol c = t.isSymbol c := by simp [Token.isSymbol, hsame.symbol?]
  have hmake := exprToken_of_shift (s := { s with stream := stream }) hdel.closed h.settled
    (hconfig ▸ hshift) hdel.behind (by rwa [hsymbol]) (fun hx c hc => by rw [hsymbol]; exact hcalm hx c hc)
  obtain ⟨taken, stream', hn, htakes, hm⟩ := hmake
  have hdispatch := (dispatch_of_expr (s := { s with stream := stream }) hrecovery hexpr u).trans
    (feedExpr_of_consumed hexpr hm)
  have hset := hshift.settled h.settled
  rw [hdispatch] at hreach
  refine ⟨_, { y with started := true }, hreach, ⟨?_, htakes.closed hdel.closed, ⟨false, ?_⟩,
    ⟨hset.vacant, hset.below⟩⟩, hy⟩
  · rw [h.same]
  · exact htakes.behind hdel.behind (by simp) (by simp [hn])

theorem symbolPieces_cons (apart : Bool) (c : Char) (cs : List Char) : symbolPieces apart (c :: cs) =
    symbolPiece apart c :: (cs.map fun c => (symbolPiece false c).2).map fun u => (false, u) := by
  rw [symbolPieces]
  congr 1
  induction cs with
  | nil => rfl
  | cons c cs ih => rw [symbolPieces, ih]; rfl

theorem symbol?_piece (apart : Bool) (c : Char) : (symbolPiece apart c).2.symbol? = some c := by
  simp [symbolPiece, Token.symbol?]

theorem isSymbol_piece (apart : Bool) {c d : Char} : (symbolPiece apart c).2.isSymbol d = true ↔ c = d := by
  rw [Token.isSymbol_iff, symbol?_piece, Option.some.injEq]

theorem Inside.symbols {c : Char} {cs : List Char} (hb : b.Active)
    (h : b.Inside s x (symbolPieces apart (c :: cs) ++ ps))
    (hbracket : c = '[' → cs = [] → (joined ps).head? ≠ some '[')
    (hcalm : x.slot.isSome = true → c ∈ Operator.spellingChars → Calm ps)
    (hs : ∀ t more id, Token.Spell (t :: more) (String.ofList (c :: cs)) →
      ∃ id' y, Shift b.config id x (t :: more) id' y ∧ P { y with started := true }) : b.Comes s ps P := by
  rw [symbolPieces_cons] at h
  refine Inside.shift (cs.map fun c => (symbolPiece false c).2) hb h ?_ ?_ fun loc id => hs _ _ id ?_
  · intro hc hcs
    exact hbracket ((isSymbol_piece apart).1 hc) (by simpa using hcs)
  · intro hx d hd hc
    obtain rfl := (isSymbol_piece apart).1 hc
    exact hcalm hx hd
  · simp [Token.Spell, Token.symbol?, symbolPiece, Function.comp_def]

theorem Inside.operator {op : Operator} (hb : b.Active)
    (h : b.Inside s x (symbolPieces apart op.spelling.toList ++ ps)) (hcalm : x.slot.isSome = true → Calm ps)
    (hs : ∀ ts id, Token.Spell ts op.spelling → ∃ id' y, Shift b.config id x ts id' y ∧ P { y with started := true }) :
    b.Comes s ps P := by
  obtain ⟨c, cs, hop⟩ := List.exists_cons_of_ne_nil op.spelling_chars.2.2
  rw [hop] at h
  refine h.symbols hb ?_ (fun hx _ => hcalm hx) fun t more id hspell => hs _ id ?_
  · rintro rfl
    have := spelling_chars op '[' (by simp [hop])
    simp [Operator.spellingChars] at this
  · rwa [Token.Spell, hop, ← String.toList_ofList (l := c :: cs)]

theorem Inside.pair {c : Char} (text : String) (hb : b.Active) (h : b.Inside s x (symbolPieces apart [c, c] ++ ps))
    (hc : c ∉ Operator.spellingChars) (ht : text.toList = [c, c])
    (hs : ∀ t u id, Token.Spell [t, u] text →
      ∃ id' y, Shift b.config id x [t, u] id' y ∧ P { y with started := true }) : b.Comes s ps P := by
  refine h.symbols hb (by simp) (fun _ hop => absurd hop hc) fun t more id hspell => ?_
  rw [Token.Spell, String.toList_ofList, List.map_cons] at hspell
  obtain ⟨u, rfl, hu⟩ := List.map_eq_singleton_iff.1 (List.cons.inj hspell).2
  refine hs t u id ?_
  rw [Token.Spell, ht, List.map_cons, List.map_singleton, (List.cons.inj hspell).1, hu]
  rfl

theorem Inside.symbol {c : Char} (hb : b.Active) (h : b.Inside s x (symbolPiece apart c :: ps))
    (hc : c ∉ Operator.spellingChars) (hbracket : c = '[' → (joined ps).head? ≠ some '[')
    (hs : ∀ t id, t.isSymbol c = true → ∃ id' y, Shift b.config id x [t] id' y ∧ P { y with started := true }) :
    b.Comes s ps P := by
  refine Inside.shift [] hb h ?_ ?_ fun loc id => hs _ id ?_
  · exact fun hd _ => hbracket ((isSymbol_piece apart).1 hd)
  · intro _ d hd hcd
    obtain rfl := (isSymbol_piece apart).1 hcd
    exact absurd hd hc
  · exact (isSymbol_piece apart).2 rfl

theorem Inside.token {kind : TokenKind} {text : String} {loc : Location} (hb : b.Active)
    (h : b.Inside s x ((apart, ⟨kind, text, loc⟩) :: ps))
    (hk : kind ≠ .symbol) (hs : ∀ t id, t.kind = kind → t.text = text →
      ∃ id' y, Shift b.config id x [t] id' y ∧ P { y with started := true }) : b.Comes s ps P := by
  have hno (c : Char) : (⟨kind, text, loc⟩ : Token).isSymbol c = false := by simp [Token.isSymbol, Token.symbol?, hk]
  refine Inside.shift [] hb h ?_ ?_ fun loc id => hs _ id rfl rfl
  · simp [hno]
  · simp [hno]

end Coming

end Session

end GameScript
