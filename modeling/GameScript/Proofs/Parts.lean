import GameScript.Proofs.Precedence
import Mathlib.Logic.Relation

/-!
What an expression under construction holds: for every unfinished part the place where it begins and its
expressions, the operand, and the place of a token that is read. Whatever a token does to them is a row of a few
small moves, so that a fact about all of them is proved for each move only. A token finds its place once.
-/

namespace GameScript

def PendingExpr.start : PendingExpr → Location
  | group loc _ | call loc .. | lead loc _ | pointerOpen loc _ | pointerReady loc .. | array loc _ | unary loc _
  | path loc .. | qualified loc _ => loc
  | index e | binary _ e | assign _ e | member e => e.loc

structure Held where
  next : Nat
  parts : List (Location × List Expr)
  operand : Option Expr
  /-- Where the token stands, until it is made use of. -/
  token : Option Location

def ExprState.held (x : ExprState) (next : Nat) (token : Option Location) : Held :=
  ⟨next, x.stack.map fun p => (p.start, p.parts), x.slot, token⟩

namespace Held

inductive Move : Held → Held → Prop
  | leaf {id : Nat} {parts : List (Location × List Expr)} {e : Expr} (hc : e.children = []) (hi : e.id = id) :
      Move ⟨id, parts, none, some e.loc⟩ ⟨id + 1, parts, some e, none⟩
  | opens {id : Nat} {loc : Location} {parts : List (Location × List Expr)} :
      Move ⟨id, parts, none, some loc⟩ ⟨id, (loc, []) :: parts, none, none⟩
  | passes {id : Nat} {loc : Location} {parts : List (Location × List Expr)} {operand : Option Expr} :
      Move ⟨id, parts, operand, some loc⟩ ⟨id, parts, operand, none⟩
  | holds {id : Nat} {parts : List (Location × List Expr)} {e : Expr} {token : Option Location} :
      Move ⟨id, parts, some e, token⟩ ⟨id, (e.loc, [e]) :: parts, none, token⟩
  | takes {id : Nat} {l : Location} {es : List Expr} {parts : List (Location × List Expr)} {e : Expr}
      {token : Option Location} :
      Move ⟨id, (l, es) :: parts, some e, token⟩ ⟨id, (l, es ++ [e]) :: parts, none, token⟩
  | closes {id : Nat} {parts : List (Location × List Expr)} {e : Expr} {token : Option Location} (hi : e.id = id) :
      Move ⟨id, (e.loc, e.children) :: parts, none, token⟩ ⟨id + 1, parts, some e, token⟩
  | drops {id : Nat} {parts : List (Location × List Expr)} {operand : Option Expr} {token : Option Location} :
      Move ⟨id, parts, operand, token⟩ ⟨id, parts, none, token⟩
  | loses {id : Nat} {l : Location} {es es' : List Expr} {parts : List (Location × List Expr)}
      {operand : Option Expr} {token : Option Location} (h : es'.Sublist es) :
      Move ⟨id, (l, es) :: parts, operand, token⟩ ⟨id, (l, es') :: parts, operand, token⟩

abbrev Moves : Held → Held → Prop :=
  Relation.ReflTransGen Move

namespace Moves

variable {l : Location} {id : Nat} {parts : List (Location × List Expr)} {es : List Expr} {e whole : Expr}
  {h : Held} {token : Option Location}

theorem closes (hm : Moves h ⟨id, (l, es) :: parts, none, token⟩) (hi : e.id = id) (hl : e.loc = l)
    (hc : e.children = es) : Moves h ⟨id + 1, parts, some e, token⟩ := by
  subst hl hc
  exact hm.tail (.closes hi)

theorem takes (hm : Moves h ⟨id, (l, es) :: parts, some e, token⟩) :
    Moves h ⟨id, (l, es ++ [e]) :: parts, none, token⟩ :=
  hm.tail .takes

theorem drops {operand : Option Expr} (hm : Moves h ⟨id, parts, operand, token⟩) :
    Moves h ⟨id, parts, none, token⟩ :=
  hm.tail .drops

theorem takes_toList {operand : Option Expr} (hm : Moves h ⟨id, (l, es) :: parts, operand, token⟩) :
    Moves h ⟨id, (l, es ++ operand.toList) :: parts, none, token⟩ := by
  cases operand with
  | none => simpa using hm
  | some e => exact hm.takes

theorem strips (hm : Moves h ⟨id, parts, some e, token⟩) : Moves h ⟨id, (e.loc, []) :: parts, none, token⟩ :=
  (hm.tail .holds).tail (.loses (List.nil_sublist _))

end Moves

end Held

section

variable {loc : Location} {id id' : Nat} {x y : ExprState} {token : Option Location}

theorem PendingExpr.complete?_children {p : PendingExpr} {operand e : Expr} (h : p.complete? id operand = some e) :
    e.id = id ∧ e.loc = p.start ∧ e.children = p.parts ++ [operand] := by
  cases p <;> simp [complete?] at h <;> subst h <;> simp [Expr.id, Expr.loc, Expr.node, Expr.children, start, parts]

theorem Folds.moves {p : PendingExpr → Bool} (h : Folds p id x id' y) :
    Held.Moves (x.held id token) (y.held id' token) := by
  induction h with
  | done => exact .refl
  | join _ he _ ih =>
    obtain ⟨hi, hl, hc⟩ := PendingExpr.complete?_children he
    refine .trans ?_ ih
    exact (Held.Moves.takes .refl).closes hi hl hc

theorem ExprState.held_eq {top : PendingExpr} {rest : List PendingExpr} (hx : x.stack = top :: rest) :
    x.held id token = ⟨id, (top.start, top.parts) :: rest.map fun p => (p.start, p.parts), x.slot, token⟩ := by
  rw [held, hx, List.map_cons]

theorem ExprState.moves_passes {h : Held} (hm : Held.Moves (x.held id none) h) :
    Held.Moves (x.held id (some loc)) h :=
  hm.head .passes

theorem ExprState.moves_openCall {e : Expr} {target : FunctionRef} (hs : x.slot = some e) :
    Held.Moves (x.held id token) ((Session.openCall x e.loc (.function target)).held id token) := by
  unfold Session.openCall
  split
  · next l lead rest hx =>
    have hm : Held.Moves (x.held id token) ⟨id, x.stack.map fun p => (p.start, p.parts), none, token⟩ :=
      .single .drops
    simpa [held, hx, PendingExpr.start, PendingExpr.parts] using hm
  · rw [held, hs]
    exact Held.Moves.strips .refl

theorem ExprState.moves_close {h : Held} {top : PendingExpr} {rest : List PendingExpr} {e : Expr}
    (hm : Held.Moves h (y.held id' token)) (hy : y.stack = top :: rest) (hi : e.id = id') (hl : e.loc = top.start)
    (hc : e.children = top.parts ++ y.slot.toList) : Held.Moves h ((y.close e).held (id' + 1) token) := by
  rw [held_eq hy] at hm
  simpa [held, close, hy] using hm.takes_toList.closes hi hl hc

theorem ExprState.moves_next {h : Held} {top top' : PendingExpr} {rest : List PendingExpr}
    (hm : Held.Moves h (y.held id' token)) (hy : y.stack = top :: rest) (hl : top'.start = top.start)
    (hc : top'.parts = top.parts ++ y.slot.toList) :
    Held.Moves h ({ y with stack := top' :: rest, slot := none }.held id' token) := by
  rw [held_eq hy] at hm
  simpa [held, hl, hc] using hm.takes_toList

theorem ExprState.moves_replace {top top' : PendingExpr} {rest : List PendingExpr} (hx : x.stack = top :: rest)
    (hl : top'.start = top.start) (hc : top'.parts = top.parts) :
    Held.Moves (x.held id token) ({ x with stack := top' :: rest }.held id token) := by
  rw [held_eq hx]
  simpa [held, hl, hc] using Relation.ReflTransGen.refl

section

variable {p : PendingExpr} {e : Expr}

theorem ExprState.moves_opens (hx : x.calleeAllowed = true) (hl : p.start = loc) (hc : p.parts = []) :
    Held.Moves (x.held id (some loc)) ((x.push p).held id none) := by
  rw [held, (Session.calleeAllowed_iff.1 hx).1]
  simpa [held, push, hl, hc] using Relation.ReflTransGen.single Held.Move.opens

theorem ExprState.moves_holds {h : Held} (hm : Held.Moves h (x.held id token)) (hs : x.slot = some e)
    (hl : p.start = e.loc) (hc : p.parts = [e]) : Held.Moves h ((x.push p).held id token) := by
  rw [held, hs] at hm
  simpa [held, push, hl, hc] using hm.tail .holds

theorem ExprState.moves_strips (hs : x.slot = some e) (hl : p.start = e.loc) (hc : p.parts = []) :
    Held.Moves (x.held id token) ((x.push p).held id token) := by
  rw [held, hs]
  simpa [held, push, hl, hc] using Held.Moves.strips .refl

theorem ExprState.calleeAllowed_of_operandAllowed (hx : x.operandAllowed = true) : x.calleeAllowed = true := by
  simp only [operandAllowed, Bool.and_eq_true] at hx
  exact hx.1

theorem ExprState.moves_leaf (hx : x.calleeAllowed = true) (hl : e.loc = loc) (hi : e.id = id) (hc : e.children = []) :
    Held.Moves (x.held id (some loc)) ({ x with slot := some e }.held (id + 1) none) := by
  rw [held, (Session.calleeAllowed_iff.1 hx).1, ← hl]
  exact .single (.leaf hc hi)

end

theorem Shift.moves {config : ParserConfig} {t : Token} {more : List Token}
    (h : Shift config id x (t :: more) id' y) : Held.Moves (x.held id (some t.loc)) (y.held id' none) := by
  open ExprState in
  cases h with
  | literal hx => exact moves_leaf (calleeAllowed_of_operandAllowed hx) rfl rfl rfl
  | plainName hx => exact moves_leaf hx rfl rfl rfl
  | @receiver _ _ e hs =>
    have hm : Held.Moves (x.held id (some t.loc)) ((x.push (.lead e.loc ⟨some e, none⟩)).held id (some t.loc)) :=
      moves_holds .refl hs rfl rfl
    exact hm.tail (.leaf (e := .var ⟨id, t.loc⟩ ⟨t.text, t.loc⟩) rfl rfl)
  | memberName hx | functionName hx =>
    have hm : Held.Moves (x.held id none) ({ x with slot := none }.held id none) := .single .drops
    exact moves_passes
      (moves_close (y := { x with slot := none }) hm hx rfl rfl (by simp [Expr.children, PendingExpr.parts]))
  | segment hx => exact moves_passes (moves_replace hx rfl rfl)
  | modifierInLead _ hx | pointerInLead _ hx | backslash _ hx | qualifyPath _ hx =>
    exact moves_passes (moves_replace hx rfl rfl)
  | openPointerArgs hx => exact moves_passes (moves_replace hx rfl (by simp [PendingExpr.parts]))
  | modifierBehind hs | pointerBehind hs | openIndex hs | point hs | assign hs =>
    exact moves_passes (moves_holds .refl hs rfl rfl)
  | modifier hx | openGroup hx | openPointer hx | openArray hx | unary hx =>
    exact moves_opens (calleeAllowed_of_operandAllowed hx) rfl rfl
  | qualifyOwn hx => exact moves_opens hx rfl rfl
  | openArgs hs => exact moves_passes (moves_openCall hs)
  | firstBackslash hs | qualifyName hs => exact moves_passes (moves_strips hs rfl rfl)
  | closeGroup hf hy hs | closeTruple hf hy hs | closeIndex hf hy hs =>
    exact moves_passes (moves_close hf.moves hy rfl rfl (by simp [Expr.children, PendingExpr.parts, hs]))
  | closeArray hf hy => exact moves_passes (moves_close hf.moves hy rfl rfl rfl)
  | @closeArgs _ _ _ _ _ _ callee _ _ hf hy =>
    cases callee <;> exact moves_passes
      (moves_close hf.moves hy rfl rfl (by simp [Session.sealCall, Expr.children, PendingExpr.parts]))
  | nextItem hf hy hs | nextElement hf hy hs | closePointer hf hy hs =>
    exact moves_passes (moves_next hf.moves hy rfl (by simp [PendingExpr.parts, hs]))
  | @nextArg _ _ _ _ _ _ callee _ _ _ hf hy hs =>
    cases callee <;> exact moves_passes (moves_next hf.moves hy rfl (by simp [PendingExpr.parts, hs]))
  | @suffix _ _ _ e hs =>
    have hm : Held.Moves (x.held id none)
        ⟨id, (e.loc, [e]) :: x.stack.map fun p => (p.start, p.parts), none, none⟩ := by
      rw [ExprState.held, hs]
      exact .single .holds
    exact moves_passes (hm.closes rfl rfl rfl)
  | binary hf _ hs => exact moves_passes (moves_holds hf.moves hs rfl rfl)

theorem Truncates.moves (h : Truncates id x id' y) : Held.Moves (x.held id token) (y.held (id' + 1) token) := by
  obtain ⟨z, l, a, more, rest, item, hf, hz, -, -, rfl⟩ := h.folds
  have hm : Held.Moves (x.held id token)
      ⟨id', (l, a :: more) :: rest.map fun p => (p.start, p.parts), none, token⟩ := by
    have hm : Held.Moves (x.held id token) (z.held id' token) := hf.moves
    rw [ExprState.held_eq hz] at hm
    exact hm.drops
  have hfirst : Held.Moves (x.held id token) ⟨id', (l, [a]) :: rest.map fun p => (p.start, p.parts), none, token⟩ :=
    hm.tail (.loses (List.sublist_append_left [a] more))
  simpa [ExprState.held, ExprState.close, hz] using Held.Moves.closes (e := .group ⟨id', l⟩ a) hfirst rfl rfl rfl

end

theorem Ends.moves {s s' : Session} {x : ExprState} {completed : Completed} (h : Ends s x s' completed)
    (hf : completed.isFailed = false) : Held.Moves (x.held s.nextId none) ⟨s'.nextId, [], completed.value?, none⟩ := by
  cases h with
  | @value _ id y _ _ hz hy he =>
    have hm : Held.Moves (x.held s.nextId none) (y.held id none) := hz.moves
    simpa [ExprState.held, hy, he, Completed.value?] using hm
  | empty _ hx he =>
    rw [ExprState.held, hx, he]
    exact .refl
  | failed => cases hf

end GameScript
