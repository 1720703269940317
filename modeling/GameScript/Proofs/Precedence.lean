import GameScript.Proofs.Stored
import Mathlib.Data.List.Chain

/-!
How tight the operands of a node bind. The operators on the stack of an unfinished expression bind
tighter from the bottom to the top, so that joining them from the top gives every operator the
operands that its precedence asks for.
-/

namespace GameScript

namespace Expr

def isAssign : Expr → Bool
  | assign .. => true
  | _ => false

def infix? : Expr → Option Operator
  | binary _ op _ _ => some op
  | _ => none

def isUnary : Expr → Bool
  | unary .. => true
  | _ => false

def isPrimary (e : Expr) : Prop :=
  e.isAssign = false ∧ e.infix? = none ∧ e.isUnary = false

def BindsLeftOf (op : Operator) (e : Expr) : Prop :=
  e.isAssign = false ∧ ∀ inner ∈ e.infix?, op.precedence ≤ inner.precedence

def BindsRightOf (op : Operator) (e : Expr) : Prop :=
  e.isAssign = false ∧ ∀ inner ∈ e.infix?, op.precedence < inner.precedence

/-- The operands of the node bind as tight as their places ask for. -/
def Binds : Expr → Prop
  | binary _ op left right => left.BindsLeftOf op ∧ right.BindsRightOf op
  | unary _ _ operand => operand.isAssign = false ∧ operand.infix? = none
  | index _ target _ | member _ target _ | suffix _ _ target | assign _ _ target _ => target.isPrimary
  | call _ receiver _ _ _ | pointerCall _ receiver _ _ _ => ∀ e ∈ receiver, e.isPrimary
  | _ => True

def BindsThroughout (e : Expr) : Prop :=
  (View.expr e).Everywhere fun v => ∀ e, v = .expr e → e.Binds

theorem bindsThroughout_iff {e : Expr} :
    e.BindsThroughout ↔ e.Binds ∧ ∀ c ∈ e.children, c.BindsThroughout := by
  unfold BindsThroughout
  rw [View.everywhere_expr]
  simp

theorem isPrimary.left {e : Expr} (h : e.isPrimary) (op : Operator) : e.BindsLeftOf op :=
  ⟨h.1, by simp [h.2.1]⟩

theorem isPrimary_of_isAssignable {e : Expr} (h : e.isAssignable = true) : e.isPrimary := by
  cases e <;> simp [isAssignable, isPrimary, isAssign, infix?, isUnary] at h ⊢

end Expr

namespace PendingExpr

def parts : PendingExpr → List Expr
  | group _ items | array _ items => items
  | call _ l (.function _) args => l.receiver.toList ++ args
  | call _ l (.pointer e) args => l.receiver.toList ++ e :: args
  | lead _ l | pointerOpen _ l => l.receiver.toList
  | pointerReady _ l pointer => l.receiver.toList ++ [pointer]
  | index e | binary _ e | assign _ e | member e => [e]
  | unary .. | path .. | qualified .. => []

def Binds : PendingExpr → Prop
  | binary op left => left.BindsLeftOf op
  | assign _ target | member target | index target => target.isPrimary
  | lead _ l | pointerOpen _ l | pointerReady _ l _ | call _ l _ _ => ∀ e ∈ l.receiver, e.isPrimary
  | _ => True

def Takes (e : Expr) : PendingExpr → Prop
  | binary op _ => e.BindsRightOf op
  | unary .. => e.isAssign = false ∧ e.infix? = none
  | _ => True

/-- The upper of two neighbours on the stack completes to an operand that the lower takes. -/
def Above : PendingExpr → PendingExpr → Prop
  | binary op _, binary lower _ => lower.precedence < op.precedence
  | binary .., unary .. | assign .., binary .. | assign .., unary .. => False
  | _, _ => True

theorem takes_of_isPrimary {e : Expr} (h : e.isPrimary) (p : PendingExpr) : p.Takes e := by
  cases p <;> simp [Takes, Expr.BindsRightOf, h.1, h.2.1]

theorem above_of_not_isOperator {p : PendingExpr} (h : p.isOperator = false) (q : PendingExpr) :
    p.Above q := by
  cases p <;> simp [isOperator, Above] at h ⊢

theorem complete?_binds {p : PendingExpr} {id : Nat} {operand e : Expr} (hc : p.complete? id operand = some e)
    (hp : p.Binds) (hparts : ∀ a ∈ p.parts, a.BindsThroughout) (ho : operand.BindsThroughout)
    (ht : p.Takes operand) : e.BindsThroughout ∧ ∀ q, p.Above q → q.Takes e := by
  cases p with
  | binary op left =>
    simp only [complete?, Option.some.injEq] at hc
    subst hc
    refine ⟨Expr.bindsThroughout_iff.2 ⟨⟨hp, ht⟩, ?_⟩, fun q hq => ?_⟩
    · simpa [Expr.children, ho] using hparts left (by simp [parts])
    · cases q <;> simp [Above, Takes, Expr.BindsRightOf, Expr.isAssign, Expr.infix?] at hq ⊢
      exact hq
  | unary loc op =>
    simp only [complete?, Option.some.injEq] at hc
    subst hc
    refine ⟨Expr.bindsThroughout_iff.2 ⟨ht, by simpa [Expr.children] using ho⟩, fun q _ => ?_⟩
    cases q <;> simp [Takes, Expr.BindsRightOf, Expr.isAssign, Expr.infix?]
  | assign op target =>
    simp only [complete?, Option.some.injEq] at hc
    subst hc
    refine ⟨Expr.bindsThroughout_iff.2 ⟨hp, ?_⟩, fun q hq => ?_⟩
    · simpa [Expr.children, ho] using hparts target (by simp [parts])
    · cases q <;> simp [Above, Takes] at hq ⊢
  | _ => simp [complete?] at hc

end PendingExpr

structure StackBinds (stack : List PendingExpr) : Prop where
  parts : ∀ p ∈ stack, p.Binds ∧ ∀ e ∈ p.parts, e.BindsThroughout
  chain : stack.IsChain PendingExpr.Above

namespace StackBinds

theorem nil : StackBinds [] :=
  ⟨by simp, .nil⟩

theorem tail {top : PendingExpr} {rest : List PendingExpr} (h : StackBinds (top :: rest)) :
    StackBinds rest :=
  ⟨fun p hp => h.parts p (List.mem_cons_of_mem _ hp), h.chain.tail⟩

theorem top {top : PendingExpr} {stack rest : List PendingExpr} (h : StackBinds stack)
    (hx : stack = top :: rest) :
    top.Binds ∧ (∀ e ∈ top.parts, e.BindsThroughout) ∧ StackBinds rest := by
  subst hx
  have ⟨hb, hp⟩ := h.parts top (by simp)
  exact ⟨hb, hp, h.tail⟩

theorem cons {top : PendingExpr} {rest : List PendingExpr} (h : StackBinds rest) (hb : top.Binds)
    (hp : ∀ e ∈ top.parts, e.BindsThroughout) (ha : ∀ below ∈ rest.head?, top.Above below) :
    StackBinds (top :: rest) :=
  ⟨by simpa using ⟨⟨hb, hp⟩, h.parts⟩, h.chain.cons ha⟩

theorem cons_open {top : PendingExpr} {rest : List PendingExpr} (h : StackBinds rest)
    (hn : top.isOperator = false) (hb : top.Binds) (hp : ∀ e ∈ top.parts, e.BindsThroughout) :
    StackBinds (top :: rest) :=
  h.cons hb hp fun below _ => PendingExpr.above_of_not_isOperator hn below

end StackBinds

def OperandFits (stack : List PendingExpr) (slot : Option Expr) : Prop :=
  ∀ e ∈ slot, e.BindsThroughout ∧ ∀ top ∈ stack.head?, top.Takes e

theorem Folds.binds {p : PendingExpr → Bool} {id id' : Nat} {x y : ExprState} (h : Folds p id x id' y)
    (hs : StackBinds x.stack) (ho : OperandFits x.stack x.slot) :
    StackBinds y.stack ∧ OperandFits y.stack y.slot := by
  induction h with
  | done => exact ⟨hs, ho⟩
  | @join id id' context started top rest operand e y hp he _ ih =>
    obtain ⟨hb, ht⟩ := ho operand rfl
    obtain ⟨hparts, hrest⟩ := hs.parts top (by simp)
    obtain ⟨heb, het⟩ := PendingExpr.complete?_binds he hparts hrest hb (ht top (by simp))
    refine ih hs.tail ?_
    rintro _ ⟨⟩
    exact ⟨heb, fun below hbelow => het below (List.isChain_cons.1 hs.chain |>.1 below hbelow)⟩

theorem Folds.bindsLeft {op : Operator} {id id' : Nat} {x y : ExprState}
    (h : Folds (ExprState.bindsBefore op) id x id' y) (hx : ∀ e ∈ x.slot, e.BindsLeftOf op) :
    ∀ e ∈ y.slot, e.BindsLeftOf op := by
  induction h with
  | done => exact hx
  | @join id id' context started top rest operand e y hp he _ ih =>
    refine ih ?_
    rintro _ ⟨⟩
    cases top with
    | binary inner left =>
      simp only [PendingExpr.complete?, Option.some.injEq] at he
      subst he
      simpa [ExprState.bindsBefore, Expr.BindsLeftOf, Expr.isAssign, Expr.infix?] using hp
    | unary loc inner =>
      simp only [PendingExpr.complete?, Option.some.injEq] at he
      subst he
      simp [Expr.BindsLeftOf, Expr.isAssign, Expr.infix?]
    | _ => simp [ExprState.bindsBefore] at hp

theorem Folds.top {p : PendingExpr → Bool} {id id' : Nat} {x y : ExprState} (h : Folds p id x id' y) :
    ∀ top ∈ y.stack.head?, p top = false := by
  induction h with
  | done h => exact h
  | join _ _ _ ih => exact ih

namespace ExprState

structure Binds (x : ExprState) : Prop where
  stack : StackBinds x.stack
  slot : ∀ e ∈ x.slot, e.isPrimary ∧ e.BindsThroughout

theorem Binds.fits {x : ExprState} (h : x.Binds) : OperandFits x.stack x.slot :=
  fun e he => ⟨(h.slot e he).2, fun top _ => PendingExpr.takes_of_isPrimary (h.slot e he).1 top⟩

theorem Binds.of_none {x : ExprState} (hs : x.slot = none) (h : StackBinds x.stack) : x.Binds :=
  ⟨h, by simp [hs]⟩

theorem Binds.of_some {x : ExprState} {e : Expr} (hs : x.slot = some e) (h : StackBinds x.stack)
    (hp : e.isPrimary) (hb : e.Binds) (hc : ∀ c ∈ e.children, c.BindsThroughout) : x.Binds := by
  refine ⟨h, ?_⟩
  rw [hs]
  rintro _ ⟨⟩
  exact ⟨hp, Expr.bindsThroughout_iff.2 ⟨hb, hc⟩⟩

theorem Binds.of_top {x : ExprState} {top : PendingExpr} {rest : List PendingExpr}
    (hs : x.slot = none) (hx : x.stack = top :: rest) (h : StackBinds rest)
    (hn : top.isOperator = false) (hb : top.Binds) (hp : ∀ e ∈ top.parts, e.BindsThroughout) :
    x.Binds :=
  .of_none hs (by rw [hx]; exact h.cons_open hn hb hp)

end ExprState

theorem ExprState.Binds.openCall {x : ExprState} (h : x.Binds) (loc : Location) (target : FunctionRef) :
    (Session.openCall x loc (.function target)).Binds := by
  unfold Session.openCall
  split
  · next lead rest hx =>
    obtain ⟨hb, hp, hrest⟩ := h.stack.top hx
    exact .of_top rfl rfl hrest rfl hb (by simpa [PendingExpr.parts] using hp)
  · exact .of_top rfl rfl h.stack rfl (by simp [PendingExpr.Binds]) (by simp [PendingExpr.parts])

theorem Shift.binds {config : ParserConfig} {id id' : Nat} {x y : ExprState} {ts : List Token}
    (h : Shift config id x ts id' y) (hx : x.Binds) : y.Binds := by
  have hleaf {e : Expr} (he : e.children = []) : ∀ c ∈ e.children, c.BindsThroughout := by simp [he]
  cases h with
  | literal | plainName => exact .of_some rfl hx.stack ⟨rfl, rfl, rfl⟩ trivial (hleaf rfl)
  | receiver hs =>
    obtain ⟨hp, hb⟩ := hx.slot _ hs
    refine .of_some rfl (hx.stack.cons_open rfl ?_ ?_) ⟨rfl, rfl, rfl⟩ trivial (hleaf rfl)
    · simpa [PendingExpr.Binds] using hp
    · simpa [PendingExpr.parts] using hb
  | memberName ht =>
    obtain ⟨hb, hp, hrest⟩ := hx.stack.top ht
    exact .of_some rfl (by simpa [ExprState.close, ht] using hrest) ⟨rfl, rfl, rfl⟩ hb hp
  | functionName ht =>
    obtain ⟨-, -, hrest⟩ := hx.stack.top ht
    exact .of_some rfl (by simpa [ExprState.close, ht] using hrest) ⟨rfl, rfl, rfl⟩ trivial (hleaf rfl)
  | segment ht =>
    obtain ⟨-, -, hrest⟩ := hx.stack.top ht
    exact ⟨hrest.cons_open rfl trivial (by simp [PendingExpr.parts]), hx.slot⟩
  | modifierBehind hs | pointerBehind hs =>
    obtain ⟨hp, hb⟩ := hx.slot _ hs
    refine .of_top rfl rfl hx.stack rfl ?_ ?_
    · simpa [PendingExpr.Binds] using hp
    · simpa [PendingExpr.parts] using hb
  | modifierInLead hs ht | pointerInLead hs ht =>
    obtain ⟨hb, hp, hrest⟩ := hx.stack.top ht
    exact .of_top hs rfl hrest rfl hb hp
  | openPointerArgs ht =>
    obtain ⟨hb, hp, hrest⟩ := hx.stack.top ht
    refine ⟨hrest.cons_open rfl hb ?_, hx.slot⟩
    simpa [PendingExpr.parts] using hp
  | openArgs hs _ he => exact hx.openCall _ _
  | backslash hs ht | qualifyPath hs ht =>
    obtain ⟨-, -, hrest⟩ := hx.stack.top ht
    exact .of_top hs rfl hrest rfl trivial (by simp [PendingExpr.parts])
  | modifier | openGroup | openPointer | openArray | firstBackslash | qualifyName | qualifyOwn =>
    exact .of_top rfl rfl hx.stack rfl (by simp [PendingExpr.Binds]) (by simp [PendingExpr.parts])
  | openIndex hs | point hs =>
    obtain ⟨hp, hb⟩ := hx.slot _ hs
    exact .of_top rfl rfl hx.stack rfl hp (by simpa [PendingExpr.parts] using hb)
  | unary =>
    refine .of_none rfl (hx.stack.cons trivial (by simp [PendingExpr.parts]) fun below _ => ?_)
    cases below <;> trivial
  | closeGroup hf hy hs =>
    obtain ⟨hstack, hslot⟩ := hf.binds hx.stack hx.fits
    obtain ⟨-, -, hrest⟩ := hstack.top hy
    refine .of_some rfl (by simpa [ExprState.close, hy] using hrest) ⟨rfl, rfl, rfl⟩ trivial ?_
    simpa [Expr.children] using (hslot _ hs).1
  | closeTruple hf hy hs =>
    obtain ⟨hstack, hslot⟩ := hf.binds hx.stack hx.fits
    obtain ⟨-, hp, hrest⟩ := hstack.top hy
    refine .of_some rfl (by simpa [ExprState.close, hy] using hrest) ⟨rfl, rfl, rfl⟩ trivial ?_
    have hi := (hslot _ hs).1
    simpa [Expr.children, PendingExpr.parts, hi] using hp
  | @closeArgs _ _ _ _ _ _ callee _ _ hf hy hs =>
    obtain ⟨hstack, hslot⟩ := hf.binds hx.stack hx.fits
    obtain ⟨hb, hp, hrest⟩ := hstack.top hy
    have hl := fun e he => (hslot e he).1
    cases callee with
    | function =>
      refine .of_some rfl (by simpa [ExprState.close, hy] using hrest) ⟨rfl, rfl, rfl⟩ hb ?_
      simp only [Session.sealCall, Expr.children]
      grind [PendingExpr.parts]
    | pointer =>
      refine .of_some rfl (by simpa [ExprState.close, hy] using hrest) ⟨rfl, rfl, rfl⟩ hb ?_
      simp only [Session.sealCall, Expr.children]
      grind [PendingExpr.parts]
  | nextItem hf hy hs | nextElement hf hy hs =>
    obtain ⟨hstack, hslot⟩ := hf.binds hx.stack hx.fits
    obtain ⟨-, hp, hrest⟩ := hstack.top hy
    have hi := (hslot _ hs).1
    refine .of_top rfl rfl hrest rfl trivial ?_
    grind [PendingExpr.parts]
  | @nextArg _ _ _ _ _ _ callee _ _ _ hf hy hs =>
    obtain ⟨hstack, hslot⟩ := hf.binds hx.stack hx.fits
    obtain ⟨hb, hp, hrest⟩ := hstack.top hy
    have hi := (hslot _ hs).1
    refine .of_top rfl rfl hrest rfl hb ?_
    cases callee <;> grind [PendingExpr.parts]
  | closePointer hf hy hs =>
    obtain ⟨hstack, hslot⟩ := hf.binds hx.stack hx.fits
    obtain ⟨hb, hp, hrest⟩ := hstack.top hy
    have hi := (hslot _ hs).1
    refine .of_top rfl rfl hrest rfl hb ?_
    grind [PendingExpr.parts]
  | closeIndex hf hy hs =>
    obtain ⟨hstack, hslot⟩ := hf.binds hx.stack hx.fits
    obtain ⟨hb, hp, hrest⟩ := hstack.top hy
    have hi := (hslot _ hs).1
    refine .of_some rfl (by simpa [ExprState.close, hy] using hrest) ⟨rfl, rfl, rfl⟩ hb ?_
    simpa [Expr.children, PendingExpr.parts, hi] using hp
  | closeArray hf hy =>
    obtain ⟨hstack, hslot⟩ := hf.binds hx.stack hx.fits
    obtain ⟨-, hp, hrest⟩ := hstack.top hy
    have hl := fun e he => (hslot e he).1
    refine .of_some rfl (by simpa [ExprState.close, hy] using hrest) ⟨rfl, rfl, rfl⟩ trivial ?_
    simp only [Expr.children]
    grind [PendingExpr.parts]
  | suffix hs _ he =>
    obtain ⟨hp, hb⟩ := hx.slot _ hs
    exact .of_some rfl hx.stack ⟨rfl, rfl, rfl⟩ hp (by simpa [Expr.children] using hb)
  | assign hs ht _ he =>
    obtain ⟨hp, hb⟩ := hx.slot _ hs
    refine .of_none rfl (hx.stack.cons hp (by simpa [PendingExpr.parts] using hb) fun below hbelow => ?_)
    -- No operator is below an assignment.
    obtain ⟨-, -, hop⟩ := ht below hbelow
    cases below with
    | binary | unary => obtain ⟨_, _, h⟩ := hop rfl; cases h
    | _ => trivial
  | binary hf hs hy =>
    obtain ⟨hstack, hslot⟩ := hf.binds hx.stack hx.fits
    have hleft := hf.bindsLeft fun e he => (hx.slot e he).1.left _
    refine .of_none rfl (hstack.cons (hleft _ hy) ?_ fun below hbelow => ?_)
    · simpa [PendingExpr.parts] using (hslot _ hy).1
    -- What is still on the stack was not selected, so it may stand below the new operator.
    · have hd := hf.top below hbelow
      cases below with
      | binary => simpa [ExprState.bindsBefore, PendingExpr.Above] using hd
      | unary => cases hd
      | _ => trivial

theorem Truncates.binds {id id' : Nat} {x y : ExprState} (h : Truncates id x id' y) (hx : x.Binds) :
    y.Binds := by
  obtain ⟨z, loc, a, more, rest, item, hf, hz, -, -, rfl⟩ := h.folds
  obtain ⟨hstack, -⟩ := hf.binds hx.stack hx.fits
  obtain ⟨-, hp, hrest⟩ := hstack.top hz
  refine .of_some rfl (by simpa [ExprState.close, hz] using hrest) ⟨rfl, rfl, rfl⟩ trivial ?_
  simpa [Expr.children] using hp a (by simp [PendingExpr.parts])

/-! Noting what folding reads changes no node that precedence is about -/

namespace Fold

variable {lookup : String → Option Value} {e : Expr}

@[simp] theorem noteRead_isAssign : (noteRead lookup e).isAssign = e.isAssign := by
  cases e <;> rfl

@[simp] theorem noteRead_infix? : (noteRead lookup e).infix? = e.infix? := by
  cases e <;> rfl

theorem children_noteRead {c : Expr} (h : c ∈ (noteRead lookup e).children) :
    ∃ c' ∈ e.children, c = c' ∨ c = noteRead lookup c' := by
  cases e <;> simp only [noteRead, Expr.children] at h ⊢ <;> grind

theorem bindsThroughout_noteRead (h : e.BindsThroughout) : (noteRead lookup e).BindsThroughout := by
  have hif {c : Expr} {b : Bool} (hc : c.BindsThroughout)
      (hn : c.BindsThroughout → (noteRead lookup c).BindsThroughout) :
      (if b = true then noteRead lookup c else c).BindsThroughout := by
    split
    · exact hn hc
    · exact hc
  revert h
  fun_induction noteRead lookup e with
  | case1 =>
    intro _
    exact Expr.bindsThroughout_iff.2 ⟨trivial, by simp [Expr.children]⟩
  | case2 n inner ih =>
    intro h
    obtain ⟨-, hc⟩ := Expr.bindsThroughout_iff.1 h
    simp only [Expr.children, List.forall_mem_singleton] at hc
    exact Expr.bindsThroughout_iff.2 ⟨trivial, by simpa [Expr.children] using ih hc⟩
  | case3 n x y z first second ihx ihy ihz =>
    intro h
    obtain ⟨-, hc⟩ := Expr.bindsThroughout_iff.1 h
    simp only [Expr.children, List.forall_mem_cons, List.not_mem_nil, false_implies, implies_true,
      and_true] at hc
    refine Expr.bindsThroughout_iff.2 ⟨trivial, ?_⟩
    simp only [Expr.children, List.forall_mem_cons, List.not_mem_nil, false_implies, implies_true,
      and_true]
    exact ⟨ihx hc.1, hif hc.2.1 ihy, hif hc.2.2 ihz⟩
  | case4 n op operand ih =>
    intro h
    obtain ⟨hb, hc⟩ := Expr.bindsThroughout_iff.1 h
    simp only [Expr.children, List.forall_mem_singleton] at hc
    refine Expr.bindsThroughout_iff.2 ⟨by simpa [Expr.Binds] using hb, ?_⟩
    simpa [Expr.children] using ih hc
  | case5 n op left right ihl ihr =>
    intro h
    obtain ⟨hb, hc⟩ := Expr.bindsThroughout_iff.1 h
    simp only [Expr.children, List.forall_mem_cons, List.not_mem_nil, false_implies, implies_true,
      and_true] at hc
    refine Expr.bindsThroughout_iff.2 ⟨?_, ?_⟩
    · simp only [Expr.Binds, Expr.BindsLeftOf, Expr.BindsRightOf, noteRead_isAssign, noteRead_infix?] at hb ⊢
      split
      · simpa using hb
      · exact hb
    · simp only [Expr.children, List.forall_mem_cons, List.not_mem_nil, false_implies, implies_true,
        and_true]
      exact ⟨ihl hc.1, hif hc.2 ihr⟩
  | case6 =>
    intro h
    exact h

end Fold

theorem inherited_binds (config : ParserConfig) : Inherited config Expr.BindsThroughout ExprState.Binds where
  children e h := (Expr.bindsThroughout_iff.1 h).2
  placeholder _ := Expr.bindsThroughout_iff.2 ⟨trivial, by simp [Expr.children]⟩
  noteRead _ _ h := Fold.bindsThroughout_noteRead h
  fresh _ := .of_none rfl .nil
  shift hx _ h := ⟨(h.binds hx).stack, (h.binds hx).slot⟩
  truncate hx h := ⟨(h.binds hx).stack, (h.binds hx).slot⟩
  fold hx hf _ he := ((hf.binds hx.stack hx.fits).2 _ he).1

/-- Precedence and associativity hold at every node of a parsed graph. -/
theorem parse_binds {tokens : List Token} {config : ParserConfig} {g : Graph}
    (h : (parse tokens config).graph = some g) {e : Expr} (he : View.expr e ∈ g.view.walk) : e.Binds := by
  have hg := parse_exprs (inherited_binds config) (fun _ _ => trivial) h (View.expr e) he e rfl
  exact (Expr.bindsThroughout_iff.1 hg).1

theorem parse_binds_sum :
    let e : Expr := .binary ⟨4, .start⟩ .plus (.var ⟨0, .start⟩ ⟨"a", .start⟩)
      (.binary ⟨3, ⟨1, 3, 2⟩⟩ .star (.var ⟨1, ⟨1, 3, 2⟩⟩ ⟨"b", ⟨1, 3, 2⟩⟩)
        (.var ⟨2, ⟨1, 5, 4⟩⟩ ⟨"c", ⟨1, 5, 4⟩⟩))
    (parse
      [⟨.identifier, "a", .start⟩, ⟨.symbol, "+", ⟨1, 2, 1⟩⟩, ⟨.identifier, "b", ⟨1, 3, 2⟩⟩,
        ⟨.symbol, "*", ⟨1, 4, 3⟩⟩, ⟨.identifier, "c", ⟨1, 5, 4⟩⟩]
      { target := .expression }).graph = some (.expression e) ∧ e.Binds := by
  refine (and_iff_left_of_imp fun h => parse_binds h ?_).2 rfl
  rw [Graph.view, View.walk_eq]
  exact List.mem_cons_self

end GameScript
