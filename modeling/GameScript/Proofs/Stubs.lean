import GameScript.Proofs.Ordered
import GameScript.Proofs.Parts

/-!
How trees in source order are built up. A node under construction has a place and the parts that it has so far; while
a part of it is read, it waits below. Then everything below stands in front of what is above, and a node that is
complete takes over the place and the parts.
-/

namespace GameScript

open View

/-- A node under construction: where it begins, and its parts so far. -/
structure Stub where
  start : Nat
  parts : List View

namespace Stub

structure Fits (stop : Nat) (p : Stub) : Prop where
  begun : p.start < stop
  sequenced : ∀ v ∈ p.parts, v.Sequenced
  start : ∀ v ∈ p.parts, p.start ≤ v.loc.offset
  before : ∀ v ∈ p.parts, v.Before stop
  rising : p.parts.Pairwise Precedes

/-- Nodes under construction, the innermost first. Each stands behind all that is below it. -/
def Piled (stop : Nat) : List Stub → Prop
  | [] => True
  | p :: rest => p.Fits stop ∧ Piled p.start rest

variable {stop stop' start start' : Nat} {vs ws : List View} {v : View} {rest : List Stub}

theorem Fits.mono {p : Stub} (h : p.Fits stop) (hle : stop ≤ stop') : p.Fits stop' :=
  ⟨Nat.lt_of_lt_of_le h.begun hle, h.sequenced, h.start, fun v hv => (h.before v hv).mono hle, h.rising⟩

theorem Fits.empty (h : start < stop) : Fits stop ⟨start, []⟩ :=
  ⟨h, by simp, by simp, by simp, .nil⟩

theorem Fits.closes (h : Fits stop ⟨v.loc.offset, v.parts⟩) (hv : v.IsCut) : Fits stop ⟨v.loc.offset, [v]⟩ := by
  have hbefore : v.Before stop :=
    before_iff.2 ⟨h.begun, fun c hc => h.before c ((perm_parts hv).mem_iff.2 hc)⟩
  have hsequenced : v.Sequenced := sequenced_iff.2 ⟨⟨hv, h.start, h.rising⟩, h.sequenced⟩
  exact ⟨h.begun, by simpa using hsequenced, by simp, by simpa using hbefore, List.pairwise_singleton _ _⟩

namespace Piled

theorem mono {ps : List Stub} (h : Piled stop ps) (hle : stop ≤ stop') : Piled stop' ps := by
  cases ps with
  | nil => exact trivial
  | cons p rest => exact ⟨h.1.mono hle, h.2⟩

theorem tail {p : Stub} (h : Piled stop (p :: rest)) : Piled stop rest :=
  h.2.mono (Nat.le_of_lt h.1.begun)

theorem opens (h : Piled start rest) (hlt : start < stop) : Piled stop (⟨start, []⟩ :: rest) :=
  ⟨.empty hlt, h⟩

theorem wraps (h : Piled stop (⟨start, vs⟩ :: rest)) (hs : v.loc.offset = start) (hp : v.parts = vs)
    (hv : v.IsCut) : Piled stop (⟨start, [v]⟩ :: rest) := by
  subst hs hp
  exact ⟨h.1.closes hv, h.2⟩

theorem loses (h : Piled stop (⟨start, vs⟩ :: rest)) (hs : ws.Sublist vs) :
    Piled stop (⟨start, ws⟩ :: rest) :=
  ⟨⟨h.1.begun, fun v hv => h.1.sequenced v (hs.subset hv), fun v hv => h.1.start v (hs.subset hv),
    fun v hv => h.1.before v (hs.subset hv), h.1.rising.sublist hs⟩, h.2⟩

theorem sequenced {p : Stub} (h : Piled stop (p :: rest)) : ∀ v ∈ p.parts, v.Sequenced :=
  h.1.sequenced

theorem replaces {w : View} (h : Piled stop (⟨start, [v]⟩ :: rest)) (hw : w.Replaces v) :
    Piled stop (⟨start, [w]⟩ :: rest) := by
  obtain ⟨⟨hlt, hin, hstart, hbefore, -⟩, hrest⟩ := h
  simp only [List.forall_mem_singleton] at hin hstart hbefore
  exact ⟨⟨hlt, by simpa using hw.sequenced hin, by simpa [hw.loc] using hstart, by simpa using hw.before _ hbefore,
    List.pairwise_singleton _ _⟩, hrest⟩

theorem takes (h : Piled stop (⟨start', ws⟩ :: ⟨start, vs⟩ :: rest)) :
    Piled stop (⟨start, vs ++ ws⟩ :: rest) := by
  obtain ⟨hw, hv, hrest⟩ := h
  have hlt : start < start' := hv.begun
  have hle : start' ≤ stop := Nat.le_of_lt hw.begun
  refine ⟨⟨Nat.lt_of_lt_of_le hlt hle, ?_, ?_, ?_, ?_⟩, hrest⟩
  · exact List.forall_mem_append.2 ⟨hv.sequenced, hw.sequenced⟩
  · exact List.forall_mem_append.2 ⟨hv.start, fun w hw' => Nat.le_trans (Nat.le_of_lt hlt) (hw.start w hw')⟩
  · exact List.forall_mem_append.2 ⟨fun v hv' => (hv.before v hv').mono hle, hw.before⟩
  · exact List.pairwise_append.2
      ⟨hv.rising, hw.rising, fun v hv' w hw' => (hv.before v hv').mono (hw.start w hw')⟩

end Piled

def operand (o : Option Expr) : List Stub :=
  o.toList.map fun e => ⟨e.loc.offset, [.expr e]⟩

theorem Piled.takes_operand {o : Option Expr} (h : Piled stop (operand o ++ ⟨start, vs⟩ :: rest)) :
    Piled stop (⟨start, vs ++ o.toList.map .expr⟩ :: rest) := by
  cases o with
  | none => simpa [operand] using h
  | some e => exact Piled.takes h

end Stub

namespace Held

open Stub (Piled)

def stubs (h : Held) : List Stub :=
  Stub.operand h.operand ++ h.parts.map fun p => ⟨p.1.offset, p.2.map .expr⟩

structure Sequenced (stop : Nat) (below : List Stub) (h : Held) : Prop where
  stubs : Piled ((h.token.map Location.offset).getD stop) (h.stubs ++ below)
  token : ∀ l ∈ h.token, l.offset < stop

theorem parts_expr (e : Expr) : (View.expr e).parts = e.children.map .expr :=
  rfl

theorem Move.sequenced {stop : Nat} {below : List Stub} {h h' : Held} (hm : Move h h') (ho : h.Sequenced stop below) :
    h'.Sequenced stop below := by
  obtain ⟨hs, ht⟩ := ho
  cases hm with
  | leaf hc =>
    have hlt := ht _ rfl
    refine ⟨?_, by simp⟩
    have hnew := (Piled.opens hs hlt).wraps (v := .expr _) rfl (by simp [parts_expr, hc]) trivial
    simpa [Held.stubs, Stub.operand] using hnew
  | opens => exact ⟨by simpa [Held.stubs, Stub.operand] using Piled.opens hs (ht _ rfl), by simp⟩
  | passes => exact ⟨hs.mono (Nat.le_of_lt (ht _ rfl)), by simp⟩
  | holds => exact ⟨by simpa [Held.stubs, Stub.operand] using hs, ht⟩
  | takes =>
    refine ⟨?_, ht⟩
    have hnew := Piled.takes hs
    simpa [Held.stubs, Stub.operand] using hnew
  | closes =>
    refine ⟨?_, ht⟩
    have hnew := Piled.wraps (v := .expr _) hs rfl rfl trivial
    simpa [Held.stubs, Stub.operand] using hnew
  | @drops _ _ operand =>
    refine ⟨?_, ht⟩
    cases operand with
    | none => exact hs
    | some => exact hs.tail
  | @loses _ _ _ _ _ operand _ hl =>
    refine ⟨?_, ht⟩
    cases operand with
    | none => exact Piled.loses hs (hl.map _)
    | some => exact ⟨hs.1, Piled.loses hs.2 (hl.map _)⟩

theorem Moves.sequenced {stop : Nat} {below : List Stub} {h h' : Held} (hm : Moves h h') (ho : h.Sequenced stop below) :
    h'.Sequenced stop below := by
  induction hm with
  | refl => exact ho
  | tail _ hm ih => exact hm.sequenced ih

end Held

end GameScript
