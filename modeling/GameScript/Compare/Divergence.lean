import GameScript.Compare.Mismatch

/-!
Comparison of trees by structure. A pair of nodes that differs is reported once, and what is below
it is not compared.
-/

namespace GameScript

structure Divergence where
  message : String
  leftLoc : Location
  rightLoc : Location
  left : String
  right : String
deriving DecidableEq, Repr

def Divergence.text (d : Divergence) : String :=
  d.message ++ ": `" ++ d.left ++ "` at " ++ d.leftLoc.text ++ " vs `" ++ d.right ++ "` at "
    ++ d.rightLoc.text

namespace View

def describe : View → String
  | expr e => e.text
  | function f => "function " ++ f.name.name
  | param p => p.text
  | directive d => d.text
  | constant c => "const " ++ c.name.name
  | v => v.tag.name

def diverge (message : String) (left right : View) : Divergence :=
  ⟨message, left.loc, right.loc, left.describe, right.describe⟩

def difference? (left right : View) : Option String :=
  if left.tag ≠ right.tag then
    some ("node kind differs (" ++ left.tag.name ++ " vs " ++ right.tag.name ++ ")")
  else
    (Mismatch.views left right).or
      (Mismatch.counts "operand" left.children.length right.children.length)

def compare (left right : View) : List Divergence :=
  match left.difference? right with
  | some message => [diverge message left right]
  | none =>
    (left.children.attach.zip right.children).flatMap fun (⟨a, _h⟩, b) => a.compare b
termination_by sizeOf left
decreasing_by exact sizeOf_child _h

theorem zip_attach {α β : Type} (xs : List α) (ys : List β) :
    xs.zip ys = (xs.attach.zip ys).map fun p => (p.1.val, p.2) := by
  have h : (xs.attach.map Subtype.val).zip ys = (xs.attach.zip ys).map (Prod.map Subtype.val id) :=
    List.zip_map_left
  rw [List.attach_map_subtype_val] at h
  rw [h]
  rfl

theorem compare_eq (left right : View) :
    left.compare right =
      match left.difference? right with
      | some message => [diverge message left right]
      | none => (left.children.zip right.children).flatMap fun (a, b) => a.compare b := by
  rw [compare]
  split
  · rfl
  · rw [zip_attach left.children, List.flatMap_map]

end View

def compareGraphs (left right : Graph) : List Divergence :=
  left.view.compare right.view

end GameScript
