import GameScript.Diagnostic.Problem
import GameScript.Parser.Pending

namespace GameScript

def closeGroups (stop : Nat) : List Case → List Case
  | [] => []
  | c :: earlier => closeGroups c.offset earlier ++ [{ c with first := c.offset, stop := stop }]

def isCaseValue : CaseLabel → Bool
  | .value _ => true
  | .default _ => false

def labelProblem? (allowDefaultWithCase : Bool) (labels : SwitchLabels) (group : List CaseLabel)
    (label : CaseLabel) (value : Option Value) : Option Problem :=
  match label with
  | .default _ =>
    if labels.hasDefault then some .duplicateDefault
    else if group.any isCaseValue && !allowDefaultWithCase then some .defaultWithCase
    else none
  | .value _ =>
    if group.any CaseLabel.isDefault && !allowDefaultWithCase then some .defaultWithCase
    else
      match value with
      | some v => if labels.values.any fun u => u.same v then some (.duplicateCase v.text) else none
      | none => none

def SwitchLabels.add (labels : SwitchLabels) (place : Nat) (label : CaseLabel)
    (value : Option Value) (loc : Location) : SwitchLabels :=
  let groups :=
    match labels.groups with
    | c :: earlier =>
      if c.offset = place then { c with labels := c.labels ++ [label] } :: earlier
      else ⟨loc, place, [label], place, place⟩ :: c :: earlier
    | [] => [⟨loc, place, [label], place, place⟩]
  ⟨groups, labels.values ++ value.toList, labels.hasDefault || label.isDefault⟩

def SwitchLabels.groupAt (labels : SwitchLabels) (place : Nat) : List CaseLabel :=
  match labels.groups with
  | c :: _ => if c.offset = place then c.labels else []
  | [] => []

def redundantBreak? (switch : Nat) : List Stmt → Option Location
  | .flow node .breakFlow target :: _ => if target.id = switch then some node.loc else none
  | _ => none

/-! Other expressions and locations in the labels -/

def CaseLabel.map (f : Expr → Expr) (g : Location → Location) : CaseLabel → CaseLabel
  | .value e => .value (f e)
  | .default loc => .default (g loc)

def Case.map (f : Expr → Expr) (g : Location → Location) (c : Case) : Case :=
  ⟨g c.loc, c.offset, c.labels.map (.map f g), c.first, c.stop⟩

def SwitchLabels.map (f : Expr → Expr) (g : Location → Location) (l : SwitchLabels) : SwitchLabels :=
  ⟨l.groups.map (.map f g), l.values, l.hasDefault⟩

section

variable (f : Expr → Expr) (g : Location → Location)

theorem CaseLabel.isDefault_map (l : CaseLabel) : (l.map f g).isDefault = l.isDefault := by
  cases l <;> rfl

theorem isCaseValue_map (l : CaseLabel) : isCaseValue (l.map f g) = isCaseValue l := by
  cases l <;> rfl

theorem labelProblem?_map (allow : Bool) (l : SwitchLabels) (group : List CaseLabel) (label : CaseLabel)
    (value : Option Value) :
    labelProblem? allow (l.map f g) (group.map (.map f g)) (label.map f g) value =
      labelProblem? allow l group label value := by
  have hvalue : isCaseValue ∘ CaseLabel.map f g = isCaseValue := funext (isCaseValue_map f g)
  have hdefault : CaseLabel.isDefault ∘ CaseLabel.map f g = CaseLabel.isDefault := funext (CaseLabel.isDefault_map f g)
  cases label with
  | default loc => simp only [labelProblem?, CaseLabel.map, SwitchLabels.map, List.any_map, hvalue]
  | value e =>
    cases value with
    | none => simp only [labelProblem?, CaseLabel.map, List.any_map, hdefault]
    | some v =>
      simp only [labelProblem?, CaseLabel.map, List.any_map, hdefault]
      rfl

theorem SwitchLabels.groupAt_map (l : SwitchLabels) (place : Nat) :
    (l.map f g).groupAt place = (l.groupAt place).map (.map f g) := by
  obtain ⟨groups, values, hasDefault⟩ := l
  cases groups with
  | nil => rfl
  | cons c earlier =>
    simp only [groupAt, map, List.map_cons, Case.map, apply_ite (List.map (CaseLabel.map f g)), List.map_nil]

theorem SwitchLabels.add_map (l : SwitchLabels) (place : Nat) (label : CaseLabel) (value : Option Value) (loc : Location) :
    (l.map f g).add place (label.map f g) value (g loc) = (l.add place label value loc).map f g := by
  obtain ⟨groups, values, hasDefault⟩ := l
  simp only [add, map, CaseLabel.isDefault_map, SwitchLabels.mk.injEq, and_true]
  cases groups with
  | nil => rfl
  | cons c earlier =>
    simp only [List.map_cons, Case.map]
    split <;> simp [Case.map]

theorem closeGroups_map (stop : Nat) (groups : List Case) :
    closeGroups stop (groups.map (.map f g)) = (closeGroups stop groups).map (.map f g) := by
  induction groups generalizing stop with
  | nil => rfl
  | cons c earlier ih => simp [closeGroups, Case.map, ih]

end

end GameScript
