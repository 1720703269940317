import GameScript.Fold.Evaluate
import GameScript.Proofs.Everywhere
import Mathlib.Tactic.Positivity

/-!
Folding of integer expressions against arithmetic without bounds. What is folded is the exact result, and so
is the result of every part; where one is not a number of 64 bits, nothing is folded. The exception is a left
shift, which loses the bits that it pushes out.
-/

namespace GameScript

namespace Fold

/-- The result of an operator on integers without bounds. Division truncates towards zero, and a shift to the
right rounds down. -/
def exactBinary? (op : Operator) (l r : Int) : Option Int :=
  match op with
  | .plus => some (l + r)
  | .minus => some (l - r)
  | .star => some (l * r)
  | .slash => if r = 0 then none else some (l.tdiv r)
  | .percent => if r = 0 then none else some (l.tmod r)
  | .shl => if r < 0 then none else some (l * 2 ^ r.toNat)
  | .shr => if r < 0 then none else some (l.fdiv (2 ^ r.toNat))
  | _ => none

theorem bind_ok {α β : Type} {x : Except FoldError α} {f : α → Except FoldError β} {b : β} (h : x.bind f = .ok b) :
    ∃ a, x = .ok a ∧ f a = .ok b := by
  cases x with
  | error => cases h
  | ok a => exact ⟨a, rfl, h⟩

def isArithmetic : Operator → Bool
  | .plus | .minus | .star | .slash | .percent | .shl | .shr => true
  | _ => false

theorem isLogical_of_isArithmetic {op : Operator} (h : isArithmetic op = true) : isLogical op = false := by
  cases op <;> first | rfl | cases h

/-- What an operator asks for beyond an exact result that fits. A remainder is not folded without its quotient, nor
a shift by 64 places or more. -/
def Feasible (op : Operator) (l r : Int) : Prop :=
  match op with
  | .percent => Decimal.inRange64 (l.tdiv r) = true
  | .shl | .shr => r < 64
  | _ => True

end Fold

namespace Expr

inductive IsIntegral : Expr → Prop
  | literal {node : Node} {l : Literal} {i : Int64} (hk : l.kind = .integer) (hv : l.value = .ok (.int i)) :
      IsIntegral (.literal node l)
  | group {node : Node} {inner : Expr} (h : IsIntegral inner) : IsIntegral (.group node inner)
  | negate {node : Node} {operand : Expr} (h : IsIntegral operand) : IsIntegral (.unary node .negate operand)
  | binary {node : Node} {op : Operator} {left right : Expr} (ho : Fold.isArithmetic op = true)
      (hl : IsIntegral left) (hr : IsIntegral right) : IsIntegral (.binary node op left right)

def exactInt? : Expr → Option Int
  | literal _ l =>
    match l.value with
    | .ok (.int i) => some i.toInt
    | _ => none
  | group _ inner => inner.exactInt?
  | unary _ .negate operand => operand.exactInt?.map (-·)
  | binary _ op left right => left.exactInt?.bind fun l => right.exactInt?.bind fun r => Fold.exactBinary? op l r
  | _ => none

/-- No left shift in the expression, by less than 64 places, pushes bits out. -/
def KeepsBits (e : Expr) : Prop :=
  (View.expr e).Everywhere fun v => ∀ node left right, v = .expr (.binary node .shl left right) →
    ∀ l ∈ left.exactInt?, ∀ r ∈ right.exactInt?, 0 ≤ r → r < 64 → Decimal.inRange64 (l * 2 ^ r.toNat) = true

def Bounded (e : Expr) : Prop :=
  (View.expr e).Everywhere fun v => ∀ part, v = .expr part → ∃ i : Int64, part.exactInt? = some i.toInt

def Feasible (e : Expr) : Prop :=
  (View.expr e).Everywhere fun v => ∀ node op left right, v = .expr (.binary node op left right) →
    ∀ l ∈ left.exactInt?, ∀ r ∈ right.exactInt?, Fold.Feasible op l r

theorem keepsBits_iff {e : Expr} : e.KeepsBits ↔
    (∀ node left right, e = .binary node .shl left right → ∀ l ∈ left.exactInt?, ∀ r ∈ right.exactInt?, 0 ≤ r → r < 64 →
      Decimal.inRange64 (l * 2 ^ r.toNat) = true) ∧ ∀ c ∈ e.children, c.KeepsBits := by
  unfold KeepsBits
  rw [View.everywhere_expr]
  simp only [View.expr.injEq]

theorem bounded_iff {e : Expr} :
    e.Bounded ↔ (∃ i : Int64, e.exactInt? = some i.toInt) ∧ ∀ c ∈ e.children, c.Bounded := by
  unfold Bounded
  rw [View.everywhere_expr]
  simp only [View.expr.injEq, forall_eq']

theorem feasible_iff {e : Expr} : e.Feasible ↔
    (∀ node op left right, e = .binary node op left right → ∀ l ∈ left.exactInt?, ∀ r ∈ right.exactInt?,
      Fold.Feasible op l r) ∧ ∀ c ∈ e.children, c.Feasible := by
  unfold Feasible
  rw [View.everywhere_expr]
  simp only [View.expr.injEq]

end Expr

namespace Decimal

theorem inRange64_iff {i : Int} : inRange64 i = true ↔ -2 ^ 63 ≤ i ∧ i < 2 ^ 63 := by
  simp [inRange64, Int.pow]

theorem inRange64_toInt (i : Int64) : inRange64 i.toInt = true :=
  inRange64_iff.2 ⟨i.le_toInt, i.toInt_lt⟩

theorem toInt_ofInt {i : Int} (h : inRange64 i = true) : (Int64.ofInt i).toInt = i := by
  obtain ⟨hle, hlt⟩ := inRange64_iff.1 h
  exact Int64.toInt_ofInt_of_le hle hlt

end Decimal

namespace Fold

theorem checked_ok {i : Int} {v : Value} (h : checked i = .ok v) : ∃ j : Int64, v = .int j ∧ j.toInt = i := by
  unfold checked at h
  split at h
  · next hr =>
    cases h
    exact ⟨_, rfl, Decimal.toInt_ofInt hr⟩
  · cases h

theorem inRange64_ediv (l : Int64) {d : Int} (hd : 0 < d) : Decimal.inRange64 (l.toInt / d) = true := by
  have hle := l.le_toInt
  have hlt := l.toInt_lt
  refine Decimal.inRange64_iff.2 ⟨Int.le_ediv_of_mul_le hd ?_, Int.ediv_lt_of_lt_mul hd ?_⟩
  · omega
  · omega

theorem shifted_ok {op : Operator} {l r : Int64} {v : Value} (h : shifted op l r = .ok v) :
    0 ≤ r.toInt ∧ r.toInt < 64 ∧ ∃ j : Int64, v = .int j ∧
      (op = .shl → j = Int64.ofInt (l.toInt * 2 ^ r.toInt.toNat)) ∧
      (op ≠ .shl → j.toInt = l.toInt.fdiv (2 ^ r.toInt.toNat)) := by
  unfold shifted at h
  split at h
  · next hr =>
    refine ⟨hr.1, hr.2, ?_⟩
    split at h
    · next ho =>
      cases h
      exact ⟨_, rfl, fun _ => rfl, fun hn => (hn ho).elim⟩
    · next ho =>
      cases h
      refine ⟨_, rfl, fun he => (ho he).elim, fun _ => ?_⟩
      have hpos : (0 : Int) < 2 ^ r.toInt.toNat := by positivity
      rw [Int.fdiv_eq_ediv_of_nonneg _ hpos.le]
      exact Decimal.toInt_ofInt (inRange64_ediv l hpos)
  · cases h

theorem binary_ok {op : Operator} {l r : Int64} {v : Value} (ho : isArithmetic op = true)
    (h : binary op (.int l) (.int r) = .ok v)
    (hk : op = .shl → 0 ≤ r.toInt → r.toInt < 64 → Decimal.inRange64 (l.toInt * 2 ^ r.toInt.toNat) = true) :
    ∃ j : Int64, v = .int j ∧ exactBinary? op l.toInt r.toInt = some j.toInt := by
  have hne (hr : ¬ r = 0) : ¬ r.toInt = 0 := fun h => hr (Int64.toInt_inj.1 h)
  have hchecked {i : Int} (h : checked i = .ok v) : ∃ j : Int64, v = .int j ∧ some i = some j.toInt := by
    obtain ⟨j, hv, rfl⟩ := checked_ok h
    exact ⟨j, hv, rfl⟩
  cases op <;> simp only [isArithmetic, Bool.false_eq_true] at ho <;>
    simp only [binary, integers?, Option.getD_some] at h <;> simp only [exactBinary?]
  case plus | minus | star => exact hchecked h
  case slash =>
    split at h
    · cases h
    · next hr =>
      rw [if_neg (hne hr)]
      exact hchecked h
  case percent =>
    split at h
    · cases h
    · next hr =>
      -- The quotient is checked as well: the least number has no quotient by minus one.
      obtain ⟨_, -, hrest⟩ := bind_ok h
      rw [if_neg (hne hr)]
      exact hchecked hrest
  case shl =>
    obtain ⟨hle, hlt, j, hv, hj, -⟩ := shifted_ok h
    have hexact : j.toInt = l.toInt * 2 ^ r.toInt.toNat := by
      rw [hj rfl, Decimal.toInt_ofInt (hk rfl hle hlt)]
    rw [if_neg (by omega), ← hexact]
    exact ⟨j, hv, rfl⟩
  case shr =>
    obtain ⟨hle, -, j, hv, -, hj⟩ := shifted_ok h
    rw [if_neg (by omega), ← hj (by decide)]
    exact ⟨j, hv, rfl⟩

theorem binary_feasible {op : Operator} {l r j : Int64} (hj : exactBinary? op l.toInt r.toInt = some j.toInt)
    (hf : Feasible op l.toInt r.toInt) : ∃ v, binary op (.int l) (.int r) = .ok v := by
  have hchecked {i : Int} (h : some i = some j.toInt) : ∃ v, checked i = .ok v := by
    obtain rfl := Option.some.inj h
    exact ⟨_, if_pos (Decimal.inRange64_toInt j)⟩
  have hshifted (hr : ¬ r.toInt < 0) (hlt : r.toInt < 64) : ∃ v, shifted op l r = .ok v := by
    unfold shifted
    rw [if_pos ⟨by omega, hlt⟩]
    split <;> exact ⟨_, rfl⟩
  cases op <;> simp only [exactBinary?, reduceCtorEq] at hj <;> simp only [binary, integers?, Option.getD_some]
  case plus | minus | star => exact hchecked hj
  case slash =>
    split at hj
    · cases hj
    · next hr =>
      rw [if_neg (mt (congrArg Int64.toInt) hr)]
      exact hchecked hj
  case percent =>
    split at hj
    · cases hj
    · next hr =>
      rw [if_neg (mt (congrArg Int64.toInt) hr), checked, if_pos (show Decimal.inRange64 _ = true from hf)]
      exact hchecked hj
  case shl | shr =>
    split at hj
    · cases hj
    · next hr => exact hshifted hr hf

variable {lookup : String → Option Value}

theorem evaluate_ok {e : Expr} {v : Value} (he : e.IsIntegral) (hk : e.KeepsBits)
    (h : evaluate lookup e = .ok v) : e.Bounded ∧ ∃ i : Int64, v = .int i ∧ e.exactInt? = some i.toInt := by
  have hnode {e : Expr} {i : Int64} (hi : e.exactInt? = some i.toInt) (hc : ∀ c ∈ e.children, c.Bounded) : e.Bounded :=
    Expr.bounded_iff.2 ⟨⟨i, hi⟩, hc⟩
  induction he generalizing v with
  | @literal node l i _ hv =>
    simp only [evaluate, hv] at h
    cases h
    have hi : (Expr.literal node l).exactInt? = some i.toInt := by simp only [Expr.exactInt?, hv]
    exact ⟨hnode hi (by simp [Expr.children]), i, rfl, hi⟩
  | @group node inner _ ih =>
    obtain ⟨-, hk⟩ := Expr.keepsBits_iff.1 hk
    obtain ⟨hb, i, rfl, hi⟩ := ih (hk inner (by simp [Expr.children])) h
    exact ⟨hnode hi (by simpa [Expr.children] using hb), i, rfl, hi⟩
  | @negate node operand _ ih =>
    obtain ⟨-, hk⟩ := Expr.keepsBits_iff.1 hk
    obtain ⟨u, hu, h⟩ := bind_ok h
    obtain ⟨hb, i, rfl, hi⟩ := ih (hk operand (by simp [Expr.children])) hu
    obtain ⟨j, rfl, hj⟩ := checked_ok h
    have hexact : (Expr.unary node .negate operand).exactInt? = some j.toInt := by simp [Expr.exactInt?, hi, hj]
    exact ⟨hnode hexact (by simpa [Expr.children] using hb), j, rfl, hexact⟩
  | @binary node op left right ho _ _ ihl ihr =>
    obtain ⟨hshl, hk⟩ := Expr.keepsBits_iff.1 hk
    simp only [evaluate, isLogical_of_isArithmetic ho, Bool.false_eq_true, if_false] at h
    obtain ⟨u, hu, h⟩ := bind_ok h
    obtain ⟨w, hw, h⟩ := bind_ok h
    obtain ⟨hbl, l, rfl, hl⟩ := ihl (hk left (by simp [Expr.children])) hu
    obtain ⟨hbr, r, rfl, hr⟩ := ihr (hk right (by simp [Expr.children])) hw
    obtain ⟨j, rfl, hj⟩ := binary_ok ho h (by rintro rfl; exact hshl node left right rfl _ hl _ hr)
    have hexact : (Expr.binary node op left right).exactInt? = some j.toInt := by simp [Expr.exactInt?, hl, hr, hj]
    exact ⟨hnode hexact (by simp [Expr.children, hbl, hbr]), j, rfl, hexact⟩

theorem evaluate_isOk {e : Expr} (he : e.IsIntegral) (hk : e.KeepsBits) (hb : e.Bounded) (hf : e.Feasible) :
    ∃ v, evaluate lookup e = .ok v := by
  induction he with
  | @literal node l i _ hv => exact ⟨.int i, by simp only [evaluate, hv]⟩
  | @group node inner _ ih =>
    obtain ⟨-, hk⟩ := Expr.keepsBits_iff.1 hk
    obtain ⟨-, hb⟩ := Expr.bounded_iff.1 hb
    obtain ⟨-, hf⟩ := Expr.feasible_iff.1 hf
    have hmem : inner ∈ (Expr.group node inner).children := by simp [Expr.children]
    exact ih (hk _ hmem) (hb _ hmem) (hf _ hmem)
  | @negate node operand he ih =>
    obtain ⟨-, hk⟩ := Expr.keepsBits_iff.1 hk
    obtain ⟨⟨j, hj⟩, hb⟩ := Expr.bounded_iff.1 hb
    obtain ⟨-, hf⟩ := Expr.feasible_iff.1 hf
    have hmem : operand ∈ (Expr.unary node .negate operand).children := by simp [Expr.children]
    obtain ⟨v, hv⟩ := ih (hk _ hmem) (hb _ hmem) (hf _ hmem)
    obtain ⟨-, i, rfl, hi⟩ := evaluate_ok he (hk _ hmem) hv
    have hexact : -i.toInt = j.toInt := by simpa [Expr.exactInt?, hi] using hj
    have hchecked : unary .negate (.int i) = .ok (.int j) := by
      rw [unary, hexact, checked, if_pos (Decimal.inRange64_toInt j), Int64.ofInt_toInt]
    exact ⟨.int j, by rw [evaluate, hv, Except.bind, hchecked]⟩
  | @binary node op left right ho hl hr ihl ihr =>
    obtain ⟨-, hk⟩ := Expr.keepsBits_iff.1 hk
    obtain ⟨⟨j, hj⟩, hb⟩ := Expr.bounded_iff.1 hb
    obtain ⟨hnode, hf⟩ := Expr.feasible_iff.1 hf
    have hleft : left ∈ (Expr.binary node op left right).children := by simp [Expr.children]
    have hright : right ∈ (Expr.binary node op left right).children := by simp [Expr.children]
    obtain ⟨u, hu⟩ := ihl (hk _ hleft) (hb _ hleft) (hf _ hleft)
    obtain ⟨w, hw⟩ := ihr (hk _ hright) (hb _ hright) (hf _ hright)
    obtain ⟨-, l, rfl, hl⟩ := evaluate_ok hl (hk _ hleft) hu
    obtain ⟨-, r, rfl, hr⟩ := evaluate_ok hr (hk _ hright) hw
    have hexact : exactBinary? op l.toInt r.toInt = some j.toInt := by simpa [Expr.exactInt?, hl, hr] using hj
    obtain ⟨v, hv⟩ := binary_feasible hexact (hnode node op left right rfl _ hl _ hr)
    exact ⟨v, by rw [evaluate, if_neg (by simp [isLogical_of_isArithmetic ho]), hu, hw]; exact hv⟩

/-- Integer arithmetic does not wrap, as long as no left shift pushes bits out: what has a value is folded to its
exact result, and nothing is folded if the exact result of some part is no number of 64 bits. Where all of them are,
and the operators get what they ask for, there is a value. -/
theorem evaluate_exact {e : Expr} (he : e.IsIntegral) (hk : e.KeepsBits) :
    (∀ v, evaluate lookup e = .ok v → ∃ i : Int64, v = .int i ∧ e.exactInt? = some i.toInt) ∧
      ((∃ part i, View.expr part ∈ (View.expr e).walk ∧ part.exactInt? = some i ∧ Decimal.inRange64 i = false) →
        ∃ reason, evaluate lookup e = .error reason) ∧
      (e.Bounded → e.Feasible → ∃ v, evaluate lookup e = .ok v) := by
  refine ⟨fun v h => (evaluate_ok he hk h).2, ?_, evaluate_isOk he hk⟩
  rintro ⟨part, i, hmem, hi, hrange⟩
  cases h : evaluate lookup e with
  | error reason => exact ⟨reason, rfl⟩
  | ok v =>
    obtain ⟨j, hj⟩ := (evaluate_ok he hk h).1 _ hmem part rfl
    obtain rfl : i = j.toInt := Option.some.inj (hi.symm.trans hj)
    rw [Decimal.inRange64_toInt] at hrange
    cases hrange

end Fold

theorem evaluate_exact_shift :
    let e : Expr := .binary ⟨4, .start⟩ .shl
      (.binary ⟨2, .start⟩ .slash (.literal ⟨0, .start⟩ ⟨.integer, "7", false⟩)
        (.literal ⟨1, ⟨1, 5, 4⟩⟩ ⟨.integer, "2", false⟩))
      (.literal ⟨3, ⟨1, 10, 9⟩⟩ ⟨.integer, "1", false⟩)
    (e.IsIntegral ∧ e.KeepsBits) ∧
      (∀ v, Fold.evaluate (fun _ => none) e = .ok v → ∃ i : Int64, v = .int i ∧ e.exactInt? = some i.toInt) ∧
      ((∃ part i, View.expr part ∈ (View.expr e).walk ∧ part.exactInt? = some i ∧ Decimal.inRange64 i = false) →
        ∃ reason, Fold.evaluate (fun _ => none) e = .error reason) ∧
      (e.Bounded → e.Feasible → ∃ v, Fold.evaluate (fun _ => none) e = .ok v) := by
  intro e
  have he : e.IsIntegral := .binary rfl (.binary rfl (.literal rfl rfl) (.literal rfl rfl)) (.literal rfl rfl)
  have hliteral (node : Node) (l : Literal) : (Expr.literal node l).KeepsBits :=
    Expr.keepsBits_iff.2 ⟨by rintro _ _ _ ⟨⟩, by simp [Expr.children]⟩
  have hquotient : (Expr.binary ⟨2, .start⟩ .slash (.literal ⟨0, .start⟩ ⟨.integer, "7", false⟩)
      (.literal ⟨1, ⟨1, 5, 4⟩⟩ ⟨.integer, "2", false⟩)).KeepsBits :=
    Expr.keepsBits_iff.2 ⟨by rintro _ _ _ ⟨⟩, by simp [Expr.children, hliteral]⟩
  have hk : e.KeepsBits := by
    refine Expr.keepsBits_iff.2 ⟨?_, by simp [e, Expr.children, hliteral, hquotient]⟩
    intro node left right h
    simp only [e] at h
    cases h
    decide
  exact ⟨⟨he, hk⟩, Fold.evaluate_exact he hk⟩

theorem shift_pushes_bit_out :
    let e : Expr := .binary ⟨2, .start⟩ .shl (.literal ⟨0, .start⟩ ⟨.integer, "1", false⟩)
      (.literal ⟨1, ⟨1, 6, 5⟩⟩ ⟨.integer, "63", false⟩)
    e.IsIntegral ∧ e.exactInt? = some (2 ^ 63) ∧ Decimal.inRange64 (2 ^ 63) = false ∧
      Fold.evaluate (fun _ => none) e = .ok (.int Int64.minValue) := by
  intro e
  exact ⟨.binary rfl (.literal rfl rfl) (.literal rfl rfl), by decide, by decide, rfl⟩

end GameScript
