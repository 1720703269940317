import GameScript.Decimal.Read
import Mathlib

namespace GameScript.Decimal

open Float.Model UnpackedFloat

theorem float_eq_of_beq {x y : Float} (h : (x == y) = true) (hx : x ≠ -0) (hy : y ≠ -0) : x = y := by
  obtain ⟨-, -, h | ⟨-, h⟩ | ⟨h, -⟩⟩ := Float.beq_iff_ne_nan_and_eq.1 h
  · exact h
  · exact (hy h).elim
  · exact (hx h).elim

theorem toBits_ofBits (b : UInt64) : (Float.ofBits b).toBits.toBitVec =
    if @isNaNBits .binary64 b.toBitVec then packedNaN .binary64 else b.toBitVec :=
  @pack_unpack .binary64 b.toBitVec (by decide)

theorem toBits_negZero : (-0 : Float).toBits = 0x8000000000000000 := by
  decide +kernel

theorem ofBits_ne_negZero {n : Nat} (h : n < 2 ^ 63) : Float.ofBits (UInt64.ofNat n) ≠ -0 := by
  intro he
  have hbits : (Float.ofBits (UInt64.ofNat n)).toBits.toBitVec = (-0 : Float).toBits.toBitVec := by rw [he]
  rw [toBits_ofBits, toBits_negZero] at hbits
  split at hbits
  · exact absurd hbits (by decide)
  · have hn := congrArg BitVec.toNat hbits
    simp only [UInt64.toNat_toBitVec, UInt64.toNat_ofNat', UInt64.toBitVec_ofNat, BitVec.toNat_ofNat] at hn
    omega

theorem isNaNBits_ofNat {n : Nat} (h : n ≤ infinityBits) : @isNaNBits .binary64 (UInt64.ofNat n).toBitVec = false := by
  have hbits : infinityBits = 2047 * 2 ^ 52 := by decide
  simp only [isNaNBits, decide_eq_false_iff_not, not_and, not_not]
  intro he
  have hexp := congrArg BitVec.toNat he
  apply BitVec.eq_of_toNat_eq
  simp [unpackExponent, unpackMantissa, Format.binary64] at hexp ⊢
  omega

theorem toBits_nan : Float.nan.toBits = 0x7ff8000000000000 := by
  decide +kernel

theorem ofBits_ne_nan {n : Nat} (h : n ≤ infinityBits) : Float.ofBits (UInt64.ofNat n) ≠ Float.nan := by
  intro he
  have hbits : (Float.ofBits (UInt64.ofNat n)).toBits.toBitVec = Float.nan.toBits.toBitVec := by rw [he]
  rw [toBits_ofBits, isNaNBits_ofNat h, toBits_nan] at hbits
  have hn : n % 2 ^ 64 = 0x7ff8000000000000 := congrArg BitVec.toNat hbits
  have hinf : infinityBits = 2047 * 2 ^ 52 := by decide
  omega

theorem beq_self_of_ne_nan {x : Float} (h : x ≠ Float.nan) : (x == x) = true :=
  Float.beq_iff_ne_nan_and_eq.2 ⟨h, h, .inl rfl⟩

theorem nearestBits_le (num den : Nat) : nearestBits num den ≤ infinityBits := by
  unfold nearestBits
  split
  · exact Nat.zero_le _
  · exact Nat.min_le_left _ _

theorem infinityBits_lt : infinityBits + Nat.pow 2 51 < 2 ^ 63 := by
  decide

theorem nearest_ne_negZero (num den : Nat) : nearest false num den ≠ -0 :=
  ofBits_ne_negZero (Nat.lt_of_le_of_lt (Nat.le_trans (nearestBits_le num den) (Nat.le_add_right _ _)) infinityBits_lt)

theorem infinity_ne_negZero : infinity false ≠ -0 :=
  ofBits_ne_negZero (Nat.lt_of_le_of_lt (Nat.le_add_right _ _) infinityBits_lt)

theorem nan_ne_negZero : nan ≠ -0 :=
  ofBits_ne_negZero infinityBits_lt

theorem nearestDecimal_ne_negZero (digits count : Nat) (exponent : Int) :
    nearestDecimal false digits count exponent ≠ -0 := by
  unfold nearestDecimal
  split
  · exact nearest_ne_negZero 0 1
  split
  · exact infinity_ne_negZero
  · exact nearest_ne_negZero _ _

theorem nearestDecimal_ne_nan (digits count : Nat) (exponent : Int) :
    nearestDecimal false digits count exponent ≠ Float.nan := by
  unfold nearestDecimal
  split
  · exact ofBits_ne_nan (nearestBits_le 0 1)
  split
  · exact ofBits_ne_nan (Nat.le_refl _)
  · exact ofBits_ne_nan (nearestBits_le _ _)

theorem readUnsigned?_ne_negZero {text : List Char} {x : Float} (h : readUnsigned? false text = some x) : x ≠ -0 := by
  unfold readUnsigned? at h
  simp only at h
  split at h
  · cases h
    exact infinity_ne_negZero
  split at h
  · cases h
    exact nan_ne_negZero
  have hdigits {digits count : Nat} {exponent? : Option Int} {places : Int} {empty : Bool}
      (h : (if empty = true then none else exponent?.map fun exponent =>
        nearestDecimal false digits count (exponent - places)) = some x) : x ≠ -0 := by
    split at h
    · cases h
    · obtain ⟨_, -, rfl⟩ := Option.map_eq_some_iff.1 h
      exact nearestDecimal_ne_negZero _ _ _
  split at h <;> exact hdigits h

theorem readFloat?_ne_negZero {text : String} {x : Float} (ht : text.toList.head? ≠ some '-')
    (h : readFloat? text = some x) : x ≠ -0 := by
  unfold readFloat? at h
  split at h
  · next rest htext => simp [htext] at ht
  · exact readUnsigned?_ne_negZero h
  · exact readUnsigned?_ne_negZero h

end GameScript.Decimal
