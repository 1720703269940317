import GameScript.Lexer.Dialect
import GameScript.Token
import Mathlib.Data.List.Forall2
import Mathlib.Data.String.Basic

namespace GameScript

theorem toNat_of_isAlpha {c : Char} (h : c.isAlpha = true) : 65 ≤ c.toNat ∧ c.toNat ≤ 122 := by
  have hletter : (decide (c.val ≥ 65 ∧ c.val ≤ 90) || decide (c.val ≥ 97) && decide (c.val ≤ 122)) = true := h
  simp only [Bool.or_eq_true, Bool.and_eq_true, decide_eq_true_eq, ge_iff_le, UInt32.le_iff_toNat_le,
    Char.toNat_val] at hletter
  have hbounds : (65 : UInt32).toNat = 65 ∧ (90 : UInt32).toNat = 90 ∧ (97 : UInt32).toNat = 97 ∧ (122 : UInt32).toNat = 122 := by
    decide
  omega

theorem isDigit_of_isAlpha {c : Char} (h : c.isAlpha = true) : c.isDigit = false := by
  refine Bool.eq_false_iff.2 fun hd => ?_
  have hnine : c.toNat ≤ 57 := (Char.isDigit_iff_toNat.1 hd).2
  have hletter := toNat_of_isAlpha h
  omega

theorem forall_isAlpha {P : Char → Prop} (hp : ∀ n : Fin 128, (Char.ofNat n).isAlpha = true → P (Char.ofNat n)) (c : Char)
    (h : c.isAlpha = true) : P c := by
  have hlt : c.toNat < 128 := by
    have := toNat_of_isAlpha h
    omega
  have hc := hp ⟨c.toNat, hlt⟩
  rw [Char.ofNat_toNat] at hc
  exact hc h

def SameLetter (a b : Char) : Prop :=
  a = b ∨ a.isAlpha = true ∧ b.isAlpha = true ∧ a.toLower = b.toLower

namespace SameLetter

variable {a b : Char}

theorem refl (a : Char) : SameLetter a a :=
  .inl rfl

theorem symm (h : SameLetter a b) : SameLetter b a :=
  h.imp Eq.symm fun h => ⟨h.2.1, h.1, h.2.2.symm⟩

theorem congr {α : Type} {f : Char → α} {y : α} (h : SameLetter a b) (hf : ∀ c, c.isAlpha = true → f c = y) : f a = f b := by
  obtain rfl | ⟨ha, hb, -⟩ := h
  · rfl
  · rw [hf a ha, hf b hb]

end SameLetter

theorem isHexDigit_toLower {c : Char} (h : c.isAlpha = true) : isHexDigit c.toLower = isHexDigit c :=
  forall_isAlpha (P := fun c => isHexDigit c.toLower = isHexDigit c) (by decide +kernel) c h

theorem eq_x_of_toLower {c : Char} (h : c.isAlpha = true) (hx : c.toLower = 'x') : c = 'x' ∨ c = 'X' :=
  forall_isAlpha (P := fun c => c.toLower = 'x' → c = 'x' ∨ c = 'X') (by decide +kernel) c h hx

theorem plain_of_isAlpha {c : Char} (h : c.isAlpha = true) : isBlank c = false ∧ c ∉ symbolChars ∧ c ≠ '\x22' ∧ c ≠ '\x27' ∧ c ≠ '\n' :=
  forall_isAlpha (P := fun c => isBlank c = false ∧ c ∉ symbolChars ∧ c ≠ '\x22' ∧ c ≠ '\x27' ∧ c ≠ '\n') (by decide +kernel) c h

theorem next_of_isAlpha {c : Char} (h : c.isAlpha = true) (loc : Location) :
    loc.next c = ⟨loc.line, loc.column + 1, loc.offset + 1⟩ := by
  have hsize : c.utf8Size = 1 := forall_isAlpha (P := fun c => c.utf8Size = 1) (by decide +kernel) c h
  rw [Location.next, if_neg (plain_of_isAlpha h).2.2.2.2, hsize]

namespace SameLetter

variable {a b : Char} {d : Dialect}

theorem next (h : SameLetter a b) (loc : Location) : loc.next a = loc.next b :=
  h.congr fun _ hc => next_of_isAlpha hc loc

theorem isDigit (h : SameLetter a b) : a.isDigit = b.isDigit :=
  h.congr fun _ => isDigit_of_isAlpha

theorem isBlank (h : SameLetter a b) : isBlank a = isBlank b :=
  h.congr fun _ hc => (plain_of_isAlpha hc).1

theorem isWordStart (h : SameLetter a b) : d.isWordStart a = d.isWordStart b :=
  h.congr (y := true) fun c hc => by simp [Dialect.isWordStart, hc]

theorem isWordChar (h : SameLetter a b) : d.isWordChar a = d.isWordChar b :=
  h.congr (y := true) fun c hc => by simp [Dialect.isWordChar, Char.isAlphanum, hc]

theorem isHexDigit (h : SameLetter a b) : isHexDigit a = isHexDigit b := by
  obtain rfl | ⟨ha, hb, hl⟩ := h
  · rfl
  · rw [← isHexDigit_toLower ha, ← isHexDigit_toLower hb, hl]

theorem eq_iff (h : SameLetter a b) {c : Char} (hc : c.isAlpha = false) : a = c ↔ b = c := by
  obtain rfl | ⟨ha, hb, -⟩ := h
  · rfl
  · refine ⟨?_, ?_⟩ <;> rintro rfl
    · rw [hc] at ha; cases ha
    · rw [hc] at hb; cases hb

theorem eq_x (h : SameLetter a b) (ha : a = 'x' ∨ a = 'X') : b = 'x' ∨ b = 'X' := by
  obtain rfl | ⟨-, hb, hl⟩ := h
  · exact ha
  · refine eq_x_of_toLower hb (hl.symm.trans ?_)
    obtain rfl | rfl := ha <;> decide

end SameLetter

def SameLetters (cs cs' : List Char) : Prop :=
  List.Forall₂ SameLetter cs cs'

theorem sameWord_keyword {mode : GameMode} {t : Token} {k : Keyword} (h : t.keyword? mode = some k) :
    sameWord k.spelling t.text = true := by
  have hlower : lowerWord k.spelling = k.spelling := by cases k <;> decide +kernel
  unfold Token.keyword? at h
  split at h
  · have := List.find?_some h
    simp only [Bool.and_eq_true, beq_iff_eq] at this
    rw [sameWord_iff, hlower, this.1]
  · cases h

end GameScript
