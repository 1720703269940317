import GameScript.Lexer.Lexer
import GameScript.Proofs.LetterCase
import Mathlib.Data.List.TakeWhile

namespace GameScript

namespace Scan

/-- The text behind a token does not make another token of it. -/
def Stops (d : Dialect) (afterValue : Bool) (kind : TokenKind) (text rest : List Char) : Prop :=
  match kind with
  | .identifier | .resource => ∀ x ∈ rest.head?, d.isWordChar x = false
  | .number => ∀ x ∈ rest.head?, d.isWordChar x = false ∧
      (x = '.' → ∀ y ∈ rest.tail.head?, y.isDigit = false)
  | .symbol => ∀ x ∈ rest.head?, (text = ['/'] → x ≠ '/' ∧ x ≠ '*') ∧ (text = ['&'] → x ≠ '\x22') ∧
      (text = ['%'] → afterValue = true ∨ d.isWordStart x = false) ∧
      (text = ['.'] → afterValue = true ∨ x.isDigit = false)
  | .whitespace => ∀ x ∈ rest.head?, isBlank x = false
  | .string | .metaString => True
  | .comment | .eof => False

theorem takeWhile_append {p : Char → Bool} {cs rest : List Char} (hc : ∀ c ∈ cs, p c = true)
    (hr : ∀ x ∈ rest.head?, p x = false) :
    (cs ++ rest).takeWhile p = cs ∧ (cs ++ rest).dropWhile p = rest := by
  induction cs with
  | nil =>
    cases rest with
    | nil => simp
    | cons x rest => simp [hr x rfl]
  | cons c cs ih =>
    obtain ⟨ht, hd⟩ := ih fun c h => hc c (List.mem_cons_of_mem _ h)
    simp [hc c, ht, hd]

theorem quoted_behind {quote : Char} {text rest rest' : List Char}
    (h : quoted quote (text ++ rest) = some (text, rest)) : quoted quote (text ++ rest') = some (text, rest') := by
  suffices hq : ∀ cs text rest, quoted quote cs = some (text, rest) →
      ∀ rest', quoted quote (text ++ rest') = some (text, rest') from hq _ _ _ h rest'
  clear h
  intro cs
  fun_induction quoted quote cs with
  | case1 => intro _ _ h; cases h
  | case2 => intro _ _ h; cases h
  | case3 d cs ih =>
    intro text rest h rest'
    simp only [Option.map_eq_some_iff, Prod.mk.injEq, Prod.exists] at h
    obtain ⟨a, b, hab, rfl, rfl⟩ := h
    rw [List.cons_append, List.cons_append, quoted, if_pos rfl]
    simp only [ih a b hab rest', Option.map_some]
  | case4 c hc =>
    intro text rest h rest'
    simp only [Option.some.injEq, Prod.mk.injEq] at h
    obtain ⟨rfl, rfl⟩ := h
    rw [List.singleton_append, quoted.eq_def]
    simp only [hc, if_false, if_true]
  | case5 c cs hb hq ih =>
    intro text rest h rest'
    simp only [Option.map_eq_some_iff, Prod.mk.injEq, Prod.exists] at h
    obtain ⟨a, b, hab, rfl, rfl⟩ := h
    rw [List.cons_append, quoted.eq_def]
    simp only [hb, hq, if_false, ih a b hab rest', Option.map_some]

theorem word_behind {kind kind' : TokenKind} {p : Char → Bool} {c : Char} {cs rest rest' : List Char}
    (h : word kind p c (cs ++ rest) = .token kind' (c :: cs) rest) (hr : ∀ x ∈ rest'.head?, p x = false) :
    word kind p c (cs ++ rest') = .token kind' (c :: cs) rest' := by
  simp only [word, Scan.token.injEq, List.cons.injEq, true_and] at h ⊢
  obtain ⟨rfl, ht, -⟩ := h
  have hc : ∀ x ∈ cs, p x = true := by
    intro x hx
    rw [← ht] at hx
    exact List.mem_takeWhile_imp hx
  exact ⟨rfl, takeWhile_append hc hr⟩

theorem string_behind {kind kind' : TokenKind} {quote : Char} {opening text rest rest' : List Char}
    (h : string kind quote opening (text ++ rest) = .token kind' (opening ++ text) rest) :
    string kind quote opening (text ++ rest') = .token kind' (opening ++ text) rest' := by
  unfold string at h ⊢
  split at h
  · next t l hq =>
    simp only [Scan.token.injEq, List.append_cancel_left_eq] at h
    obtain ⟨rfl, rfl, rfl⟩ := h
    simp [quoted_behind hq]
  · cases h

theorem commentBody_behind {text rest : List Char} (h : commentBody (text ++ rest) = some (text, rest))
    (rest' : List Char) : commentBody (text ++ rest') = some (text, rest') := by
  suffices hq : ∀ cs text rest, commentBody cs = some (text, rest) → commentBody (text ++ rest') = some (text, rest') from
    hq _ _ _ h
  clear h
  intro cs
  induction cs with
  | nil => intro _ _ h; cases h
  | cons c cs ih =>
    intro text rest h
    rw [commentBody] at h
    split at h
    · next hc =>
      simp only [Option.some.injEq, Prod.mk.injEq] at h
      obtain ⟨rfl, -⟩ := h
      simp [commentBody, hc.1]
    · next hc =>
      simp only [Option.map_eq_some_iff, Prod.mk.injEq, Prod.exists] at h
      obtain ⟨a, b, hab, rfl, rfl⟩ := h
      have hcs := commentBody_append hab
      have hne : a ≠ [] := by
        rintro rfl
        cases cs with
        | nil => cases hab
        | cons x xs =>
          rw [commentBody] at hab
          split at hab
          · simp at hab
          · simp at hab
      obtain ⟨x, xs, rfl⟩ := List.exists_cons_of_ne_nil hne
      have hc' : ¬(c = '*' ∧ (x :: xs ++ rest').head? = some '/') := by
        rw [← hcs] at hc
        simpa using hc
      rw [List.cons_append, commentBody, if_neg hc', ih _ _ hab]
      rfl

theorem decimal_cases (cs : List Char) :
    (∀ c ∈ (decimal cs).1, c.isDigit = true) ∨
      ∃ whole fraction, (decimal cs).1 = whole ++ '.' :: fraction ∧ (∀ c ∈ whole, c.isDigit = true) ∧
        (∀ c ∈ fraction, c.isDigit = true) ∧ fraction ≠ [] := by
  have hall (l : List Char) : ∀ c ∈ l.takeWhile Char.isDigit, c.isDigit = true :=
    fun c hc => List.mem_takeWhile_imp hc
  unfold decimal
  simp only
  split
  · next fraction hf =>
    split
    · next hd =>
      refine .inr ⟨_, _, rfl, hall _, hall _, ?_⟩
      cases fraction with
      | nil => simp at hd
      | cons x xs => simp at hd; simp [hd]
    · exact .inl (hall _)
  · exact .inl (hall _)

theorem decimal_whole {whole rest : List Char} (hw : ∀ c ∈ whole, c.isDigit = true)
    (hr : ∀ x ∈ rest.head?, x.isDigit = false ∧ (x = '.' → ∀ y ∈ rest.tail.head?, y.isDigit = false)) :
    decimal (whole ++ rest) = (whole, rest) := by
  obtain ⟨ht, hd⟩ := takeWhile_append hw fun x hx => (hr x hx).1
  unfold decimal
  rw [ht, hd]
  simp only
  split
  · next fraction =>
    split
    · next hf =>
      cases fraction with
      | nil => simp at hf
      | cons y ys =>
        have := (hr '.' rfl).2 rfl y rfl
        simp [this] at hf
    · rfl
  · rfl

theorem decimal_point {whole fraction rest : List Char} (hw : ∀ c ∈ whole, c.isDigit = true)
    (hf : ∀ c ∈ fraction, c.isDigit = true) (hn : fraction ≠ []) (hr : ∀ x ∈ rest.head?, x.isDigit = false) :
    decimal (whole ++ '.' :: fraction ++ rest) = (whole ++ '.' :: fraction, rest) := by
  have hp : ∀ x ∈ ('.' :: fraction ++ rest).head?, x.isDigit = false := by
    simp only [List.cons_append, List.head?_cons, Option.mem_some_iff]
    rintro _ rfl
    decide
  obtain ⟨ht, hd⟩ := takeWhile_append hw hp
  obtain ⟨ht', hd'⟩ := takeWhile_append hf hr
  unfold decimal
  rw [List.append_assoc, ht, hd]
  cases fraction with
  | nil => exact absurd rfl hn
  | cons y ys => simp_all

theorem isAlphanum_of_letter {c : Char} (h : c.isUpper = true ∨ c.isLower = true) : c.isAlphanum = true := by
  have ha : (c.isUpper || c.isLower) = true := by simpa using h
  have halpha : c.isAlpha = true := ha
  simp [Char.isAlphanum, halpha]

theorem isWordChar_of_isHexDigit {d : Dialect} {c : Char} (h : isHexDigit c = true) : d.isWordChar c = true := by
  have hlower (h : 'a' ≤ c ∧ c ≤ 'f') : c.isLower = true := by
    have hle : c.val ≥ 'a'.val ∧ c.val ≤ 'z'.val := ⟨h.1, UInt32.le_trans h.2 (by decide)⟩
    exact Bool.and_eq_true_iff.2 ⟨decide_eq_true hle.1, decide_eq_true hle.2⟩
  have hupper (h : 'A' ≤ c ∧ c ≤ 'F') : c.isUpper = true :=
    decide_eq_true ⟨h.1, UInt32.le_trans h.2 (by decide)⟩
  simp only [isHexDigit, Bool.or_eq_true, Bool.and_eq_true, decide_eq_true_eq] at h
  simp only [Dialect.isWordChar, Bool.or_eq_true]
  obtain (h | h) | h := h
  · simp [Char.isAlphanum, h]
  · simp [isAlphanum_of_letter (.inr (hlower h))]
  · simp [isAlphanum_of_letter (.inl (hupper h))]

theorem isWordChar_of_isDigit {d : Dialect} {c : Char} (h : c.isDigit = true) : d.isWordChar c = true := by
  simp [Dialect.isWordChar, Char.isAlphanum, h]

theorem number_decimal {d : Dialect} {cs : List Char}
    (h : ∀ x tail, cs = '0' :: x :: tail → ¬(d.hexLiterals = true ∧ (x = 'x' ∨ x = 'X'))) :
    number d cs = .token .number (decimal cs).1 (decimal cs).2 := by
  unfold number
  split
  · next x tail =>
    rw [if_neg (h x tail rfl)]
  · rfl

theorem head?_dropWhile {p : Char → Bool} (cs : List Char) : ∀ x ∈ (cs.dropWhile p).head?, p x = false := by
  intro x hx
  have h := List.head?_dropWhile_not p cs
  rw [Option.mem_def.1 hx] at h
  simpa using h

theorem decimal_rest (cs : List Char) : ∀ x ∈ (decimal cs).2.head?, x.isDigit = false := by
  unfold decimal
  simp only
  split
  · split
    · exact head?_dropWhile _
    · simp [Char.isDigit]
  · exact head?_dropWhile _

theorem decimal_whole_rest {cs fraction : List Char} (hw : ∀ c ∈ (decimal cs).1, c.isDigit = true)
    (hr : (decimal cs).2 = '.' :: fraction) : ∀ y ∈ fraction.head?, y.isDigit = false := by
  unfold decimal at hw hr
  simp only at hw hr
  split at hr
  · next hd =>
    rw [hd] at hw
    simp only at hw
    split at hr
    · next hf =>
      rw [if_pos hf] at hw
      have hpoint := hw '.' (by simp)
      simp [Char.isDigit] at hpoint
    · next hf =>
      obtain rfl := (List.cons.inj hr).2
      intro y hy
      rw [Option.mem_def] at hy
      simpa [hy] using hf
  · next hne =>
    exact absurd hr (hne fraction)

theorem number_follows {d : Dialect} {c : Char} {cs rest rest' : List Char} {kind : TokenKind}
    (h : number d (c :: cs ++ rest) = .token kind (c :: cs) rest)
    (hr : ∀ x ∈ rest'.head?, (∃ y ∈ rest.head?, SameLetter x y) ∨ d.isWordChar x = false)
    (hp : ∀ fraction, rest' = '.' :: fraction → ∀ y ∈ fraction.head?, y.isDigit = true →
      ∃ tail, rest = '.' :: y :: tail) :
    number d (c :: cs ++ rest') = .token kind (c :: cs) rest' := by
  by_cases hx : ∃ x tail, c :: cs ++ rest = '0' :: x :: tail ∧ d.hexLiterals = true ∧ (x = 'x' ∨ x = 'X')
  · obtain ⟨x, tail, he, hd⟩ := hx
    rw [he] at h
    simp only [number, if_pos hd] at h
    split at h
    · cases h
    · next hne =>
      simp only [Scan.token.injEq, List.cons.injEq] at h
      obtain ⟨rfl, ⟨rfl, rfl⟩, rfl⟩ := h
      have hdigits : ∀ y ∈ tail.takeWhile isHexDigit, isHexDigit y = true := fun y hy => List.mem_takeWhile_imp hy
      have hstop : ∀ y ∈ rest'.head?, isHexDigit y = false := by
        intro y hy
        obtain ⟨z, hz, hs⟩ | hs := hr y hy
        · rw [hs.isHexDigit]
          exact head?_dropWhile tail z hz
        · refine Bool.eq_false_iff.2 fun hh => ?_
          rw [isWordChar_of_isHexDigit hh] at hs
          cases hs
      obtain ⟨ht, hd'⟩ := takeWhile_append hdigits hstop
      simp only [List.cons_append, number, if_pos hd, ht, hd']
  · have hplain (x : Char) (tail : List Char) (he : c :: cs ++ rest = '0' :: x :: tail) :
        ¬(d.hexLiterals = true ∧ (x = 'x' ∨ x = 'X')) :=
      fun hh => hx ⟨x, tail, he, hh⟩
    have hplain' (x : Char) (tail : List Char) (he : c :: cs ++ rest' = '0' :: x :: tail) :
        ¬(d.hexLiterals = true ∧ (x = 'x' ∨ x = 'X')) := by
      cases cs with
      | nil =>
        simp only [List.cons_append, List.nil_append, List.cons.injEq] at he
        obtain ⟨y, hy, hs⟩ | hs := hr x (by simp [he.2])
        · obtain ⟨tail, rfl⟩ := List.head?_eq_some_iff.1 hy
          exact fun hd => hplain y tail (by simp [he.1]) (hd.imp_right hs.eq_x)
        · rintro ⟨-, rfl | rfl⟩ <;> simp [Dialect.isWordChar, Char.isAlphanum] at hs
      | cons y ys =>
        simp only [List.cons_append, List.cons.injEq] at he
        exact hplain x (ys ++ rest) (by simp [he.1, he.2.1])
    rw [number_decimal hplain] at h
    rw [number_decimal hplain']
    simp only [Scan.token.injEq] at h
    obtain ⟨rfl, ht, hrest⟩ := h
    have hdigit : ∀ x ∈ rest'.head?, x.isDigit = false := by
      intro x hx
      obtain ⟨y, hy, hs⟩ | hs := hr x hx
      · rw [hs.isDigit]
        exact decimal_rest _ y (by rw [hrest]; exact hy)
      · refine Bool.eq_false_iff.2 fun hh => ?_
        rw [isWordChar_of_isDigit hh] at hs
        cases hs
    have hd := decimal_cases (c :: cs ++ rest)
    rw [ht] at hd
    obtain hd | ⟨whole, fraction, he, hw, hf, hn⟩ := hd
    · rw [decimal_whole hd fun x hx => ⟨hdigit x hx, ?_⟩]
      rintro rfl y hy
      obtain ⟨fraction, rfl⟩ := List.head?_eq_some_iff.1 hx
      refine Bool.eq_false_iff.2 fun hh => ?_
      obtain ⟨tail, rfl⟩ := hp fraction rfl y hy hh
      have := decimal_whole_rest (by rwa [ht]) hrest y rfl
      rw [hh] at this
      cases this
    · rw [he, decimal_point hw hf hn hdigit]

theorem number_behind {d : Dialect} {afterValue : Bool} {c : Char} {cs rest rest' : List Char}
    {kind : TokenKind} (h : number d (c :: cs ++ rest) = .token kind (c :: cs) rest)
    (hr : Stops d afterValue .number (c :: cs) rest') :
    number d (c :: cs ++ rest') = .token kind (c :: cs) rest' := by
  refine number_follows h (fun x hx => .inr (hr x hx).1) fun fraction hf y hy hh => ?_
  subst hf
  rw [(hr '.' rfl).2 rfl y hy] at hh
  cases hh

theorem word_kind {kind kind' : TokenKind} {p : Char → Bool} {c : Char} {cs text rest : List Char}
    (h : word kind p c cs = .token kind' text rest) : kind' = kind := by
  cases h
  rfl

theorem blockComment_kind {kind : TokenKind} {opening cs text rest : List Char}
    (h : blockComment opening cs = .token kind text rest) : kind = .comment := by
  unfold blockComment at h
  split at h <;> cases h
  rfl

theorem number_kind {d : Dialect} {kind : TokenKind} {cs text rest : List Char}
    (h : number d cs = .token kind text rest) : kind = .number := by
  unfold number at h
  split at h
  · split at h
    · split at h <;> cases h
      rfl
    · cases h
      rfl
  · cases h
    rfl

theorem metaString_behind {kind : TokenKind} {c : Char} {cs rest rest' : List Char}
    (h : string .metaString '\x22' [c, '\x22'] (cs ++ rest).tail = .token kind (c :: cs) rest) :
    string .metaString '\x22' [c, '\x22'] (cs ++ rest').tail = .token kind (c :: cs) rest' := by
  cases cs with
  | nil =>
    unfold string at h
    split at h <;> simp at h
  | cons x xs =>
    have hx : x = '\x22' := by
      unfold string at h
      split at h
      · simp only [Scan.token.injEq, List.cons_append, List.cons.injEq] at h
        exact h.2.1.2.1.symm
      · cases h
    subst hx
    have hs : string .metaString '\x22' [c, '\x22'] (xs ++ rest) = .token kind ([c, '\x22'] ++ xs) rest := h
    exact string_behind hs

def opens (c : Char) : Prop :=
  c = '/' ∨ c = '&' ∨ c = '%' ∨ c = '.'

theorem symbolChars_plain : ∀ c ∈ symbolChars, isBlank c = false ∧ c.isDigit = false ∧ c ≠ '\x22' ∧ c ≠ '\x27' := by
  have hall : (symbolChars.all fun c => !isBlank c && !c.isDigit && c != '\x22' && c != '\x27') = true := by decide
  simpa [and_assoc] using hall

theorem symbolChars_not_word : ∀ c ∈ symbolChars, c.isAlpha = false ∧ c.isAlphanum = false ∧ c ≠ '_' := by
  have hall : (symbolChars.all fun c => !c.isAlpha && !c.isAlphanum && c != '_') = true := by decide
  simpa [and_assoc] using hall

theorem isWordStart_of_symbol {d : Dialect} {c : Char} (hc : c ∈ symbolChars) : d.isWordStart c = false := by
  obtain ⟨ha, -, hn⟩ := symbolChars_not_word c hc
  simp [Dialect.isWordStart, Dialect.isUnknown, ha, hn, hc]

theorem isWordChar_of_symbol {d : Dialect} {c : Char} (hc : c ∈ symbolChars) : d.isWordChar c = false := by
  obtain ⟨-, ha, hn⟩ := symbolChars_not_word c hc
  simp [Dialect.isWordChar, Dialect.isUnknown, ha, hn, hc]

theorem isWordChar_of_isBlank {d : Dialect} {c : Char} (hc : isBlank c = true) : d.isWordChar c = false := by
  have hplain : c.isAlphanum = false ∧ c ≠ '_' := by
    simp only [isBlank, Bool.or_eq_true, decide_eq_true_eq] at hc
    obtain ((rfl | rfl) | rfl) | rfl := hc <;> decide
  simp [Dialect.isWordChar, Dialect.isUnknown, hplain.1, hplain.2, hc]

theorem isDigit_of_isWordStart {d : Dialect} {c : Char} (hc : d.isWordStart c = true) : c.isDigit = false := by
  refine Bool.eq_false_iff.2 fun hd => ?_
  have ha : c.isAlphanum = true := by simp [Char.isAlphanum, hd]
  have hl : c.isAlpha = false := by
    refine Bool.eq_false_iff.2 fun hl => ?_
    rw [isDigit_of_isAlpha hl] at hd
    cases hd
  have hn : c ≠ '_' := by
    rintro rfl
    simp [Char.isDigit] at hd
  simp [Dialect.isWordStart, Dialect.isUnknown, ha, hl, hn] at hc

theorem isWordStart_of_opens {d : Dialect} {c : Char} (hc : opens c) : d.isWordStart c = false := by
  apply isWordStart_of_symbol
  obtain rfl | rfl | rfl | rfl := hc <;> decide

theorem kind_of_opens {d : Dialect} {afterValue : Bool} {c : Char} {rest : List Char} {kind : TokenKind}
    (hc : opens c) (h : head d afterValue c rest = .token kind [c] rest) : kind = .symbol := by
  have hword {k : TokenKind} {p : Char → Bool} (hp : ∃ x xs, rest = x :: xs ∧ p x = true)
      (h : word k p c rest = .token kind [c] rest) : kind = .symbol := by
    obtain ⟨x, xs, rfl, hx⟩ := hp
    simp [word, hx] at h
  unfold head at h
  refine of_branch h (fun hs _ => ?_) fun h => ?_
  · obtain rfl | rfl | rfl | rfl := hc <;> simp [isBlank] at hs
  refine of_branch h (fun hs h => ?_) fun h => ?_
  · simp only [Bool.and_eq_true] at hs
    obtain ⟨x, xs, hr, hx⟩ := exists_cons_of_head? hs.2
    exact hword ⟨x, xs, hr, by simp only [decide_eq_true_eq] at hx; simp [hx]⟩ h
  refine of_branch h (fun hs h => ?_) fun h => ?_
  · unfold blockComment at h
    split at h <;> simp at h
  refine of_branch h (fun hs h => ?_) fun h => ?_
  · obtain rfl | rfl | rfl | rfl := hc <;> simp at hs
  refine of_branch h (fun hs h => ?_) fun h => ?_
  · obtain rfl | rfl | rfl | rfl := hc <;> simp at hs
  refine of_branch h (fun hs h => ?_) fun h => ?_
  · unfold string at h
    split at h <;> simp at h
  refine of_branch h (fun hs h => ?_) fun h => ?_
  · simp only [Bool.and_eq_true] at hs
    obtain ⟨x, xs, hr, hx⟩ := exists_cons_of_head? hs.1.2
    exact hword ⟨x, xs, hr, Dialect.isWordChar_of_isWordStart hx⟩ h
  refine of_branch h (fun hs h => ?_) fun h => ?_
  · obtain rfl | rfl | rfl | rfl := hc <;> simp [Char.isDigit] at hs
  refine of_branch h (fun hs h => ?_) fun h => ?_
  · simp only [Bool.and_eq_true, decide_eq_true_eq] at hs
    obtain ⟨x, xs, rfl, hx⟩ := exists_cons_of_head? hs.1.2
    obtain ⟨rfl, -⟩ := hs.1
    have hp : Char.isDigit '.' = false := by decide
    simp [number, decimal, hp, hx] at h
  refine of_branch h (fun hs h => ?_) fun h => ?_
  · rw [isWordStart_of_opens hc] at hs
    cases hs
  refine of_branch h (fun hs h => ?_) fun h => ?_
  · cases h
    rfl
  · cases h

theorem head_opens {d : Dialect} {afterValue : Bool} {c : Char} {rest : List Char} (hc : opens c)
    (hr : Stops d afterValue .symbol [c] rest) : head d afterValue c rest = .token .symbol [c] rest := by
  have hw := isWordStart_of_opens (d := d) hc
  cases rest with
  | nil => obtain rfl | rfl | rfl | rfl := hc <;> simp [head, isBlank, symbolChars, hw]
  | cons x xs =>
    obtain ⟨hslash, hand, hpercent, hpoint⟩ := hr x rfl
    obtain rfl | rfl | rfl | rfl := hc
    · obtain ⟨hl, hb⟩ := hslash rfl
      simp [head, isBlank, symbolChars, hw, hl, hb]
    · simp [head, isBlank, symbolChars, hw, hand rfl]
    · obtain hx | hx := hpercent rfl <;> simp [head, isBlank, symbolChars, hw, hx]
    · obtain hx | hx := hpoint rfl <;> simp [head, isBlank, symbolChars, hw, hx]

theorem head_same {d : Dialect} {afterValue : Bool} {c : Char} {cs rest rest' : List Char}
    {kind : TokenKind} (h : head d afterValue c (cs ++ rest) = .token kind (c :: cs) rest)
    (hs : opens c → (cs ++ rest').head? = (cs ++ rest).head?)
    (hr : Stops d afterValue kind (c :: cs) rest') :
    head d afterValue c (cs ++ rest') = .token kind (c :: cs) rest' := by
  have hcond (k : Char) (hk : opens k) (p : Char → Bool) :
      (decide (c = k) && ((cs ++ rest').head?.map p).getD false) =
        (decide (c = k) && ((cs ++ rest).head?.map p).getD false) := by
    by_cases hck : c = k
    · subst hck
      rw [hs hk]
    · simp [hck]
  unfold head at h ⊢
  simp only at h ⊢
  rw [hcond '/' (.inl rfl), hcond '/' (.inl rfl), hcond '&' (.inr (.inl rfl)), hcond '%' (.inr (.inr (.inl rfl))),
    hcond '.' (.inr (.inr (.inr rfl)))]
  by_cases hblank : isBlank c = true
  · rw [if_pos hblank] at h ⊢
    obtain rfl := word_kind h
    exact word_behind h hr
  rw [if_neg hblank] at h ⊢
  by_cases hline : (decide (c = '/') && ((cs ++ rest).head?.map fun x => decide (x = '/')).getD false) = true
  · rw [if_pos hline] at h
    obtain rfl := word_kind h
    exact hr.elim
  rw [if_neg hline] at h ⊢
  by_cases hcomment : (decide (c = '/') && ((cs ++ rest).head?.map fun x => decide (x = '*')).getD false) = true
  · rw [if_pos hcomment] at h
    obtain rfl := blockComment_kind h
    exact hr.elim
  rw [if_neg hcomment] at h ⊢
  by_cases hquote : c = '\x22'
  · rw [if_pos hquote] at h ⊢
    have hs : string .string c [c] (cs ++ rest) = .token kind ([c] ++ cs) rest := h
    exact string_behind hs
  rw [if_neg hquote] at h ⊢
  by_cases hsingle : (decide (c = '\x27') && d.singleQuoteStrings) = true
  · rw [if_pos hsingle] at h ⊢
    have hs : string .string c [c] (cs ++ rest) = .token kind ([c] ++ cs) rest := h
    exact string_behind hs
  rw [if_neg hsingle] at h ⊢
  by_cases hmeta : (decide (c = '&') && ((cs ++ rest).head?.map fun x => decide (x = '\x22')).getD false) = true
  · rw [if_pos hmeta] at h ⊢
    exact metaString_behind h
  rw [if_neg hmeta] at h ⊢
  by_cases hres : (decide (c = '%') && ((cs ++ rest).head?.map d.isWordStart).getD false && !afterValue) = true
  · rw [if_pos hres] at h ⊢
    obtain rfl := word_kind h
    exact word_behind h hr
  rw [if_neg hres] at h ⊢
  by_cases hdigit : c.isDigit = true
  · rw [if_pos hdigit] at h ⊢
    obtain rfl := number_kind h
    exact number_behind h hr
  rw [if_neg hdigit] at h ⊢
  by_cases hpoint : (decide (c = '.') && ((cs ++ rest).head?.map Char.isDigit).getD false && !afterValue) = true
  · rw [if_pos hpoint] at h ⊢
    obtain rfl := number_kind h
    exact number_behind h hr
  rw [if_neg hpoint] at h ⊢
  by_cases hword : d.isWordStart c = true
  · rw [if_pos hword] at h ⊢
    obtain rfl := word_kind h
    exact word_behind h hr
  rw [if_neg hword] at h ⊢
  by_cases hsymbol : symbolChars.contains c = true
  · rw [if_pos hsymbol] at h ⊢
    simp only [Scan.token.injEq, List.cons.injEq, true_and] at h ⊢
    obtain ⟨rfl, rfl, -⟩ := h
    simp
  rw [if_neg hsymbol] at h
  cases h

theorem head_behind {d : Dialect} {afterValue : Bool} {c : Char} {cs rest rest' : List Char}
    {kind : TokenKind} (h : head d afterValue c (cs ++ rest) = .token kind (c :: cs) rest)
    (hr : Stops d afterValue kind (c :: cs) rest') :
    head d afterValue c (cs ++ rest') = .token kind (c :: cs) rest' := by
  cases cs with
  | cons x xs => exact head_same h (fun _ => rfl) hr
  | nil =>
    by_cases hc : opens c
    · obtain rfl := kind_of_opens hc h
      exact head_opens hc hr
    · exact head_same h (fun ho => (hc ho).elim) hr

theorem string_kind {kind kind' : TokenKind} {quote : Char} {opening cs text rest : List Char}
    (h : string kind quote opening cs = .token kind' text rest) : kind' = kind := by
  unfold string at h
  split at h <;> cases h
  rfl

theorem head_kind {P : TokenKind → Prop} {d : Dialect} {afterValue : Bool} {c : Char} {cs text rest : List Char}
    {kind : TokenKind} (h : head d afterValue c cs = .token kind text rest) (hother : ∀ k, k ≠ .identifier →
      k ≠ .eof → P k) (hword : d.isWordStart c = true → P .identifier) : P kind := by
  have hof {k : TokenKind} (hk : kind = k) (h : P k) : P kind := hk ▸ h
  unfold head at h
  refine of_branch h (fun _ h => hof (word_kind h) (hother _ (by simp) (by simp))) fun h => ?_
  refine of_branch h (fun _ h => hof (word_kind h) (hother _ (by simp) (by simp))) fun h => ?_
  refine of_branch h (fun _ h => hof (blockComment_kind h) (hother _ (by simp) (by simp))) fun h => ?_
  refine of_branch h (fun _ h => hof (string_kind h) (hother _ (by simp) (by simp))) fun h => ?_
  refine of_branch h (fun _ h => hof (string_kind h) (hother _ (by simp) (by simp))) fun h => ?_
  refine of_branch h (fun _ h => hof (string_kind h) (hother _ (by simp) (by simp))) fun h => ?_
  refine of_branch h (fun _ h => hof (word_kind h) (hother _ (by simp) (by simp))) fun h => ?_
  refine of_branch h (fun _ h => hof (number_kind h) (hother _ (by simp) (by simp))) fun h => ?_
  refine of_branch h (fun _ h => hof (number_kind h) (hother _ (by simp) (by simp))) fun h => ?_
  refine of_branch h (fun hw h => hof (word_kind h) (hword hw)) fun h => ?_
  refine of_branch h (fun _ h => ?_) fun h => ?_
  · cases h
    exact hother _ (by simp) (by simp)
  · cases h

theorem head_not_eof {d : Dialect} {afterValue : Bool} {c : Char} {cs text rest : List Char} {kind : TokenKind}
    (h : head d afterValue c cs = .token kind text rest) : kind ≠ .eof :=
  head_kind (P := fun k => k ≠ .eof) h (fun _ _ he => he) (by simp)

theorem head_wordStart {d : Dialect} {afterValue : Bool} {c : Char} {cs : List Char} (h : d.isWordStart c = true) :
    head d afterValue c cs = word .identifier d.isWordChar c cs := by
  have hopens : ¬ opens c := fun ho => by
    rw [isWordStart_of_opens ho] at h
    cases h
  simp only [opens, not_or] at hopens
  have hblank : isBlank c = false := Bool.eq_false_iff.2 fun hb => by
    have := Dialect.isWordChar_of_isWordStart h
    rw [isWordChar_of_isBlank hb] at this
    cases this
  have hquote : c ≠ '\x22' := by
    rintro rfl
    simp [Dialect.isWordStart, Dialect.isUnknown] at h
  have hsingle : ¬(c = '\x27' ∧ d.singleQuoteStrings = true) := by
    rintro ⟨rfl, hd⟩
    simp [Dialect.isWordStart, Dialect.isUnknown, hd] at h
  have hsingle' : (decide (c = '\x27') && d.singleQuoteStrings) = false := by simpa using hsingle
  simp [head, hopens, hblank, hquote, hsingle', isDigit_of_isWordStart h, h]

theorem head_identifier {d : Dialect} {afterValue : Bool} {c : Char} {cs text rest : List Char}
    (h : head d afterValue c cs = .token .identifier text rest) :
    d.isWordStart c = true ∧ ∀ afterValue', head d afterValue' c cs = .token .identifier text rest := by
  have hstart : d.isWordStart c = true :=
    head_kind (P := fun k => k = .identifier → d.isWordStart c = true) h (fun _ hn _ he => (hn he).elim)
      (fun hw _ => hw) rfl
  refine ⟨hstart, fun afterValue' => ?_⟩
  rw [← h, head_wordStart hstart, head_wordStart hstart]

theorem head_anywhere {d : Dialect} {afterValue : Bool} {c : Char} {cs text rest : List Char} {kind : TokenKind}
    (h : head d afterValue c cs = .token kind text rest) (hk : kind ≠ .symbol) :
    head d false c cs = .token kind text rest := by
  cases afterValue with
  | false => exact h
  | true =>
    have hsymbol {c : Char} (hc : c = '%' ∨ c = '.') : ∀ kind text rest,
        head d true c cs = .token kind text rest → kind = .symbol := by
      have hstart := isWordStart_of_opens (d := d) (c := c) (.inr (.inr hc))
      intro kind text rest h
      obtain rfl | rfl := hc <;> simp [head, isBlank, symbolChars, hstart] at h <;> exact h.1.symm
    have hp : c ≠ '%' := fun hc => hk (hsymbol (.inl hc) _ _ _ h)
    have hd : c ≠ '.' := fun hc => hk (hsymbol (.inr hc) _ _ _ h)
    rw [← h]
    simp [head, hp, hd]

theorem head_symbol_text {d : Dialect} {afterValue : Bool} {c : Char} {cs text rest : List Char}
    (h : head d afterValue c cs = .token .symbol text rest) : text = [c] := by
  unfold head at h
  refine of_branch h (fun _ h => by cases word_kind h) fun h => ?_
  refine of_branch h (fun _ h => by cases word_kind h) fun h => ?_
  refine of_branch h (fun _ h => by cases blockComment_kind h) fun h => ?_
  refine of_branch h (fun _ h => by cases string_kind h) fun h => ?_
  refine of_branch h (fun _ h => by cases string_kind h) fun h => ?_
  refine of_branch h (fun _ h => by cases string_kind h) fun h => ?_
  refine of_branch h (fun _ h => by cases word_kind h) fun h => ?_
  refine of_branch h (fun _ h => by cases number_kind h) fun h => ?_
  refine of_branch h (fun _ h => by cases number_kind h) fun h => ?_
  refine of_branch h (fun _ h => by cases word_kind h) fun h => ?_
  refine of_branch h (fun _ h => by cases h; rfl) fun h => ?_
  cases h

theorem head_letters {d : Dialect} {c : Char} {cs : List Char} (h : ∀ x ∈ c :: cs, x.isAlpha = true) :
    head d false c cs = .token .identifier (c :: cs) [] := by
  have hword : ∀ x ∈ cs, d.isWordChar x = true := by
    intro x hx
    simp [Dialect.isWordChar, Char.isAlphanum, h x (by simp [hx])]
  have hall := takeWhile_append hword (show ∀ x ∈ ([] : List Char).head?, _ from by simp)
  rw [List.append_nil] at hall
  rw [head_wordStart (by simp [Dialect.isWordStart, h c (by simp)]), word, hall.1, hall.2]

theorem head_symbol {d : Dialect} {afterValue : Bool} {c : Char} {rest : List Char}
    (hc : c ∈ symbolChars) (hr : Stops d afterValue .symbol [c] rest) :
    head d afterValue c rest = .token .symbol [c] rest := by
  by_cases ho : opens c
  · exact head_opens ho hr
  · simp only [opens, not_or] at ho
    obtain ⟨hslash, hand, hpercent, hpoint⟩ := ho
    obtain ⟨hblank, hdigit, hdouble, hsingle⟩ := symbolChars_plain c hc
    simp [head, hblank, hdigit, hdouble, hsingle, hslash, hand, hpercent, hpoint, isWordStart_of_symbol hc, hc]

end Scan

end GameScript
