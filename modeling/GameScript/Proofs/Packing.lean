import GameScript.Proofs.Located
import GameScript.Proofs.Pieces
import GameScript.Proofs.Showing
import Mathlib.Data.List.Chain
import Mathlib.Data.String.Basic

namespace GameScript

namespace Scan

/-- What a scan can find, and how far each token goes. -/
inductive Found (d : Dialect) (afterValue : Bool) (c : Char) (cs : List Char) :
    TokenKind → List Char → List Char → Prop
  | blank (hc : isBlank c = true) :
    Found d afterValue c cs .whitespace (c :: cs.takeWhile isBlank) (cs.dropWhile isBlank)
  | comment {text rest : List Char} (hc : c = '/')
      (h : cs.head? = some '/' ∧ word .comment (· ≠ '\n') c cs = .token .comment text rest ∨
        cs.head? = some '*' ∧ blockComment [c, '*'] cs.tail = .token .comment text rest) :
    Found d afterValue c cs .comment text rest
  | string {text rest : List Char} (hc : c = '\x22' ∨ c = '\x27')
      (h : Scan.string .string c [c] cs = .token .string text rest) : Found d afterValue c cs .string text rest
  | metaString {text rest : List Char} (hc : c = '&')
      (h : Scan.string .metaString '\x22' [c, '\x22'] cs.tail = .token .metaString text rest) :
    Found d afterValue c cs .metaString text rest
  | resource (hc : c = '%') (hs : ∃ x xs, cs = x :: xs ∧ d.isWordStart x = true) :
    Found d afterValue c cs .resource (c :: cs.takeWhile d.isWordChar) (cs.dropWhile d.isWordChar)
  | number {text rest : List Char}
      (hc : c.isDigit = true ∨ c = '.' ∧ (∃ x xs, cs = x :: xs ∧ x.isDigit = true) ∧ afterValue = false)
      (h : number d (c :: cs) = .token .number text rest) : Found d afterValue c cs .number text rest
  | identifier (hs : d.isWordStart c = true) :
    Found d afterValue c cs .identifier (c :: cs.takeWhile d.isWordChar) (cs.dropWhile d.isWordChar)
  | symbol (hs : c ∈ symbolChars) : Found d afterValue c cs .symbol [c] cs

theorem head_found {d : Dialect} {afterValue : Bool} {c : Char} {cs text rest : List Char} {kind : TokenKind}
    (h : head d afterValue c cs = .token kind text rest) : Found d afterValue c cs kind text rest := by
  unfold head at h
  refine of_branch h (fun hc h => ?_) fun h => ?_
  · cases h
    exact .blank hc
  refine of_branch h (fun hs h => ?_) fun h => ?_
  · simp only [Bool.and_eq_true, decide_eq_true_eq] at hs
    obtain ⟨x, xs, rfl, hx⟩ := exists_cons_of_head? hs.2
    obtain rfl := word_kind h
    exact .comment hs.1 (.inl ⟨by simpa using hx, h⟩)
  refine of_branch h (fun hs h => ?_) fun h => ?_
  · simp only [Bool.and_eq_true, decide_eq_true_eq] at hs
    obtain ⟨x, xs, rfl, hx⟩ := exists_cons_of_head? hs.2
    obtain rfl := blockComment_kind h
    exact .comment hs.1 (.inr ⟨by simpa using hx, h⟩)
  refine of_branch h (fun hc h => ?_) fun h => ?_
  · obtain rfl := string_kind h
    exact .string (.inl hc) h
  refine of_branch h (fun hc h => ?_) fun h => ?_
  · simp only [Bool.and_eq_true, decide_eq_true_eq] at hc
    obtain rfl := string_kind h
    exact .string (.inr hc.1) h
  refine of_branch h (fun hc h => ?_) fun h => ?_
  · simp only [Bool.and_eq_true, decide_eq_true_eq] at hc
    obtain rfl := string_kind h
    exact .metaString hc.1 h
  refine of_branch h (fun hs h => ?_) fun h => ?_
  · simp only [Bool.and_eq_true, decide_eq_true_eq] at hs
    cases h
    exact .resource hs.1.1 (exists_cons_of_head? hs.1.2)
  refine of_branch h (fun hd h => ?_) fun h => ?_
  · obtain rfl := number_kind h
    exact .number (.inl hd) h
  refine of_branch h (fun hd h => ?_) fun h => ?_
  · simp only [Bool.and_eq_true, decide_eq_true_eq, Bool.not_eq_true'] at hd
    obtain rfl := number_kind h
    exact .number (.inr ⟨hd.1.1, exists_cons_of_head? hd.1.2, hd.2⟩) h
  refine of_branch h (fun hs h => ?_) fun h => ?_
  · cases h
    exact .identifier hs
  refine of_branch h (fun hs h => ?_) fun h => ?_ <;> cases h
  exact .symbol (by simpa using hs)

theorem symbol_stops {d : Dialect} {afterValue : Bool} {c : Char} {cs : List Char}
    (h : head d afterValue c cs = .token .symbol [c] cs) : Stops d afterValue .symbol [c] cs := by
  intro x hx
  obtain ⟨xs, rfl⟩ := List.head?_eq_some_iff.1 hx
  refine ⟨fun hc => ⟨?_, ?_⟩, fun hc => ?_, fun hc => ?_, fun hc => ?_⟩ <;> obtain rfl := (List.cons.inj hc).1
  · rintro rfl
    simp [head, isBlank, word] at h
  · rintro rfl
    cases blockComment_kind (show blockComment ['/', '*'] xs = _ by simpa [head, isBlank] using h)
  · rintro rfl
    cases string_kind (show string .metaString '\x22' ['&', '\x22'] xs = _ by simpa [head, isBlank] using h)
  · refine or_iff_not_imp_left.2 fun ha => Bool.eq_false_iff.2 fun hw => ?_
    simp [head, isBlank, word, hw, ha] at h
  · refine or_iff_not_imp_left.2 fun ha => Bool.eq_false_iff.2 fun hd => ?_
    have hp : Char.isDigit '.' = false := by decide
    cases number_kind (show number d ('.' :: x :: xs) = _ by simpa [head, isBlank, hp, hd, ha] using h)

theorem head_stops {d : Dialect} {afterValue : Bool} {c : Char} {cs text rest : List Char} {kind : TokenKind}
    (h : head d afterValue c cs = .token kind text rest) (hc : kind ≠ .comment) (hn : kind ≠ .number) :
    Stops d afterValue kind text rest := by
  cases head_found h with
  | blank | resource | identifier => exact head?_dropWhile cs
  | comment => exact absurd rfl hc
  | string | metaString => trivial
  | number => exact absurd rfl hn
  | symbol => exact symbol_stops h

theorem block_behind {d : Dialect} {afterValue : Bool} {xs rest : List Char}
    (h : blockComment ['/', '*'] (xs ++ rest) = .token .comment ('/' :: '*' :: xs) rest) (rest' : List Char) :
    head d afterValue '/' ('*' :: xs ++ rest') = .token .comment ('/' :: '*' :: xs) rest' := by
  have hbody : commentBody (xs ++ rest) = some (xs, rest) := by
    unfold blockComment at h
    split at h
    · next hq =>
      simp only [Scan.token.injEq, List.cons_append, List.nil_append, List.cons.injEq, true_and] at h
      obtain ⟨rfl, rfl⟩ := h
      exact hq
    · cases h
  have hstart : head d afterValue '/' ('*' :: xs ++ rest') = blockComment ['/', '*'] (xs ++ rest') := by
    simp [head, isBlank]
  rw [hstart, blockComment, commentBody_behind hbody]
  rfl

theorem comment_behind {d : Dialect} {afterValue : Bool} {c : Char} {cs rest rest' : List Char}
    (h : head d afterValue c (cs ++ rest) = .token .comment (c :: cs) rest)
    (hr : ∀ x ∈ rest'.head?, ∃ y ∈ rest.head?, y = '\n' → x = '\n') :
    head d afterValue c (cs ++ rest') = .token .comment (c :: cs) rest' := by
  cases cs with
  | nil =>
    cases head_found h with
    | comment hc hs =>
      subst hc
      cases kind_of_opens (.inl rfl) h
  | cons x xs =>
    cases head_found h with
    | comment hc hs =>
    subst hc
    obtain ⟨hx, hs⟩ | ⟨hx, hs⟩ := hs <;> obtain rfl := Option.some.inj hx
    · have hend : ∀ y ∈ rest.head?, y = '\n' := by
        intro y hy
        obtain ⟨-, -, hdrop⟩ := Scan.token.inj hs
        have hstop := head?_dropWhile _ y (by rw [hdrop]; exact hy)
        exact not_not.1 (of_decide_eq_false hstop)
      have hstop : ∀ z ∈ rest'.head?, decide (z ≠ '\n') = false := by
        intro z hz
        obtain ⟨y, hy, hyz⟩ := hr z hz
        simpa using hyz (hend y hy)
      simpa [head, isBlank] using word_behind hs hstop
    · exact block_behind hs rest'

theorem head_number {d : Dialect} {afterValue : Bool} {c : Char} {cs text rest : List Char}
    (h : head d afterValue c cs = .token .number text rest) :
    number d (c :: cs) = .token .number text rest ∧
      ∀ cs', (c = '.' → cs'.head? = cs.head?) → head d afterValue c cs' = number d (c :: cs') := by
  cases head_found h with
  | number hc hnumber =>
    refine ⟨hnumber, fun cs' hcs => ?_⟩
    obtain hd | ⟨rfl, ⟨x, xs, rfl, hx⟩, ha⟩ := hc
    · have hplain : isBlank c = false ∧ c ≠ '/' ∧ c ≠ '\x22' ∧ c ≠ '\x27' ∧ c ≠ '&' ∧ c ≠ '%' := by
        refine ⟨Bool.eq_false_iff.2 fun hb => ?_, ?_⟩
        · simp only [isBlank, Bool.or_eq_true, decide_eq_true_eq] at hb
          obtain ((rfl | rfl) | rfl) | rfl := hb <;> revert hd <;> decide
        refine ⟨?_, ?_, ?_, ?_, ?_⟩ <;> (rintro rfl; revert hd; decide)
      simp [head, hplain, hd]
    · simp [head, isBlank, hcs rfl, hx, ha]

def Follows (d : Dialect) (afterValue : Bool) (kind : TokenKind) (text rest rest' : List Char) : Prop :=
  ∀ x ∈ rest'.head?, Stops d afterValue kind text rest' ∨
    rest.head? = some x ∧ (x = '.' → ∀ y ∈ rest'.tail.head?, y.isDigit = true → rest.tail.head? = some y)

theorem head_follows {d : Dialect} {afterValue : Bool} {c : Char} {cs rest rest' : List Char} {kind : TokenKind}
    (h : head d afterValue c (cs ++ rest) = .token kind (c :: cs) rest) (hc : kind ≠ .comment)
    (hr : Follows d afterValue kind (c :: cs) rest rest') :
    head d afterValue c (cs ++ rest') = .token kind (c :: cs) rest' := by
  cases rest' with
  | nil =>
    refine head_behind h ?_
    cases kind <;> simp_all [Stops]
    exact head_not_eof h rfl
  | cons x xs =>
    obtain hs | ⟨hx, hpoint⟩ := hr x rfl
    · exact head_behind h hs
    obtain ⟨ys, rfl⟩ := List.head?_eq_some_iff.1 hx
    by_cases hn : kind = .number
    · subst hn
      obtain ⟨hnumber, hhead⟩ := head_number h
      rw [hhead]
      · refine number_follows hnumber (fun z hz => .inl ⟨z, hz, .refl z⟩) fun fraction hf y hy hd => ?_
        obtain ⟨rfl, rfl⟩ := List.cons.inj hf
        obtain ⟨tail, rfl⟩ := List.head?_eq_some_iff.1 (hpoint rfl y hy hd)
        exact ⟨tail, rfl⟩
      · rintro rfl
        cases cs with
        | nil => cases kind_of_opens (.inr (.inr (.inr rfl))) h
        | cons => rfl
    · refine head_behind h ?_
      have hs := head_stops h hc hn
      cases kind with
      | number => exact absurd rfl hn
      | _ => exact hs

theorem number_last {d : Dialect} {cs text rest : List Char} {kind : TokenKind}
    (h : number d cs = .token kind text rest) (hne : text ≠ []) : ∃ x ∈ text.getLast?, d.isWordChar x = true := by
  have hlast {l : List Char} (hl : l ≠ []) (hp : ∀ x ∈ l, d.isWordChar x = true) (l' : List Char) :
      ∃ x ∈ (l' ++ l).getLast?, d.isWordChar x = true := by
    refine ⟨l.getLast hl, ?_, hp _ (List.getLast_mem hl)⟩
    simp [List.getLast?_append, List.getLast?_eq_some_getLast hl]
  have hdecimal (hne : (decimal cs).1 ≠ []) : ∃ x ∈ (decimal cs).1.getLast?, d.isWordChar x = true := by
    obtain hw | ⟨whole, fraction, he, -, hf, hn⟩ := decimal_cases cs
    · exact hlast hne (fun x hx => isWordChar_of_isDigit (hw x hx)) []
    · rw [he, ← List.singleton_append, ← List.append_assoc]
      exact hlast hn (fun x hx => isWordChar_of_isDigit (hf x hx)) _
  unfold number at h
  split at h
  · next x tail =>
    split at h
    · split at h
      · cases h
      · next hn =>
        obtain ⟨-, rfl, -⟩ := Scan.token.inj h
        exact hlast hn (fun y hy => isWordChar_of_isHexDigit (List.mem_takeWhile_imp hy)) ['0', x]
    · cases h
      exact hdecimal hne
  · cases h
    exact hdecimal hne

theorem head_last {d : Dialect} {afterValue : Bool} {c : Char} {cs text rest : List Char} {kind : TokenKind}
    (h : head d afterValue c cs = .token kind text rest)
    (hk : kind = .identifier ∨ kind = .resource ∨ kind = .number) : ∃ x ∈ text.getLast?, d.isWordChar x = true := by
  have hword (hc : cs.takeWhile d.isWordChar = [] → d.isWordChar c = true) :
      ∃ x ∈ (c :: cs.takeWhile d.isWordChar).getLast?, d.isWordChar x = true := by
    rw [List.getLast?_cons]
    refine ⟨_, rfl, ?_⟩
    cases hl : (cs.takeWhile d.isWordChar).getLast? with
    | some x => simpa using List.mem_takeWhile_imp (List.mem_of_getLast? hl)
    | none => simpa using hc (List.getLast?_eq_none_iff.1 hl)
  have hne := (head_token h).2
  cases head_found h with
  | blank | comment | string | metaString | symbol => simp at hk
  | resource _ hs =>
    obtain ⟨x, xs, rfl, hx⟩ := hs
    exact hword (by simp [Dialect.isWordChar_of_isWordStart hx])
  | number _ hnumber => exact number_last hnumber hne
  | identifier hs => exact hword fun _ => Dialect.isWordChar_of_isWordStart hs

end Scan

theorem Text.isWordLike_of_isWordChar {d : Dialect} (hd : d.unknownAsLetters = false) {c : Char}
    (hc : d.isWordChar c = true) : Text.isWordLike c = true := by
  have hascii {n : Nat} (h : 48 ≤ n ∧ n ≤ 57 ∨ 65 ≤ n ∧ n ≤ 90 ∨ 97 ≤ n ∧ n ≤ 122) (rest : List Text.CodeRange) :
      Text.inRanges n ((0x30, 0x39) :: (0x41, 0x5a) :: (0x61, 0x7a) :: rest) = true := by
    simp only [Text.inRanges]
    grind
  simp only [Dialect.isWordChar, hd, Bool.false_and, Bool.or_false, Bool.or_eq_true, decide_eq_true_eq] at hc
  simp only [Text.isWordLike, Bool.or_eq_true, decide_eq_true_eq]
  refine hc.imp_left fun ha => hascii ?_ _
  have ha : (decide ('A'.val ≤ c.val ∧ c.val ≤ 'Z'.val) || (decide ('a'.val ≤ c.val) && decide (c.val ≤ 'z'.val)) ||
      (decide ('0'.val ≤ c.val) && decide (c.val ≤ '9'.val))) = true := ha
  simp only [Bool.or_eq_true, Bool.and_eq_true, decide_eq_true_eq, UInt32.le_iff_toNat_le, Char.toNat_val] at ha
  have hbounds : 'A'.toNat = 65 ∧ 'Z'.toNat = 90 ∧ 'a'.toNat = 97 ∧ 'z'.toNat = 122 ∧
    '0'.toNat = 48 ∧ '9'.toNat = 57 := by decide
  omega

namespace Pack

variable {d : Dialect} {afterValue afterValue' : Bool} {t u : Token} {c x : Char} {cs xs rest rest' behind : List Char}

theorem head?_text (hu : Scan.head d afterValue x xs = .token u.kind u.text.toList rest) :
    u.text.toList.head? = some x := by
  obtain ⟨happend, hne⟩ := Scan.head_token hu
  obtain ⟨y, ys, hy⟩ := List.exists_cons_of_ne_nil hne
  rw [hy] at happend ⊢
  rw [(List.cons.inj happend).1, List.head?_cons]

theorem eq_of_toList {s : String} {l : List Char} (h : s.toList = l) : s = String.ofList l := by
  rw [← h, String.ofList_toList]

theorem kind_of_slash (hx : x = '/' ∨ x = '*') (hu : Scan.head d afterValue x xs = .token u.kind u.text.toList rest)
    (hut : u.isTrivia = false) : u.kind = .symbol ∧ u.text.toList = [x] := by
  have hstart : d.isWordStart x = false := by
    apply Scan.isWordStart_of_symbol
    obtain rfl | rfl := hx <;> decide
  have hk : u.kind = .symbol := by
    have hfound := Scan.head_found hu
    generalize hk : u.kind = kind, u.text.toList = text at hfound
    cases hfound with
    | symbol => rfl
    | blank hc => obtain rfl | rfl := hx <;> simp [isBlank] at hc
    | comment => simp [Token.isTrivia, hk] at hut
    | string hc | metaString hc | resource hc => obtain rfl | rfl := hx <;> simp at hc
    | number hc =>
      obtain rfl | rfl := hx <;> simp [Char.isDigit] at hc
    | identifier hs =>
      rw [hstart] at hs
      cases hs
  exact ⟨hk, Scan.head_symbol_text (hk ▸ hu)⟩

theorem kind_of_quote (hu : Scan.head d afterValue '\x22' xs = .token u.kind u.text.toList rest) :
    u.kind = .string := by
  simp [Scan.head, isBlank] at hu
  exact Scan.string_kind hu

theorem kind_of_wordStart (hx : d.isWordStart x = true)
    (hu : Scan.head d afterValue x xs = .token u.kind u.text.toList rest) : u.kind = .identifier := by
  rw [Scan.head_wordStart hx] at hu
  exact Scan.word_kind hu

/-- Packing leaves no blank between the two, although the first is a word that the second goes on with. -/
def Merges (d : Dialect) (t u : Token) : Prop :=
  (t.kind = .identifier ∨ t.kind = .resource) ∧ needsBlank t u = false ∧
    ∃ x ∈ u.text.toList.head?, d.isWordChar x = true

theorem needsBlank_ends {last : Char} (hlast : t.text.toList.getLast? = some last)
    (hx : u.text.toList.head? = some x) (hb : needsBlank t u = false) :
    (Text.isWordLike last && Text.isWordLike x) = false ∧ (last = '.' → x.isDigit = false) ∧
      (t.kind = .number → x ≠ '.') := by
  rw [needsBlank, hlast, hx] at hb
  simp only at hb
  split at hb
  · cases hb
  next hwords =>
  split at hb
  · cases hb
  next hpoint =>
  refine ⟨Bool.eq_false_iff.2 hwords, ?_, ?_⟩
  · rintro rfl
    exact Bool.eq_false_iff.2 fun hx => hpoint (by simp [hx])
  · rintro hk rfl
    exact hpoint (by simp [hk])

theorem not_merges (hd : d.unknownAsLetters = false)
    (ht : Scan.head d afterValue c cs = .token t.kind t.text.toList rest) : ¬Merges d t u := by
  rintro ⟨hk, hb, x, hx, hword⟩
  obtain ⟨last, hlast, hw⟩ := Scan.head_last ht (hk.imp_right .inl)
  have hwords := (needsBlank_ends hlast hx hb).1
  rw [Text.isWordLike_of_isWordChar hd hw, Text.isWordLike_of_isWordChar hd hword] at hwords
  cases hwords

theorem stops_of_needsBlank (ht : Scan.head d afterValue c cs = .token t.kind t.text.toList rest)
    (hu : Scan.head d afterValue' x xs = .token u.kind u.text.toList rest')
    (htt : t.isTrivia = false) (hut : u.isTrivia = false) (hn : t.kind ≠ .number) (hb : needsBlank t u = false)
    (hm : ¬Merges d t u) (hx : behind.head? = some x) : Scan.Stops d afterValue t.kind t.text.toList behind := by
  have hfirst := head?_text hu
  obtain ⟨-, hne⟩ := Scan.head_token ht
  obtain ⟨last, hlast⟩ := Option.ne_none_iff_exists'.1 (mt List.getLast?_eq_none_iff.1 hne)
  have hall : ∀ P : Char → Prop, P x → ∀ y ∈ behind.head?, P y := by
    intro P hp y hy
    rw [hx] at hy
    rwa [← Option.mem_some_iff.1 hy]
  have hword (hk : t.kind = .identifier ∨ t.kind = .resource) : d.isWordChar x = false :=
    Bool.eq_false_iff.2 fun hx => hm ⟨hk, hb, x, hfirst, hx⟩
  cases hk : t.kind with
  | identifier => exact hall _ (hword (.inl hk))
  | resource => exact hall _ (hword (.inr hk))
  | number => exact absurd hk hn
  | string | metaString => trivial
  | comment | whitespace => simp [Token.isTrivia, hk] at htt
  | eof => exact absurd hk (Scan.head_not_eof ht)
  | symbol =>
    have hpoint := (needsBlank_ends hlast hfirst hb).2.1
    rw [hk] at ht
    have htext := Scan.head_symbol_text ht
    obtain rfl : c = last := by simpa [htext] using hlast
    rw [needsBlank, hlast, hfirst] at hb
    rw [htext]
    refine hall _ ⟨fun hc => ?_, fun hc => ?_, fun hc => ?_, fun hc => ?_⟩ <;> obtain rfl := (List.cons.inj hc).1
    · refine not_or.1 fun hx => ?_
      obtain ⟨huk, hutext⟩ := kind_of_slash hx hu hut
      rw [hk, huk, eq_of_toList htext, eq_of_toList hutext] at hb
      have hjoin : symbolsJoin (String.ofList ['/']) (String.ofList ['/']) = true ∧
          symbolsJoin (String.ofList ['/']) (String.ofList ['*']) = true := by decide +kernel
      obtain rfl | rfl := hx <;> simp [hjoin] at hb
    · rintro rfl
      rw [kind_of_quote hu] at hb
      simp [Token.isSymbol, Token.symbol?, hk, htext] at hb
    · refine .inr (Bool.eq_false_iff.2 fun hw => ?_)
      rw [kind_of_wordStart hw hu] at hb
      simp [Token.isSymbol, Token.symbol?, hk, htext] at hb
    · exact .inr (hpoint rfl)

theorem number_apart (ht : Scan.head d afterValue c (cs ++ rest) = .token .number (c :: cs) rest)
    (hk : t.kind = .number) (htext : t.text.toList = c :: cs) (hx : u.text.toList.head? = some x)
    (hb : needsBlank t u = false) (hbehind : behind.head? = some x) :
    Scan.head d afterValue c (cs ++ behind) = .token .number (c :: cs) behind := by
  obtain ⟨hnumber, hhead⟩ := Scan.head_number ht
  have hplain (text : List Char) : Scan.number { d with unknownAsLetters := false } text = Scan.number d text := rfl
  obtain ⟨last, hlast, hw⟩ := Scan.number_last ((hplain _).trans hnumber) (by simp)
  obtain ⟨hwords, -, hpoint⟩ := needsBlank_ends (htext ▸ hlast) hx hb
  have hword : Dialect.isWordChar { d with unknownAsLetters := false } x = false := by
    refine Bool.eq_false_iff.2 fun hword => ?_
    rw [Text.isWordLike_of_isWordChar rfl hw, Text.isWordLike_of_isWordChar rfl hword] at hwords
    cases hwords
  rw [hhead]
  · refine (hplain _).symm.trans (Scan.number_follows ((hplain _).trans hnumber) ?_ ?_)
    · intro y hy
      rw [hbehind] at hy
      exact .inr (Option.mem_some_iff.1 hy ▸ hword)
    · rintro fraction rfl
      exact absurd (Option.some.inj hbehind).symm (hpoint hk)
  · rintro rfl
    cases cs with
    | nil => cases Scan.kind_of_opens (.inr (.inr (.inr rfl))) ht
    | cons => rfl

def squeeze (t : Token) : List Piece → List Piece
  | [] => []
  | (apart, u) :: ps => (apart && needsBlank t u, u) :: squeeze u ps

def pieceText : Piece → List Char
  | (apart, t) => (if apart then [' '] else []) ++ t.text.toList

def piecesText (ps : List Piece) : List Char :=
  (ps.map pieceText).flatten

theorem piecesText_cons (apart : Bool) (t : Token) (ps : List Piece) :
    piecesText ((apart, t) :: ps) = (if apart then [' '] else []) ++ (t.text.toList ++ piecesText ps) := by
  simp [piecesText, pieceText]

/-- The pieces are found in a text, with trivia in front of those that stand apart. -/
inductive Pieced (d : Dialect) : Bool → List Char → List Piece → Prop
  | nil {afterValue : Bool} {text : List Char} : Pieced d afterValue text []
  | cons {afterValue apart : Bool} {text cs rest : List Char} {c : Char} {t : Token} {ps : List Piece}
      (htext : t.text.toList = c :: cs) (hs : Scan.head d afterValue c (cs ++ rest) = .token t.kind (c :: cs) rest)
      (ht : t.isTrivia = false) (ha : apart = false → text = c :: cs ++ rest)
      (h : Pieced d (t.endsValue d.mode) rest ps) : Pieced d afterValue text ((apart, t) :: ps)

theorem pieced_of_reads {left : Bool} {ts : List Token} (h : Reads d afterValue cs ts left []) (apart : Bool) :
    ∃ ps, Spread apart ts ps ∧ ∀ text, (apart = false → text = cs) → Pieced d afterValue text ps := by
  induction ts generalizing afterValue cs apart with
  | nil => exact ⟨[], .nil, fun _ _ => .nil⟩
  | cons t ts ih =>
    cases h with
    | @token _ _ c cs rest _ _ _ hs hr =>
    cases ht : t.isTrivia with
    | true =>
      rw [Token.leaves, if_pos ht] at hr
      obtain ⟨ps, hspread, hpieced⟩ := ih hr true
      exact ⟨ps, .trivia ht hspread, fun text _ => hpieced text (by simp)⟩
    | false =>
      rw [Token.leaves, ht] at hr
      obtain ⟨ps, hspread, hpieced⟩ := ih hr false
      refine ⟨(apart, t) :: ps, .token ht hspread, fun text ha => ?_⟩
      obtain ⟨happend, hne⟩ := Scan.head_token hs
      obtain ⟨c', text', htext⟩ := List.exists_cons_of_ne_nil hne
      rw [htext] at happend hs
      obtain ⟨rfl, rfl⟩ := List.cons.inj happend
      exact .cons htext hs ht ha (hpieced rest fun _ => rfl)

namespace Pieced

variable {apart : Bool} {text : List Char} {ps : List Piece}

theorem point (h : Pieced d afterValue rest ps) (ht : t.text.toList = '.' :: cs) {y : Char}
    (hy : (cs ++ piecesText (squeeze t ps)).head? = some y) (hd : y.isDigit = true) :
    (cs ++ rest).head? = some y := by
  cases cs with
  | cons => exact hy
  | nil =>
    cases h with
    | nil => cases hy
    | @cons _ apart _ cs' rest' c u ps htext hs hu ha _ =>
      rw [squeeze, piecesText_cons, htext] at hy
      cases apart with
      | false =>
        rw [ha rfl]
        simpa using hy
      | true =>
        cases hb : needsBlank t u with
        | true =>
          obtain rfl : ' ' = y := by simpa [hb] using hy
          simp [Char.isDigit] at hd
        | false =>
          obtain rfl : c = y := by simpa [hb] using hy
          have hdigit := (needsBlank_ends (by rw [ht]; rfl) (by rw [htext]; rfl) hb).2.1 rfl
          rw [hd] at hdigit
          cases hdigit

theorem head_squeezed (h : Pieced d afterValue' rest ps) (htext : t.text.toList = c :: cs)
    (hs : Scan.head d afterValue c (cs ++ rest) = .token t.kind (c :: cs) rest) (ht : t.isTrivia = false)
    (hm : ∀ p ∈ ps.head?, ¬Merges d t p.2) :
    Scan.head d afterValue c (cs ++ piecesText (squeeze t ps)) = .token t.kind (c :: cs) (piecesText (squeeze t ps)) := by
  have hcomment : t.kind ≠ .comment := by
    intro hk
    simp [Token.isTrivia, hk] at ht
  cases h with
  | nil => exact Scan.head_follows hs hcomment fun x hx => by cases hx
  | @cons _ apart _ cs' rest' x u ps hu hus hut ha hps =>
  cases apart with
  | false =>
    obtain rfl := ha rfl
    refine Scan.head_follows hs hcomment fun y hy => .inr ?_
    rw [squeeze, piecesText_cons, hu] at hy ⊢
    obtain rfl : x = y := by simpa using hy
    refine ⟨rfl, ?_⟩
    rintro rfl z hz hd
    exact hps.point hu hz hd
  | true =>
    have hx : u.text.toList.head? = some x := by rw [hu]; rfl
    cases hb : needsBlank t u with
    | true =>
      refine Scan.head_behind hs ?_
      rw [squeeze, hb, piecesText_cons]
      by_cases hk : t.kind = .symbol
      · obtain rfl : cs = [] := by
          rw [hk] at hs
          exact (List.cons.inj (Scan.head_symbol_text hs)).2
        rw [hk]
        refine Harmless.stops ?_
        rintro _ ⟨⟩
        exact harmless_space
      · rw [← htext]
        exact clear_blank.stops afterValue hk ht (by simpa [Token.isEof] using Scan.head_not_eof hs)
    | false =>
      have hbehind : (piecesText (squeeze t ((true, u) :: ps))).head? = some x := by
        rw [squeeze, hb, piecesText_cons, hu]
        rfl
      by_cases hk : t.kind = .number
      · rw [hk] at hs ⊢
        exact number_apart hs hk htext hx hb hbehind
      · apply Scan.head_behind hs
        rw [← htext] at hs ⊢
        exact stops_of_needsBlank hs (hu ▸ hus) ht hut hk hb (hm _ rfl) hbehind

theorem spaced (h : Pieced d afterValue text ps) (hm : (ps.map Prod.snd).IsChain fun t u => ¬Merges d t u) (t : Token) :
    Spaced d afterValue false (piecesText (squeeze t ps)) (squeeze t ps) := by
  induction h generalizing t with
  | nil => exact .nil
  | @cons afterValue apart _ cs rest c u ps htext hs hu _ h ih =>
    rw [List.map_cons, List.isChain_cons] at hm
    obtain ⟨hm, hchain⟩ := hm
    have hhead := h.head_squeezed htext hs hu fun p hp => hm p.2 (by rw [List.head?_map, hp]; rfl)
    have htoken (a : Bool) : Spaced d afterValue a (u.text.toList ++ piecesText (squeeze u ps)) ((a, u) :: squeeze u ps) := by
      rw [htext]
      exact .token (htext ▸ hhead) hu (ih hchain u)
    rw [squeeze, piecesText_cons]
    cases apart && needsBlank t u with
    | true => exact .blank (by decide) (htoken true)
    | false => exact htoken false

theorem no_merges (h : Pieced d afterValue text ps) (hd : d.unknownAsLetters = false) :
    (ps.map Prod.snd).IsChain fun t u => ¬Merges d t u := by
  induction h with
  | nil => exact .nil
  | cons htext hs _ _ _ ih =>
    rw [List.map_cons, List.isChain_cons]
    exact ⟨fun u _ => not_merges hd (htext ▸ hs), ih⟩

end Pieced

theorem needsBlank_same {t' u' : Token} (ht : t.Same t') (hu : u.Same u') : needsBlank t u = needsBlank t' u' := by
  simp only [needsBlank, Token.isSymbol, Token.symbol?, ht.1, ht.2, hu.1, hu.2]

theorem packAfter_text {t' : Token} {apart : Bool} {ts : List Token} {ps : List Piece} {loc : Location}
    (h : Shown apart ts ps) (hp : Token.Placed loc ts) (hne : ∀ u ∈ ts, u.text ≠ "" ∧ u.isEof = false)
    (hle : t.stop.offset ≤ loc.offset) (hloc : apart = true ↔ t.stop.offset < loc.offset) (ht : t.Same t') :
    (String.join (packAfter t (ts.filter isSignificant))).toList = piecesText (squeeze t' ps) := by
  have hstop (u : Token) : u.stop.offset = u.loc.offset + u.text.utf8ByteSize := by
    rw [Token.stop, Location.offset_after, String.ofList_toList]
  induction h generalizing t t' loc with
  | nil => rfl
  | @trivia apart u ts ps hu _ ih =>
    obtain ⟨rfl, hp⟩ := hp
    obtain ⟨⟨hnonempty, -⟩, hne⟩ := List.forall_mem_cons.1 hne
    have hpos : 0 < u.text.utf8ByteSize := Nat.pos_of_ne_zero fun h => hnonempty (String.utf8ByteSize_eq_zero_iff.1 h)
    have hbehind := hstop u
    rw [List.filter_cons_of_neg (by simp [isSignificant, hu])]
    exact ih hp hne (by omega) (by simp; omega) ht
  | @token apart u u' ts ps hsame hu _ ih =>
    obtain ⟨rfl, hp⟩ := hp
    obtain ⟨⟨-, heof⟩, hne⟩ := List.forall_mem_cons.1 hne
    have hseparator : separator t u = if (apart && needsBlank t' u') = true then " " else "" := by
      have hadj : adjacent t u = !apart := by
        rw [adjacent, ← hstop]
        cases apart with
        | true => simpa using Nat.ne_of_lt (hloc.1 rfl)
        | false => simpa using Nat.le_antisymm hle (Nat.le_of_not_lt fun h => by simpa using hloc.2 h)
      rw [separator, hadj, Bool.not_not, needsBlank_same ht hsame]
    have hsig : isSignificant u = true := by
      simp [isSignificant, hsame.isTrivia, hu, heof]
    rw [List.filter_cons_of_pos hsig, packAfter, hseparator]
    have hrest := ih hp hne (Nat.le_refl _) (by simp) hsame
    simp only [String.join_cons, String.toList_append, hrest, squeeze, piecesText_cons, hsame.2]
    split <;> simp

theorem packTokens_eq (tokens : List Token) :
    packTokens tokens = String.join (packAfter (Token.endAt .zero) (tokens.filter isSignificant)) := by
  have hnone (u : Token) : separator (Token.endAt .zero) u = "" := by
    simp [separator, needsBlank, Token.endAt]
  unfold packTokens
  split
  · next h => rw [h]; rfl
  · next h => rw [h, packAfter, hnone, String.join_cons, String.join_cons, String.join_cons, String.empty_append]

theorem packTokens_text {source : String} {ts : List Token} {loc : Location} {ps : List Piece}
    (h : lex source d = .ok (ts ++ [Token.endAt loc])) (hs : Shown false ts ps) :
    (packTokens (ts ++ [Token.endAt loc])).toList = piecesText (squeeze (Token.endAt .zero) ps) := by
  obtain ⟨ts', loc', left, hts, hr, hp⟩ := Lexer.reads_of_tokens (x := Lexer.ofText source d) rfl h
  obtain ⟨rfl, -⟩ := List.append_inj' hts rfl
  have hne : ∀ u ∈ ts, u.text ≠ "" ∧ u.isEof = false := fun u hu => ⟨hr.text_ne u hu, (hr.lexed u hu).isEof⟩
  rw [packTokens_eq, List.filter_append]
  have htext := packAfter_text (t := Token.endAt .zero) hs hp.left hne (Nat.le_refl 0) (by
    simp [Token.stop, Token.endAt, Location.after, Location.zero, Lexer.ofText, Location.start]) (.refl _)
  simpa [isSignificant, Token.isEof_endAt] using htext

theorem packTokens_pieced {source : String} {tokens : List Token} (h : lex source d = .ok tokens) :
    ∃ ts loc ps, tokens = ts ++ [Token.endAt loc] ∧ Spread false ts ps ∧ Pieced d false source.toList ps ∧
      (packTokens tokens).toList = piecesText (squeeze (Token.endAt .zero) ps) := by
  obtain ⟨ts, loc, left, rfl, hr, -⟩ := Lexer.reads_of_tokens (x := Lexer.ofText source d) rfl h
  obtain ⟨ps, hspread, hpieced⟩ := pieced_of_reads hr false
  exact ⟨ts, loc, ps, rfl, hspread, hpieced _ fun _ => rfl,
    packTokens_text h (hspread.shown (List.forall₂_same.2 fun t _ => .refl t))⟩

theorem packTokens_spaced (hd : d.unknownAsLetters = false) {source : String} {tokens : List Token}
    (h : lex source d = .ok tokens) : ∃ ts loc ps, tokens = ts ++ [Token.endAt loc] ∧ Spread false ts ps ∧
      Spaced d false false (packTokens tokens).toList (squeeze (Token.endAt .zero) ps) := by
  obtain ⟨ts, loc, ps, htokens, hspread, hpieced, htext⟩ := packTokens_pieced h
  refine ⟨ts, loc, ps, htokens, hspread, ?_⟩
  rw [htext]
  exact hpieced.spaced (hpieced.no_merges hd) _

end Pack

end GameScript
