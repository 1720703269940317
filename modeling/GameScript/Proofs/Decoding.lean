import GameScript.Proofs.Literals
import GameScript.Proofs.Packing

namespace GameScript

namespace Decimal

variable {radix : Nat} {c : Char} {digits : List Char}

theorem digitValue?_isDigit (hr : 10 ≤ radix) (h : c.isDigit = true) : ∃ n, digitValue? radix c = some n := by
  have hcode := Char.isDigit_iff_toNat.1 h
  have hcodes : '0'.toNat = 48 ∧ '9'.toNat = 57 := by decide
  have hlt : c.toNat - '0'.toNat < radix := by omega
  simp only [digitValue?, if_pos h]
  exact ⟨_, Option.filter_some_pos (by simpa using hlt)⟩

theorem digitValue?_isHexDigit (h : isHexDigit c = true) : ∃ n, digitValue? 16 c = some n := by
  by_cases hd : c.isDigit = true
  · exact digitValue?_isDigit (by decide) hd
  have hcodes : 'a'.toNat = 97 ∧ 'f'.toNat = 102 ∧ 'z'.toNat = 122 ∧ 'A'.toNat = 65 ∧ 'F'.toNat = 70 ∧
      'Z'.toNat = 90 := by decide
  simp only [isHexDigit, hd, Bool.or_eq_true, Bool.and_eq_true, decide_eq_true_eq, Bool.false_eq_true, false_or,
    Char.le_def, UInt32.le_iff_toNat_le, Char.toNat_val] at h
  simp only [digitValue?, hd, Bool.false_eq_true, if_false, Char.le_def, UInt32.le_iff_toNat_le, Char.toNat_val]
  obtain hlower | hupper := h
  · have hletter : 'a'.toNat ≤ c.toNat ∧ c.toNat ≤ 'z'.toNat := by omega
    have hlt : c.toNat - 'a'.toNat + 10 < 16 := by omega
    rw [if_pos hletter]
    exact ⟨_, Option.filter_some_pos (by simpa using hlt)⟩
  · have hletter : 'A'.toNat ≤ c.toNat ∧ c.toNat ≤ 'Z'.toNat := by omega
    have hlt : c.toNat - 'A'.toNat + 10 < 16 := by omega
    rw [if_neg (by omega), if_pos hletter]
    exact ⟨_, Option.filter_some_pos (by simpa using hlt)⟩

theorem readDigits_ne_malformed {negative : Bool} {value : Int}
    (hd : ∀ c ∈ digits, ∃ n, digitValue? radix c = some n) :
    readDigits radix negative value digits ≠ .error .malformed := by
  induction digits generalizing value with
  | nil => simp [readDigits]
  | cons c digits ih =>
    obtain ⟨⟨n, hn⟩, hrest⟩ := List.forall_mem_cons.1 hd
    simp only [readDigits, hn]
    by_cases hrange : inRange64 (if negative then value * radix - n else value * radix + n) = true
    · rw [if_pos hrange]
      exact ih hrest
    · rw [if_neg hrange]
      simp

theorem readInteger_ne_malformed (hn : digits ≠ []) (hd : ∀ c ∈ digits, ∃ n, digitValue? radix c = some n) :
    readInteger radix digits ≠ .error .malformed := by
  have hsign (c : Char) (hc : c = '+' ∨ c = '-') : digitValue? radix c = none := by
    obtain rfl | rfl := hc <;> rfl
  unfold readInteger
  split
  · exact absurd rfl hn
  · simp [hsign] at hd
  · simp [hsign] at hd
  · simp [hsign] at hd
  · simp [hsign] at hd
  · exact readDigits_ne_malformed hd

theorem lowerWord_point {text : List Char} (h : '.' ∈ text) {word : String} (hw : '.' ∉ word.toList) :
    lowerWord (String.ofList text) ≠ word := by
  rintro rfl
  refine hw ?_
  rw [lowerWord, String.toList_ofList, String.toList_ofList]
  exact List.mem_map_of_mem (f := Char.toLower) h

theorem readUnsigned?_point {negative : Bool} {whole fraction : List Char} (hw : ∀ c ∈ whole, c.isDigit = true)
    (hf : ∀ c ∈ fraction, c.isDigit = true) (hn : fraction ≠ []) : ∃ digits count exponent,
      readUnsigned? negative (whole ++ '.' :: fraction) = some (nearestDecimal negative digits count exponent) := by
  have hpoint : ∀ x ∈ ('.' :: fraction).head?, x.isDigit = false := by
    rintro _ ⟨⟩
    decide
  obtain ⟨ht, hd⟩ := Scan.takeWhile_append hw hpoint
  have hend := Scan.takeWhile_append hf (show ∀ x ∈ ([] : List Char).head?, x.isDigit = false by simp)
  rw [List.append_nil] at hend
  obtain ⟨ht', hd'⟩ := hend
  have hmem : '.' ∈ whole ++ '.' :: fraction := by simp
  have hinf : ¬(lowerWord (String.ofList (whole ++ '.' :: fraction)) = "inf" ∨
      lowerWord (String.ofList (whole ++ '.' :: fraction)) = "infinity") :=
    not_or.2 ⟨lowerWord_point hmem (by decide), lowerWord_point hmem (by decide)⟩
  have hnan : lowerWord (String.ofList (whole ++ '.' :: fraction)) ≠ "nan" := lowerWord_point hmem (by decide)
  refine ⟨digitsValue (whole ++ fraction), whole.length + fraction.length, 0 - fraction.length, ?_⟩
  simp only [readUnsigned?]
  rw [if_neg hinf, if_neg hnan]
  simp [ht, hd, ht', hd', hn, readExponent?]

theorem readFloat?_point {whole fraction : List Char} (hw : ∀ c ∈ whole, c.isDigit = true)
    (hf : ∀ c ∈ fraction, c.isDigit = true) (hn : fraction ≠ []) : ∃ digits count exponent,
      readFloat? (String.ofList (whole ++ '.' :: fraction)) = some (nearestDecimal false digits count exponent) := by
  have hread : ∃ digits count exponent, readUnsigned? false (whole ++ '.' :: fraction) =
      some (nearestDecimal false digits count exponent) := readUnsigned?_point hw hf hn
  have hsign : ∀ c, c = '-' ∨ c = '+' → ∀ rest, whole ++ '.' :: fraction ≠ c :: rest := by
    rintro c hc rest he
    cases whole with
    | nil => obtain rfl | rfl := hc <;> simp at he
    | cons x whole =>
      have hx := hw x (by simp)
      obtain rfl := (List.cons.inj he).1
      obtain rfl | rfl := hc <;> simp [Char.isDigit] at hx
  unfold readFloat?
  rw [String.toList_ofList]
  split
  · next rest he => exact absurd he (hsign _ (.inl rfl) _)
  · next rest he => exact absurd he (hsign _ (.inr rfl) _)
  · exact hread

end Decimal

namespace Scan

inductive Numeral : List Char → Prop
  | hex {x : Char} {digits : List Char} (hx : x = 'x' ∨ x = 'X') (hn : digits ≠ [])
      (hd : ∀ c ∈ digits, isHexDigit c = true) : Numeral ('0' :: x :: digits)
  | whole {digits : List Char} (hn : digits ≠ []) (hd : ∀ c ∈ digits, c.isDigit = true) : Numeral digits
  | point {whole fraction : List Char} (hw : ∀ c ∈ whole, c.isDigit = true) (hn : fraction ≠ [])
      (hf : ∀ c ∈ fraction, c.isDigit = true) : Numeral (whole ++ '.' :: fraction)

theorem number_numeral {d : Dialect} {cs text rest : List Char} {kind : TokenKind}
    (h : number d cs = .token kind text rest) (hne : text ≠ []) : Numeral text := by
  have hdecimal (hne : (decimal cs).1 ≠ []) : Numeral (decimal cs).1 := by
    obtain hd | ⟨whole, fraction, he, hw, hf, hn⟩ := decimal_cases cs
    · exact .whole hne hd
    · rw [he]
      exact .point hw hn hf
  unfold number at h
  split at h
  · split at h
    · next hx =>
      split at h
      · cases h
      · next hn =>
        obtain ⟨-, rfl, -⟩ := Scan.token.inj h
        exact .hex hx.2 hn fun c hc => List.mem_takeWhile_imp hc
    · cases h
      exact hdecimal hne
  · cases h
    exact hdecimal hne

inductive Enclosed (quote : Char) : List Char → Prop
  | nil : Enclosed quote []
  | plain {c : Char} {cs : List Char} (hc : c ≠ '\\') (hq : c ≠ quote) (h : Enclosed quote cs) : Enclosed quote (c :: cs)
  | escape {c : Char} {cs : List Char} (h : Enclosed quote cs) : Enclosed quote ('\\' :: c :: cs)

theorem quoted_enclosed {quote : Char} {cs text rest : List Char} (h : quoted quote cs = some (text, rest)) :
    ∃ body, text = body ++ [quote] ∧ Enclosed quote body := by
  fun_induction quoted quote cs generalizing text rest with
  | case1 => cases h
  | case2 => cases h
  | case3 c cs ih =>
    simp only [Option.map_eq_some_iff, Prod.mk.injEq, Prod.exists] at h
    obtain ⟨text, left, htext, rfl, rfl⟩ := h
    obtain ⟨body, rfl, hbody⟩ := ih htext
    exact ⟨'\\' :: c :: body, rfl, .escape hbody⟩
  | case4 =>
    simp only [Option.some.injEq, Prod.mk.injEq] at h
    obtain ⟨rfl, rfl⟩ := h
    exact ⟨[], rfl, .nil⟩
  | case5 c cs hc hq ih =>
    simp only [Option.map_eq_some_iff, Prod.mk.injEq, Prod.exists] at h
    obtain ⟨text, left, htext, rfl, rfl⟩ := h
    obtain ⟨body, rfl, hbody⟩ := ih htext
    exact ⟨c :: body, rfl, .plain hc hq hbody⟩

theorem string_enclosed {kind kind' : TokenKind} {quote : Char} {opening cs text rest : List Char}
    (h : string kind quote opening cs = .token kind' text rest) :
    ∃ body, text = opening ++ body ++ [quote] ∧ Enclosed quote body := by
  unfold string at h
  split at h
  · next hq =>
    obtain ⟨-, rfl, -⟩ := Scan.token.inj h
    obtain ⟨body, rfl, hbody⟩ := quoted_enclosed hq
    exact ⟨body, by simp, hbody⟩
  · cases h

end Scan

namespace Value

theorem unescape_enclosed {quote : Char} {body : List Char} (h : Scan.Enclosed quote body) (kind raw : String) :
    (∃ out, unescape kind raw body = .ok out) ∨
      ∃ c, unescape? c = none ∧ unescape kind raw body = .error (.unknownEscape c) := by
  induction h with
  | nil => exact .inl ⟨[], rfl⟩
  | @plain c cs hc _ _ ih =>
    simp only [unescape.eq_def kind raw (c :: cs), if_neg hc]
    obtain ⟨out, hout⟩ | ⟨e, he, herror⟩ := ih
    · exact .inl ⟨c :: out, by rw [hout]; rfl⟩
    · exact .inr ⟨e, he, by rw [herror]; rfl⟩
  | @escape c cs _ ih =>
    rw [unescape, if_pos rfl]
    cases hc : unescape? c with
    | none => exact .inr ⟨c, hc, rfl⟩
    | some e =>
      obtain ⟨out, hout⟩ | ⟨x, hx, herror⟩ := ih
      · exact .inl ⟨e :: out, by simp only [hout]; rfl⟩
      · exact .inr ⟨x, hx, by simp only [herror]; rfl⟩

theorem unquote_enclosed {quote : Char} {body : List Char} (hq : quote = '\x22' ∨ quote = '\x27')
    (h : Scan.Enclosed quote body) (kind : String) :
    (∃ s, unquote kind (String.ofList (quote :: (body ++ [quote]))) = .ok s) ∨
      ∃ c, unescape? c = none ∧
        unquote kind (String.ofList (quote :: (body ++ [quote]))) = .error (.unknownEscape c) := by
  have hunquote : unquote kind (String.ofList (quote :: (body ++ [quote]))) =
      (unescape kind (String.ofList (quote :: (body ++ [quote]))) body).map String.ofList := by
    obtain ⟨x, xs, hx⟩ := List.exists_cons_of_ne_nil (show body ++ [quote] ≠ [] by simp)
    have hlast : (x :: xs).getLast? = some quote := by rw [← hx]; simp
    have hbody : (x :: xs).dropLast = body := by rw [← hx]; simp
    rw [unquote, String.toList_ofList, hx]
    simp only [hq, hlast, hbody, and_self, if_true]
  rw [hunquote]
  obtain ⟨out, hout⟩ | ⟨c, hc, herror⟩ :=
    unescape_enclosed h kind (String.ofList (quote :: (body ++ [quote])))
  · exact .inl ⟨String.ofList out, by rw [hout]; rfl⟩
  · exact .inr ⟨c, hc, by rw [herror]; rfl⟩

end Value

/-- The literal has a value, unless it is an integer out of range or a string with an unknown escape. -/
inductive Literal.Decodes (l : Literal) : Prop
  | value (v : Value) (h : l.value = .ok v)
  | outOfRange (hk : l.kind = .integer) (h : l.value = .error (.outOfRange l.raw))
  | unknownEscape (c : Char) (hk : l.kind = .string ∨ l.kind = .localized) (hc : Value.unescape? c = none)
      (h : l.value = .error (.unknownEscape c))

namespace Token

variable {d : Dialect} {t : Token}

theorem Lexed.found (h : t.Lexed d) (hk : t.kind ≠ .symbol) :
    ∃ c cs rest, t.text.toList ≠ [] ∧ Scan.Found d false c cs t.kind t.text.toList rest := by
  obtain ⟨c, cs, rest, htext, hs⟩ := h.readable hk
  refine ⟨c, cs ++ rest, rest, by simp [htext], ?_⟩
  rw [htext]
  exact Scan.head_found hs

theorem Lexed.numeral (h : t.Lexed d) (hk : t.kind = .number) : Scan.Numeral t.text.toList := by
  obtain ⟨c, cs, rest, hne, hfound⟩ := h.found (by simp [hk])
  rw [hk] at hfound
  cases hfound with
  | number _ hs => exact Scan.number_numeral hs hne

theorem Lexed.enclosed (h : t.Lexed d) (hk : t.kind = .string) :
    ∃ quote body, (quote = '\x22' ∨ quote = '\x27') ∧ t.text = String.ofList (quote :: (body ++ [quote])) ∧
      Scan.Enclosed quote body := by
  obtain ⟨c, cs, rest, -, hfound⟩ := h.found (by simp [hk])
  rw [hk] at hfound
  generalize htext : t.text.toList = text at hfound
  cases hfound with
  | string hq hs =>
    obtain ⟨body, rfl, hbody⟩ := Scan.string_enclosed hs
    exact ⟨c, body, hq, Pack.eq_of_toList htext, hbody⟩

theorem Lexed.localized (h : t.Lexed d) (hk : t.kind = .metaString) :
    ∃ body, t.text = String.ofList ('&' :: '\x22' :: (body ++ ['\x22'])) ∧ Scan.Enclosed '\x22' body := by
  obtain ⟨c, cs, rest, -, hfound⟩ := h.found (by simp [hk])
  rw [hk] at hfound
  generalize htext : t.text.toList = text at hfound
  cases hfound with
  | metaString hc hs =>
    subst hc
    obtain ⟨body, rfl, hbody⟩ := Scan.string_enclosed hs
    exact ⟨body, Pack.eq_of_toList htext, hbody⟩

theorem Lexed.resource (h : t.Lexed d) (hk : t.kind = .resource) :
    ∃ c cs, t.text = String.ofList ('%' :: c :: cs) := by
  obtain ⟨c, cs, rest, -, hfound⟩ := h.found (by simp [hk])
  rw [hk] at hfound
  generalize htext : t.text.toList = text at hfound
  cases hfound with
  | resource hc hs =>
    obtain ⟨x, xs, rfl, hx⟩ := hs
    subst hc
    refine ⟨x, xs.takeWhile d.isWordChar, Pack.eq_of_toList ?_⟩
    rw [htext, List.takeWhile_cons_of_pos (Dialect.isWordChar_of_isWordStart hx)]

end Token

theorem Value.decodeInteger_cases {raw : String}
    (h : (match raw.toList with
      | '0' :: 'x' :: digits | '0' :: 'X' :: digits => Decimal.readInteger 16 digits
      | digits => Decimal.readInteger 10 digits) ≠ .error .malformed) :
    (∃ v, decodeInteger raw = .ok v) ∨ decodeInteger raw = .error (.outOfRange raw) := by
  simp only [decodeInteger]
  split
  · exact .inl ⟨_, rfl⟩
  · next hm => exact absurd hm h
  · exact .inr rfl

namespace Scan.Numeral

variable {text : String}

theorem integer (h : Numeral text.toList) (hp : text.toList.contains '.' = false) :
    (∃ v, Value.decodeInteger text = .ok v) ∨ Value.decodeInteger text = .error (.outOfRange text) := by
  apply Value.decodeInteger_cases
  generalize text.toList = cs at h hp
  cases h with
  | hex hx hn hd =>
    have hread := Decimal.readInteger_ne_malformed hn fun c hc => Decimal.digitValue?_isHexDigit (hd c hc)
    obtain rfl | rfl := hx <;> exact hread
  | whole hn hd =>
    have hdigits : ∀ c ∈ cs, ∃ n, Decimal.digitValue? 10 c = some n := by
      intro c hc
      exact Decimal.digitValue?_isDigit (Nat.le_refl 10) (hd c hc)
    have hread := Decimal.readInteger_ne_malformed hn hdigits
    have hx : Char.isDigit 'x' = false ∧ Char.isDigit 'X' = false := by decide
    split
    · simp [hx] at hd
    · simp [hx] at hd
    · exact hread
  | point => simp at hp

theorem float (h : Numeral text.toList) (hp : text.toList.contains '.' = true) : ∃ digits count exponent,
    Decimal.readFloat? text = some (Decimal.nearestDecimal false digits count exponent) := by
  generalize htext : text.toList = cs at h hp
  cases h with
  | hex hx hn hd =>
    have hpoint : isHexDigit '.' = false := by decide
    obtain rfl | rfl := hx <;> simp at hp <;> simp [hd _ hp] at hpoint
  | whole hn hd =>
    have hpoint : Char.isDigit '.' = false := by decide
    rw [hd '.' (by simpa using hp)] at hpoint
    cases hpoint
  | point hw hn hf =>
    rw [Pack.eq_of_toList htext]
    exact Decimal.readFloat?_point hw hf hn

theorem decodes (h : Numeral text.toList) : Literal.Decodes ⟨Session.numberKind text, text, false⟩ := by
  by_cases hp : text.toList.contains '.' = true
  · obtain ⟨digits, count, exponent, hx⟩ := h.float hp
    rw [Session.numberKind, if_pos hp]
    refine .value (.float (Decimal.nearestDecimal false digits count exponent)) ?_
    simp only [Literal.value, Value.decode, hx]
  · rw [Session.numberKind, if_neg hp]
    obtain ⟨v, hv⟩ | herror := h.integer (Bool.eq_false_iff.2 hp)
    · exact .value v hv
    · exact .outOfRange rfl herror

end Scan.Numeral

namespace Literal.Decodes

theorem of_unquote {kind : LiteralKind} {raw : String} {quote : Char} {body : List Char}
    (hk : kind = .string ∨ kind = .localized) (marked : String) (f : String → Value)
    (hdecode : Value.decode kind raw = (Value.unquote marked (String.ofList (quote :: (body ++ [quote])))).map f)
    (hq : quote = '\x22' ∨ quote = '\x27') (hbody : Scan.Enclosed quote body) : Decodes ⟨kind, raw, false⟩ := by
  obtain ⟨s, hs⟩ | ⟨c, hc, herror⟩ := Value.unquote_enclosed hq hbody marked
  · refine .value (f s) ?_
    rw [Literal.value, hdecode, hs]
    rfl
  · refine .unknownEscape c hk hc ?_
    rw [Literal.value, hdecode, herror]
    rfl

theorem of_keyword {mode : GameMode} {t : Token} {b : Bool}
    (h : t.keyword? mode = some (if b then .trueKw else .falseKw)) : Decodes ⟨.bool, t.text, false⟩ := by
  have hword := sameWord_comm _ _ ▸ sameWord_keyword h
  refine .value (.bool b) ?_
  cases b with
  | true => exact if_pos hword
  | false =>
    have hother : ¬sameWord t.text Keyword.trueKw.spelling = true := by
      intro htrue
      have hsame := sameWord_trans (sameWord_comm _ _ ▸ htrue) hword
      revert hsame
      decide +kernel
    exact (if_neg hother).trans (if_pos hword)

theorem marked {l : Literal} (h : l.Decodes) : Literal.Decodes { l with folded := true } := by
  cases h with
  | value v h => exact .value v h
  | outOfRange hk h => exact .outOfRange hk h
  | unknownEscape c hk hc h => exact .unknownEscape c hk hc h

end Literal.Decodes

theorem Token.Lexed.decodes {d : Dialect} {t : Token} (h : t.Lexed d) {mode : GameMode} {kind : LiteralKind}
    (hk : t.literalKind? mode = some kind) : Literal.Decodes ⟨kind, t.text, false⟩ := by
  unfold Token.literalKind? at hk
  cases hkind : t.kind <;> simp only [hkind, Option.some.injEq, reduceCtorEq] at hk
  case identifier =>
    split at hk
    · next hkeyword =>
      obtain rfl := Option.some.inj hk
      exact .of_keyword (b := true) hkeyword
    · next hkeyword =>
      obtain rfl := Option.some.inj hk
      exact .of_keyword (b := false) hkeyword
    · obtain rfl := Option.some.inj hk
      exact .value .undefined rfl
    · cases hk
  case number =>
    subst hk
    exact (h.numeral hkind).decodes
  case string =>
    subst hk
    obtain ⟨quote, body, hq, htext, hbody⟩ := h.enclosed hkind
    exact .of_unquote (.inl rfl) "string" .string (by rw [Value.decode, htext]) hq hbody
  case metaString =>
    subst hk
    obtain ⟨body, htext, hbody⟩ := h.localized hkind
    exact .of_unquote (.inr rfl) "localized string" .localized
      (by simp only [Value.decode, htext, String.toList_ofList]) (.inl rfl) hbody
  case resource =>
    subst hk
    obtain ⟨c, cs, htext⟩ := h.resource hkind
    refine .value (.resource (String.ofList (c :: cs))) ?_
    simp only [Literal.value, Value.decode, htext, String.toList_ofList]

theorem literals_of_lex {P : Literal → Prop} {mode : GameMode} {source : String} {d : Dialect} {tokens : List Token}
    (h : lex source d = .ok tokens)
    (hP : ∀ t : Token, t.Lexed d → ∀ kind, t.literalKind? mode = some kind → P ⟨kind, t.text, false⟩) :
    ∀ t ∈ TokenStream.closed tokens, ∀ kind, t.literalKind? mode = some kind → P ⟨kind, t.text, false⟩ := by
  obtain ⟨ts, loc, rfl, hlexed⟩ := lexed_of_lex h
  have hend {t : Token} (he : t.isEof = true) {kind : LiteralKind} (hk : t.literalKind? mode = some kind) : False := by
    simp only [Token.isEof, beq_iff_eq] at he
    simp [Token.literalKind?, he] at hk
  intro t ht kind hk
  obtain ht | he := TokenStream.mem_closed ht
  · obtain ht | ht := List.mem_append.1 ht
    · exact hP t (hlexed t ht) kind hk
    · obtain rfl := List.mem_singleton.1 ht
      exact (hend rfl hk).elim
  · exact (hend he hk).elim

/-- Every literal that the parser builds from the tokens of a text decodes: those that it holds at any time, in what is
finished and in what is not, and those of its result. -/
theorem built_literals_decode {source : String} {d : Dialect} {tokens : List Token} (h : lex source d = .ok tokens)
    (config : ParserConfig) :
    (∀ n, (Session.steps n (Session.ofTokens tokens config)).Stores (Expr.Literals Literal.Decodes) ∧
      ∀ x ∈ (Session.steps n (Session.ofTokens tokens config)).expr, x.Literals Literal.Decodes) ∧
    ∀ g, (parse tokens config).graph = some g → g.view.Exprs (Expr.Literals Literal.Decodes) := by
  have hinherited : Inherited config (Expr.Literals Literal.Decodes) (ExprState.Literals Literal.Decodes)
      fun t => ∀ kind, t.literalKind? config.dialect.mode = some kind → Literal.Decodes ⟨kind, t.text, false⟩ :=
    .literals (.value .undefined rfl) (fun _ => .marked) fun _ ht => ht
  have htokens : ∀ t ∈ (TokenStream.ofList tokens).tokens.toList, ∀ kind,
      t.literalKind? config.dialect.mode = some kind → Literal.Decodes ⟨kind, t.text, false⟩ :=
    literals_of_lex h fun t ht kind hk => ht.decodes hk
  constructor
  · exact Session.steps_stores hinherited htokens
  · intro g hg
    exact parse_exprs hinherited htokens hg

def View.literal? : View → Option Literal
  | .expr (.literal _ l) => some l
  | _ => none

theorem built_literals_decode_escapes :
    let tokens : List Token := [⟨.string, "\"a\\\"\"", .start⟩, ⟨.symbol, "+", ⟨1, 6, 5⟩⟩,
      ⟨.string, "\"\\q\"", ⟨1, 7, 6⟩⟩, ⟨.symbol, "+", ⟨1, 11, 10⟩⟩,
      ⟨.number, "0xFFFFFFFFFFFFFFFF", ⟨1, 12, 11⟩⟩, Token.endAt ⟨1, 30, 29⟩]
    let config : ParserConfig := { target := .expression }
    lex "\"a\\\"\"+\"\\q\"+0xFFFFFFFFFFFFFFFF" {} = .ok tokens ∧
      (∀ n, (Session.steps n (Session.ofTokens tokens config)).Stores (Expr.Literals Literal.Decodes) ∧
        ∀ x ∈ (Session.steps n (Session.ofTokens tokens config)).expr, x.Literals Literal.Decodes) ∧
      ∃ g, (parse tokens config).graph = some g ∧ g.view.Exprs (Expr.Literals Literal.Decodes) ∧
        (g.view.walk.filterMap View.literal?).map (fun l => (l.value.map Value.text).mapError LiteralError.message) =
          [.ok "\"a\\\"\"", .error "unknown escape sequence `\\q` in string literal",
            .error "integer literal `0xFFFFFFFFFFFFFFFF` is out of range"] := by
  intro tokens config
  have hlex : lex "\"a\\\"\"+\"\\q\"+0xFFFFFFFFFFFFFFFF" {} = .ok tokens := by decide +kernel
  have htexts : (parse tokens config).graph.any (fun g =>
      (g.view.walk.filterMap View.literal?).map (fun l => (l.value.map Value.text).mapError LiteralError.message) =
          [.ok "\"a\\\"\"", .error "unknown escape sequence `\\q` in string literal",
            .error "integer literal `0xFFFFFFFFFFFFFFFF` is out of range"]) = true := by decide +kernel
  obtain ⟨hsteps, hresult⟩ := built_literals_decode hlex config
  obtain ⟨g, hg, hgraph⟩ := (Option.any_eq_true _ _).1 htexts
  exact ⟨hlex, hsteps, g, hg, hresult g hg, of_decide_eq_true hgraph⟩

end GameScript
