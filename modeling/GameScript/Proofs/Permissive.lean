import GameScript.Proofs.Halting
import GameScript.Proofs.Lexing

/-!
Switches that let more pass change nothing for a script that passes without them. Every character of
it outside of strings and comments is a known one, so the lexer finds the same tokens; and the parser
refuses nothing, so it never comes to where a switch is looked up with another answer.
-/

namespace GameScript

namespace Dialect

variable {d : Dialect} {w : Switches} {c : Char}

/-- Single quotes open nothing, and there are no letters but the known ones. -/
structure Strict (d : Dialect) : Prop where
  singleQuoteStrings : d.singleQuoteStrings = false
  unknownAsLetters : d.unknownAsLetters = false

theorem isUnknown_turnOn (h : d.isUnknown c = false) : (d.turnOn w).isUnknown c = false := by
  simp only [isUnknown, turnOn, Bool.not_eq_eq_eq_not, Bool.not_false] at h ⊢
  grind

theorem isWordStart_turnOn (h : d.isUnknown c = false) : (d.turnOn w).isWordStart c = d.isWordStart c := by
  simp [isWordStart, h, isUnknown_turnOn h]

theorem isWordChar_turnOn (h : d.isUnknown c = false) : (d.turnOn w).isWordChar c = d.isWordChar c := by
  simp [isWordChar, h, isUnknown_turnOn h]

theorem Strict.unknown_quote (hd : d.Strict) : d.isUnknown '\x27' = true := by
  simp only [isUnknown, hd.singleQuoteStrings, Bool.and_false]
  decide

theorem Strict.known_of_isWordStart (hd : d.Strict) (h : d.isWordStart c = true) : d.isUnknown c = false := by
  simp only [isWordStart, hd.unknownAsLetters, Bool.false_and, Bool.or_false, Bool.or_eq_true] at h
  obtain h | h := h <;> simp [isUnknown, Char.isAlphanum, h]

theorem Strict.known_of_isWordChar (hd : d.Strict) (h : d.isWordChar c = true) : d.isUnknown c = false := by
  simp only [isWordChar, hd.unknownAsLetters, Bool.false_and, Bool.or_false] at h
  simp [isUnknown, h]

end Dialect

namespace Scan

variable {d : Dialect} {w : Switches} {afterValue : Bool} {c : Char} {cs text rest : List Char} {kind : TokenKind}

theorem head_known (hd : d.Strict) (h : head d afterValue c cs = .token kind text rest) : d.isUnknown c = false := by
  cases hc : d.isUnknown c with
  | false => rfl
  | true =>
    simp only [Dialect.isUnknown, hd.singleQuoteStrings, Bool.and_false, Bool.or_false] at hc
    simp [symbolChars, Char.isAlphanum] at hc
    simp [head, hd.singleQuoteStrings, hd.unknownAsLetters, Dialect.isWordStart, symbolChars, hc] at h

theorem word_turnOn (hd : d.Strict) {kind' : TokenKind} (h : word kind' d.isWordChar c cs = .token kind text rest)
    (hr : ∀ x ∈ rest.head?, d.isUnknown x = false) :
    word kind' (d.turnOn w).isWordChar c cs = .token kind text rest := by
  have hdrop : cs.dropWhile d.isWordChar = rest := by
    simp only [word, Scan.token.injEq] at h
    exact h.2.2
  have htake : ∀ x ∈ cs.takeWhile d.isWordChar, (d.turnOn w).isWordChar x = true := by
    intro x hx
    have hword := List.mem_takeWhile_imp hx
    rwa [Dialect.isWordChar_turnOn (hd.known_of_isWordChar hword)]
  have hstop : ∀ x ∈ rest.head?, (d.turnOn w).isWordChar x = false := by
    intro x hx
    rw [Dialect.isWordChar_turnOn (hr x hx)]
    exact head?_dropWhile cs x (hdrop ▸ hx)
  obtain ⟨ht, hs⟩ := takeWhile_append htake hstop
  rw [← hdrop, List.takeWhile_append_dropWhile] at ht hs
  rw [← h, word, word, ht, hs]

theorem same_branch {p : Prop} [Decidable p] {yes no yes' no' s : Scan} (h : (if p then yes else no) = s)
    (hy : yes = s → yes' = s) (hn : no = s → no' = s) : (if p then yes' else no') = s := by
  split at h
  · next hp => rw [if_pos hp, hy h]
  · next hp => rw [if_neg hp, hn h]

theorem resource_turnOn (hd : d.Strict) (h : head d afterValue c cs = .token kind text rest)
    (hr : ∀ x ∈ rest.head?, d.isUnknown x = false) :
    (decide (c = '%') && (cs.head?.map (d.turnOn w).isWordStart).getD false && !afterValue) =
      (decide (c = '%') && (cs.head?.map d.isWordStart).getD false && !afterValue) := by
  by_cases hc : c = '%' ∧ afterValue = false
  · obtain ⟨rfl, rfl⟩ := hc
    cases cs with
    | nil => rfl
    | cons x xs =>
      cases hx : d.isWordStart x with
      | true =>
        have hknown := hd.known_of_isWordStart hx
        simp [Dialect.isWordStart_turnOn hknown, hx]
      | false =>
        have hsymbol : head d false '%' (x :: xs) = .token .symbol ['%'] (x :: xs) :=
          head_symbol (by decide) fun _ hy => by simp_all
        rw [hsymbol] at h
        cases h
        simp [Dialect.isWordStart_turnOn (hr x rfl), hx]
  · obtain hc | hc := not_and_or.1 hc <;> simp [hc]

theorem head_turnOn (hd : d.Strict) (h : head d afterValue c cs = .token kind text rest)
    (hr : ∀ x ∈ rest.head?, d.isUnknown x = false) : head (d.turnOn w) afterValue c cs = .token kind text rest := by
  have hc := head_known hd h
  have hquote : c ≠ '\x27' := by
    rintro rfl
    rw [hd.unknown_quote] at hc
    cases hc
  have hresource := resource_turnOn (w := w) hd h hr
  unfold head at h ⊢
  simp only [hresource, Dialect.isWordStart_turnOn hc, hquote, decide_false, Bool.false_and] at h ⊢
  iterate 6 refine same_branch h id fun h => ?_
  refine same_branch h (fun h => word_turnOn hd h hr) fun h => ?_
  refine same_branch h id fun h => ?_
  refine same_branch h id fun h => ?_
  refine same_branch h (fun h => word_turnOn hd h hr) fun h => ?_
  exact same_branch h id id

end Scan

theorem Reads.turnOn {d : Dialect} {w : Switches} {afterValue left : Bool} {cs : List Char} {ts : List Token} (hd : d.Strict)
    (h : Reads d afterValue cs ts left []) :
    Reads (d.turnOn w) afterValue cs ts left [] ∧ ∀ x ∈ cs.head?, d.isUnknown x = false := by
  generalize hend : ([] : List Char) = end' at h
  induction h with
  | done =>
    subst hend
    exact ⟨.done, by simp⟩
  | @token afterValue left c cs rest end' t ts hs _ ih =>
    -- The token ends where it did, since a known character begins the next one.
    obtain ⟨hread, hknown⟩ := ih hend
    refine ⟨.token (Scan.head_turnOn hd hs hknown) hread, fun x hx => ?_⟩
    cases hx
    exact Scan.head_known hd hs

theorem lex_turnOn {source : String} {d : Dialect} {tokens : List Token} (w : Switches) (hd : d.Strict)
    (h : lex source d = .ok tokens) : lex source (d.turnOn w) = .ok tokens := by
  obtain ⟨ts, loc, left, rfl, hread, hplaced⟩ := Lexer.reads_of_tokens (x := Lexer.ofText source d) rfl h
  exact lex_of_reads (hread.turnOn hd).1 hplaced

/-- A script that passes gives the same tokens, tree and warnings whatever further switches are on. -/
theorem parse_permissive {source : String} {config : ParserConfig} {o : ParseOutput} (w : Switches)
    (hd : config.dialect.Strict) (h : parseSource source config = .ok o) (ho : o.isSuccess = true) :
    lex source (config.turnOn w).dialect = lex source config.dialect ∧
      parseSource source (config.turnOn w) = .ok o := by
  unfold parseSource at h
  cases hlex : lex source config.dialect with
  | error e => simp [hlex, Except.map] at h
  | ok tokens =>
    obtain rfl : parse tokens config = o := by simpa [hlex, Except.map] using h
    have hlex' : lex source (config.turnOn w).dialect = .ok tokens := lex_turnOn w hd hlex
    have herrors : (parse tokens config).errors = [] := by
      simp only [ParseOutput.isSuccess, Bool.and_eq_true, List.isEmpty_iff] at ho
      exact ho.2
    refine ⟨hlex', ?_⟩
    rw [parseSource, hlex', Except.map, parse_turnOn w herrors]

theorem parse_permissive_string :
    let source := "f()\x7ba=\x22é\x27\x22;\x7d"
    let config : ParserConfig := {}
    let w : Switches := ⟨true, true, true, true, true⟩
    let tokens : List Token := [⟨.identifier, "f", .start⟩, ⟨.symbol, "(", ⟨1, 2, 1⟩⟩, ⟨.symbol, ")", ⟨1, 3, 2⟩⟩,
      ⟨.symbol, "\x7b", ⟨1, 4, 3⟩⟩, ⟨.identifier, "a", ⟨1, 5, 4⟩⟩, ⟨.symbol, "=", ⟨1, 6, 5⟩⟩,
      ⟨.string, "\x22é\x27\x22", ⟨1, 7, 6⟩⟩, ⟨.symbol, ";", ⟨1, 11, 11⟩⟩, ⟨.symbol, "\x7d", ⟨1, 12, 12⟩⟩,
      Token.endAt ⟨1, 13, 13⟩]
    let o := parse tokens config
    config.dialect.Strict ∧ parseSource source config = .ok o ∧ o.isSuccess = true ∧
      lex source (config.turnOn w).dialect = .ok tokens ∧ parseSource source (config.turnOn w) = .ok o := by
  intro source config w tokens o
  have hlex : lex source config.dialect = .ok tokens := by decide +kernel
  have hok : parseSource source config = .ok o := by
    rw [parseSource, hlex]
    rfl
  have hsuccess : o.isSuccess = true := by decide +kernel
  obtain ⟨hsame, hagain⟩ := parse_permissive w ⟨rfl, rfl⟩ hok hsuccess
  exact ⟨⟨rfl, rfl⟩, hok, hsuccess, hsame.trans hlex, hagain⟩

end GameScript
