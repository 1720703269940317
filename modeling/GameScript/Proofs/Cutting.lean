import GameScript.Proofs.Packing

namespace GameScript

namespace Scan

variable {d : Dialect} {afterValue : Bool} {c : Char} {cs rest behind : List Char} {kind : TokenKind}

theorem head_cut (h : head d afterValue c (cs ++ (rest ++ behind)) = .token kind (c :: cs) (rest ++ behind)) :
    head d afterValue c (cs ++ rest) = .token kind (c :: cs) rest := by
  have hhead : ∀ x ∈ rest.head?, (rest ++ behind).head? = some x := by
    intro x hx
    obtain ⟨rest, rfl⟩ := List.head?_eq_some_iff.1 hx
    rfl
  by_cases hc : kind = .comment
  · subst hc
    apply comment_behind h
    intro x hx
    exact ⟨x, hhead x hx, id⟩
  · apply head_follows h hc
    intro x hx
    refine .inr ⟨hhead x hx, fun _ y hy _ => ?_⟩
    obtain ⟨rest, rfl⟩ := List.head?_eq_some_iff.1 hx
    obtain ⟨rest, rfl⟩ := List.head?_eq_some_iff.1 hy
    rfl

theorem of_other_branch {p : Prop} [Decidable p] {yes no s : Scan} (h : (if p then yes else no) = s) (hy : yes ≠ s) :
    ¬p ∧ no = s := by
  by_cases hp : p
  · rw [if_pos hp] at h
    exact absurd h hy
  · rw [if_neg hp] at h
    exact ⟨hp, h⟩

theorem head_illegal {x : Char} {read left : List Char}
    (h : head d afterValue c cs = .failure (.illegalCharacter x) read left) :
    x = c ∧ d.isUnknown c = true ∧ d.unknownAsLetters = false := by
  have hword (k : TokenKind) (p : Char → Bool) : word k p c cs ≠ .failure (.illegalCharacter x) read left := nofun
  have hstring (k : TokenKind) (q : Char) (opening tail : List Char) :
      string k q opening tail ≠ .failure (.illegalCharacter x) read left := by
    unfold string
    split <;> simp
  have hcomment (opening tail : List Char) : blockComment opening tail ≠ .failure (.illegalCharacter x) read left := by
    unfold blockComment
    split <;> simp
  have hnumber (tail : List Char) : number d tail ≠ .failure (.illegalCharacter x) read left := by
    unfold number
    split
    · split
      · split <;> simp
      · simp
    · simp
  unfold head at h
  obtain ⟨hblank, h⟩ := of_other_branch h (hword _ _)
  obtain ⟨-, h⟩ := of_other_branch h (hword _ _)
  obtain ⟨-, h⟩ := of_other_branch h (hcomment _ _)
  obtain ⟨hquote, h⟩ := of_other_branch h (hstring _ _ _ _)
  obtain ⟨hsingle, h⟩ := of_other_branch h (hstring _ _ _ _)
  obtain ⟨-, h⟩ := of_other_branch h (hstring _ _ _ _)
  obtain ⟨-, h⟩ := of_other_branch h (hword _ _)
  obtain ⟨hdigit, h⟩ := of_other_branch h (hnumber _)
  obtain ⟨-, h⟩ := of_other_branch h (hnumber _)
  obtain ⟨hstart, h⟩ := of_other_branch h (hword _ _)
  obtain ⟨hsymbol, h⟩ := of_other_branch h nofun
  obtain ⟨hx, -, -⟩ := Scan.failure.inj h
  simp only [Dialect.isWordStart, Bool.or_eq_true, decide_eq_true_eq, not_or] at hstart
  obtain ⟨⟨halpha, hunderscore⟩, hletter⟩ := hstart
  have hunknown : d.isUnknown c = true := by
    simp only [Dialect.isUnknown, Char.isAlphanum, Bool.not_eq_true', Bool.or_eq_false_iff, decide_eq_false_iff_not]
    exact ⟨⟨⟨⟨⟨⟨Bool.eq_false_iff.2 halpha, Bool.eq_false_iff.2 hdigit⟩, hunderscore⟩, Bool.eq_false_iff.2 hblank⟩,
      hquote⟩, Bool.eq_false_iff.2 hsingle⟩, Bool.eq_false_iff.2 hsymbol⟩
  refine ⟨(LexErrorKind.illegalCharacter.inj hx).symm, hunknown, ?_⟩
  simpa [hunknown] using hletter

end Scan

theorem Reads.cut {d : Dialect} {afterValue left : Bool} {cs behind : List Char} {ts : List Token}
    (h : Reads d afterValue (cs ++ behind) ts left behind) : Reads d afterValue cs ts left [] := by
  generalize htext : cs ++ behind = text at h
  induction h generalizing cs with
  | done =>
    obtain rfl : cs = [] := by simpa using htext
    exact .done
  | @token _ _ c tail rest behind t ts hs hr ih =>
    have hrest := hr.text
    obtain ⟨happend, hne⟩ := Scan.head_token hs
    obtain ⟨c', text, ht⟩ := List.exists_cons_of_ne_nil hne
    rw [ht] at happend hs
    obtain ⟨rfl, rfl⟩ := List.cons.inj happend
    rw [← hrest] at hs
    have hcs : cs = c' :: (text ++ (String.join (ts.map Token.text)).toList) := by
      have hall : cs ++ behind = c' :: (text ++ (String.join (ts.map Token.text)).toList) ++ behind := by
        rw [htext, ← hrest, List.cons_append, List.append_assoc]
        rfl
      exact List.append_cancel_right hall
    subst hcs
    have hcut := Scan.head_cut hs
    rw [← ht] at hcut
    exact .token hcut (ih hrest)

namespace Lexer

inductive Delivers : Lexer → List Token → Lexer → Prop
  | done {x : Lexer} : Delivers x [] x
  | token {x y z : Lexer} {t : Token} {ts : List Token} (h : x.next = (y, .ok (some t))) (hr : Delivers y ts z) :
    Delivers x (t :: ts) z

theorem next_failure {x : Lexer} {c : Char} {cs read rest : List Char} {kind : LexErrorKind}
    (hf : x.finished = false) (hr : x.rest = c :: cs)
    (h : Scan.head x.dialect x.afterValue c cs = .failure kind read rest) :
    x.next = ({ x with rest := rest, loc := x.loc.after read }, .error ⟨kind, x.loc⟩) := by
  unfold next
  simp [hf, hr, h]

theorem delivers_of_error {x : Lexer} {e : LexError} (hf : x.finished = false) (h : x.tokens = .error e) :
    ∃ ts y c cs read left, x.Delivers ts y ∧ y.finished = false ∧ y.dialect = x.dialect ∧ y.rest = c :: cs ∧
      Scan.head y.dialect y.afterValue c cs = .failure e.kind read left ∧ y.loc = e.loc ∧
      Reads x.dialect x.afterValue x.rest ts y.afterValue y.rest ∧
      Token.Placed x.loc (ts ++ [Token.endAt e.loc]) := by
  generalize hn : x.rest.length = n
  induction n using Nat.strongRecOn generalizing x with
  | ind n ih =>
    cases hr : x.rest with
    | nil =>
      rw [tokens_end hf hr] at h
      cases h
    | cons c cs =>
      cases hs : Scan.head x.dialect x.afterValue c cs with
      | failure kind read rest =>
        have he : ⟨kind, x.loc⟩ = e := by
          rw [tokens] at h
          split at h
          · next hnext =>
            rw [next_failure hf hr hs] at hnext
            cases h
            exact Except.error.inj (Prod.mk.inj hnext).2
          · cases h
          · next hnext => simp [next_failure hf hr hs] at hnext
        subst he
        exact ⟨[], x, c, cs, read, rest, .done, hf, rfl, hr, hs, rfl, hr ▸ .done, rfl, trivial⟩
      | token kind text rest =>
        rw [tokens_token hf hr hs] at h
        obtain ⟨ha, hne⟩ := Scan.head_token hs
        cases hbehind : (x.behind ⟨kind, String.ofList text, x.loc⟩ rest).tokens with
        | ok toks =>
          rw [hbehind] at h
          cases h
        | error e' =>
          rw [hbehind] at h
          cases h
          have hlt : rest.length < n := by
            have hl := congrArg List.length ha
            have hp := List.length_pos_iff.2 hne
            simp only [List.length_append] at hl
            rw [← hn, hr]
            omega
          obtain ⟨ts, y, c', cs', read, left, hdelivers, hy, hd, hrest, hfail, hloc, hread, hplaced⟩ :=
            ih rest.length hlt (x := x.behind ⟨kind, String.ofList text, x.loc⟩ rest) hf hbehind rfl
          rw [afterValue_behind] at hread
          exact ⟨_, y, c', cs', read, left, .token (next_token hf hr hs) hdelivers, hy, hd, hrest, hfail, hloc,
            .token (by simpa [behind] using hs) hread, rfl, hplaced⟩

end Lexer

/-- A text that is not lexed fails at a boundary of tokens: the text in front of the error is lexed to what was
delivered before it. A character that is illegal stands right there, belongs to no class, and would be a letter if such
characters were. -/
theorem lex_error_boundary {source : String} {d : Dialect} {e : LexError} (h : lex source d = .error e) :
    ∃ before after ts x y, source = before ++ after ∧ e.loc.Behind before ∧
      (Lexer.ofText source d).Delivers ts x ∧ x.next = (y, .error e) ∧
      lex before d = .ok (ts ++ [Token.endAt e.loc]) ∧
      ∀ c, e.kind = .illegalCharacter c →
        after.toList.head? = some c ∧ d.isUnknown c = true ∧ d.unknownAsLetters = false := by
  obtain ⟨ts, x, c, cs, read, left, hdelivers, hf, hd, hrest, hfail, hloc, hread, hplaced⟩ :=
    Lexer.delivers_of_error (x := Lexer.ofText source d) rfl h
  have hsource := hread.text
  have hcut : Reads d false (String.join (ts.map Token.text)).toList ts x.afterValue [] := by
    have hall : Reads d false ((String.join (ts.map Token.text)).toList ++ x.rest) ts x.afterValue x.rest := by
      rw [hsource]
      exact hread
    exact hall.cut
  have hlex := lex_of_reads hcut hplaced
  refine ⟨String.join (ts.map Token.text), String.ofList x.rest, ts, x, _, ?_, ?_, hdelivers,
    hloc ▸ Lexer.next_failure hf hrest hfail, hlex, ?_⟩
  · rw [← String.toList_inj, String.toList_append, String.toList_ofList]
    exact hsource.symm
  · exact lex_behind hlex rfl
  · intro x' hk
    rw [hk, hd] at hfail
    obtain ⟨rfl, hunknown, hletters⟩ := Scan.head_illegal hfail
    rw [String.toList_ofList, hrest]
    exact ⟨rfl, hunknown, hletters⟩

theorem lex_error_boundary_point :
    let e : LexError := ⟨.illegalCharacter '@', ⟨1, 3, 2⟩⟩
    lex "1.@" {} = .error e ∧ ∃ before after ts x y, "1.@" = before ++ after ∧ e.loc.Behind before ∧
      (Lexer.ofText "1.@" {}).Delivers ts x ∧ x.next = (y, .error e) ∧
      lex before {} = .ok (ts ++ [Token.endAt e.loc]) ∧
      ∀ c, e.kind = .illegalCharacter c →
        after.toList.head? = some c ∧ Dialect.isUnknown {} c = true ∧ Dialect.unknownAsLetters {} = false := by
  intro e
  have hlex : lex "1.@" {} = .error e := by decide +kernel
  exact ⟨hlex, lex_error_boundary hlex⟩

end GameScript
