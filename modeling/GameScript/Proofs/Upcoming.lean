import GameScript.Proofs.Advance
import GameScript.Proofs.Sentences
import GameScript.Proofs.Showing

namespace GameScript

/-- The tokens are from a text of the dialect. The mark says whether a value stands before them. -/
inductive Upcoming (d : Dialect) : Bool → List Token → Prop
  | nil {afterValue : Bool} : Upcoming d afterValue []
  | trivia {afterValue : Bool} {t : Token} {ts : List Token} (ht : t.isTrivia = true)
      (h : Upcoming d afterValue ts) : Upcoming d afterValue (t :: ts)
  | token {afterValue : Bool} {t : Token} {ts : List Token} (ht : t.isTrivia = false)
      (hl : t.isEof = false → t.Lexed d ∧ t.Readable d afterValue) (h : Upcoming d (t.endsValue d.mode) ts) :
      Upcoming d afterValue (t :: ts)

theorem Upcoming.drop {d : Dialect} {afterValue : Bool} {ts : List Token} (h : Upcoming d afterValue ts) (n : Nat) :
    ∃ afterValue, Upcoming d afterValue (ts.drop n) := by
  induction n generalizing afterValue ts with
  | zero => exact ⟨_, h⟩
  | succ n ih =>
    cases h with
    | nil => exact ⟨false, .nil⟩
    | trivia _ h | token _ _ h => exact ih h

theorem Reads.upcoming {d : Dialect} {afterValue left : Bool} {cs rest : List Char} {ts : List Token}
    (h : Reads d afterValue cs ts left rest) (loc : Location) : Upcoming d afterValue (ts ++ [Token.endAt loc]) := by
  have hlexed := h.lexed
  induction h with
  | done => exact .token (Token.isTrivia_endAt loc) (by simp [Token.isEof_endAt]) .nil
  | @token afterValue _ c cs rest _ t ts hs _ ih =>
    obtain ⟨ht, hts⟩ := List.forall_mem_cons.1 hlexed
    have hnext := ih hts
    cases htrivia : t.isTrivia with
    | true =>
      rw [Token.leaves, if_pos htrivia] at hnext
      exact .trivia htrivia hnext
    | false =>
      rw [Token.leaves, htrivia] at hnext
      refine .token htrivia (fun _ => ⟨ht, fun _ => ?_⟩) hnext
      obtain ⟨happend, hne⟩ := Scan.head_token hs
      obtain ⟨c', text, htext⟩ := List.exists_cons_of_ne_nil hne
      rw [htext] at happend
      obtain ⟨rfl, rfl⟩ := List.cons.inj happend
      exact ⟨c', text, rest, htext, htext ▸ hs⟩

namespace TokenStream

variable {d : Dialect} {afterValue : Bool} {s s' : TokenStream}

def GoesOn (d : Dialect) (afterValue : Bool) (s : TokenStream) : Prop :=
  Upcoming d afterValue (s.tokens.toList.drop s.cursor)

theorem goesOn_ofList {source : String} {tokens : List Token} (h : GameScript.lex source d = .ok tokens) :
    (ofList tokens).GoesOn d false := by
  obtain ⟨ts, loc, left, ht, hr, -⟩ := Lexer.reads_of_tokens (x := Lexer.ofText source d) rfl h
  obtain rfl : tokens = ts ++ [Token.endAt loc] := ht
  have hupcoming : Upcoming d false (ts ++ [Token.endAt loc]) := hr.upcoming loc
  unfold GoesOn
  simpa [ofList] using hupcoming

theorem Closed.head_cases (hc : s.Closed) :
    (∃ ts, s.tokens.toList.drop s.cursor = s.read.1 :: ts ∧ s.read.2.tokens.toList.drop s.read.2.cursor = ts) ∨
      s.read.1.isEof = true ∧ s.read.2.tokens.toList.drop s.read.2.cursor = [] := by
  cases hd : s.tokens.toList.drop s.cursor with
  | cons t ts =>
    obtain ⟨hat, hlt, hnext⟩ := drop_eq_tokenAt hd
    have hcursor : s.read.2.cursor = s.cursor + 1 := Nat.min_eq_left hlt
    refine .inl ⟨ts, by rw [TokenStream.read, hat], ?_⟩
    rw [hcursor]
    exact hnext
  | nil =>
    have hle : s.size ≤ s.cursor := by simpa [size] using List.drop_eq_nil_iff.1 hd
    have hcursor : s.read.2.cursor = s.size := Nat.min_eq_right (Nat.le_succ_of_le hle)
    refine .inr ⟨?_, List.drop_eq_nil_iff.2 ?_⟩
    · rw [TokenStream.read, tokenAt_of_size_le hle]
      exact hc.eof
    · rw [hcursor]
      exact Nat.le_refl _

theorem GoesOn.token (h : s.GoesOn d afterValue) (hc : s.Closed) (ht : s.read.1.isTrivia = false) :
    (s.read.1.isEof = false → s.read.1.Lexed d ∧ s.read.1.Readable d afterValue) ∧
      s.read.2.GoesOn d (s.read.1.endsValue d.mode) := by
  unfold GoesOn at h ⊢
  obtain ⟨ts, hd, hnext⟩ | ⟨heof, hnext⟩ := hc.head_cases
  · rw [hd] at h
    rw [hnext]
    cases h with
    | trivia ht' =>
      rw [ht] at ht'
      cases ht'
    | token _ hl h => exact ⟨hl, h⟩
  · rw [hnext]
    exact ⟨fun hn => (Bool.eq_false_iff.1 hn heof).elim, .nil⟩

theorem GoesOn.trivia (h : s.GoesOn d afterValue) (hc : s.Closed) (ht : s.read.1.isTrivia = true) :
    s.read.2.GoesOn d afterValue := by
  unfold GoesOn at h ⊢
  obtain ⟨ts, hd, hnext⟩ | ⟨-, hnext⟩ := hc.head_cases
  · rw [hd] at h
    rw [hnext]
    cases h with
    | trivia _ h => exact h
    | token ht' =>
      rw [ht] at ht'
      cases ht'
  · rw [hnext]
    exact .nil

theorem GoesOn.within (h : s.GoesOn d afterValue) (hs : s'.tokens = s.tokens) (hc : s.cursor ≤ s'.cursor) :
    ∃ afterValue, s'.GoesOn d afterValue := by
  obtain ⟨n, hn⟩ := Nat.exists_eq_add_of_le hc
  obtain ⟨afterValue, h⟩ := Upcoming.drop h n
  refine ⟨afterValue, ?_⟩
  unfold GoesOn
  rwa [hs, hn, ← List.drop_drop]

end TokenStream

end GameScript
