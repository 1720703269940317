import GameScript.Proofs.Spacing
import Mathlib.Data.String.Basic

namespace GameScript

namespace Location

theorem offset_after (loc : Location) (cs : List Char) :
    (loc.after cs).offset = loc.offset + (String.ofList cs).utf8ByteSize := by
  rw [String.utf8ByteSize_ofList]
  induction cs generalizing loc with
  | nil => rfl
  | cons c cs ih =>
    rw [Location.after_cons, ih, String.utf8Len_cons]
    have : (loc.next c).offset = loc.offset + c.utf8Size := by
      unfold Location.next
      split <;> rfl
    omega

/-- The position right behind a text: how many bytes it has, how many newlines, and how many characters behind
the last newline. -/
structure Behind (text : String) (loc : Location) : Prop where
  offset : loc.offset = text.utf8ByteSize
  line : loc.line = 1 + text.toList.count '\n'
  column : loc.column = 1 + (text.toList.reverse.takeWhile (· ≠ '\n')).length

namespace Behind

variable {text : String} {loc : Location}

theorem start : Location.start.Behind "" :=
  ⟨rfl, rfl, rfl⟩

theorem next (h : loc.Behind text) (c : Char) :
    (loc.next c).Behind (text.push c) := by
  obtain ⟨ho, hl, hc⟩ := h
  unfold Location.next
  split
  · next hn =>
    subst hn
    exact ⟨by simp [ho], by simp [hl, Nat.add_assoc], by simp⟩
  · next hn =>
    exact ⟨by simp [ho], by simp [hl, hn], by simp [hc, hn]; omega⟩

theorem after (h : loc.Behind text) (cs : List Char) :
    (loc.after cs).Behind (text ++ String.ofList cs) := by
  induction cs generalizing text loc with
  | nil => simpa [Location.after_nil] using h
  | cons c cs ih =>
    have hcs : text ++ String.ofList (c :: cs) = text.push c ++ String.ofList cs := by
      simp [← String.toList_inj]
    rw [hcs]
    exact ih (h.next c)

theorem line_le (h : loc.Behind text) : loc.line ≤ text.length + 1 := by
  have hcount : text.toList.count '\n' ≤ text.toList.length := List.count_le_length
  rw [h.line, ← String.length_toList]
  omega

theorem column_le (h : loc.Behind text) : loc.column ≤ text.length + 1 := by
  have htail := (List.takeWhile_prefix (l := text.toList.reverse) (· ≠ '\n')).length_le
  rw [List.length_reverse] at htail
  rw [h.column, ← String.length_toList]
  omega

end Behind

end Location

theorem Token.Placed.behind {text : String} {loc : Location} {ts : List Token} (h : Placed loc ts)
    (hl : loc.Behind text) {before behind : List Token} {t : Token} (hts : ts = before ++ t :: behind) :
    t.loc.Behind (text ++ String.join (before.map Token.text)) := by
  induction before generalizing text loc ts with
  | nil =>
    subst hts
    rw [h.1]
    simpa using hl
  | cons u before ih =>
    subst hts
    have hstop : u.stop.Behind (text ++ u.text) := by
      have := hl.after u.text.toList
      rwa [String.ofList_toList, ← h.1] at this
    simpa [String.append_assoc] using ih h.2 hstop rfl

namespace Reads

variable {d : Dialect} {afterValue left : Bool} {cs rest : List Char} {ts : List Token}

theorem text (h : Reads d afterValue cs ts left rest) :
    (String.join (ts.map Token.text)).toList ++ rest = cs := by
  induction h with
  | done => rfl
  | token hs _ ih =>
    obtain ⟨happend, -⟩ := Scan.head_token hs
    rw [← happend, ← ih]
    simp

theorem text_ne (h : Reads d afterValue cs ts left rest) : ∀ t ∈ ts, t.text ≠ "" := by
  induction h with
  | done => simp
  | token hs _ ih =>
    refine List.forall_mem_cons.2 ⟨?_, ih⟩
    rintro he
    exact (Scan.head_token hs).2 (by simp [he])

end Reads

section

variable {source : String} {d : Dialect} {tokens : List Token}

theorem lex_join (h : lex source d = .ok tokens) : String.join (tokens.map Token.text) = source := by
  obtain ⟨ts, loc, left, rfl, hread, -⟩ := Lexer.reads_of_tokens (x := Lexer.ofText source d) rfl h
  have htext := hread.text
  simpa [Token.endAt, Lexer.ofText, ← String.toList_inj] using htext

theorem lex_behind (h : lex source d = .ok tokens) {before behind : List Token} {t : Token}
    (ht : tokens = before ++ t :: behind) : t.loc.Behind (String.join (before.map Token.text)) := by
  obtain ⟨ts, loc, left, rfl, -, hplaced⟩ := Lexer.reads_of_tokens (x := Lexer.ofText source d) rfl h
  simpa using hplaced.behind .start ht

/-- So 32 bits hold the lines and the columns of every source that has fewer than `2 ^ 32 - 1` characters. -/
theorem lex_loc_le (h : lex source d = .ok tokens) {t : Token} (ht : t ∈ tokens) :
    t.loc.line ≤ source.length + 1 ∧ t.loc.column ≤ source.length + 1 := by
  obtain ⟨before, behind, hsplit⟩ := List.append_of_mem ht
  have hbehind := lex_behind h hsplit
  have hlength : (String.join (before.map Token.text)).length ≤ source.length := by
    rw [← lex_join h, hsplit, List.map_append, String.join_append, String.length_append]
    exact Nat.le_add_right _ _
  exact ⟨Nat.le_trans hbehind.line_le (Nat.succ_le_succ hlength), Nat.le_trans hbehind.column_le (Nat.succ_le_succ hlength)⟩

end

/-- Lexing loses nothing and invents nothing: the texts of the tokens make up the source, one end stands behind
them, and each token stands behind the texts in front of it. -/
theorem lex_lossless {source : String} {d : Dialect} {tokens : List Token} (h : lex source d = .ok tokens) :
    String.join (tokens.map Token.text) = source ∧
    (∃ ts last, tokens = ts ++ [last] ∧ (∀ t ∈ ts, t.text ≠ "" ∧ t.kind ≠ .eof) ∧
      last.text = "" ∧ last.kind = .eof) ∧
    (∀ t ∈ tokens, t.kind = .symbol → t.text.length = 1) ∧
    (∀ before t behind, tokens = before ++ t :: behind → t.loc.Behind (String.join (before.map Token.text))) := by
  refine ⟨lex_join h, ?_, ?_, fun before t behind => lex_behind h⟩
  all_goals obtain ⟨ts, loc, left, rfl, hread, -⟩ := Lexer.reads_of_tokens (x := Lexer.ofText source d) rfl h
  · refine ⟨ts, _, rfl, fun t ht => ⟨hread.text_ne t ht, ?_⟩, rfl, rfl⟩
    simpa [Token.isEof] using (hread.lexed t ht).isEof
  · intro t ht hk
    obtain ht | ht := List.mem_append.1 ht
    · obtain ⟨c, hc⟩ := (hread.lexed t ht).oneChar hk
      simp [← String.length_toList, hc]
    · obtain rfl := List.mem_singleton.1 ht
      cases hk

theorem lex_lossless_comment :
    let comment : Token := ⟨.comment, "/*é\n*/", .start⟩
    let blank : Token := ⟨.whitespace, " ", ⟨2, 3, 7⟩⟩
    let name : Token := ⟨.identifier, "x", ⟨2, 4, 8⟩⟩
    let tokens := [comment, blank, name, Token.endAt ⟨2, 5, 9⟩]
    lex "/*é\n*/ x" {} = .ok tokens ∧ String.join (tokens.map Token.text) = "/*é\n*/ x" ∧
      name.loc.Behind "/*é\n*/ " := by
  intro comment blank name tokens
  have hl : lex "/*é\n*/ x" {} = .ok tokens := by decide +kernel
  obtain ⟨htext, -, -, hbehind⟩ := lex_lossless hl
  exact ⟨hl, htext, hbehind [comment, blank] name [Token.endAt ⟨2, 5, 9⟩] rfl⟩

end GameScript
