import GameScript.Proofs.Located
import GameScript.TokenStream

namespace GameScript

theorem Token.Placed.stop_eq {loc : Location} {ts : List Token} {t u : Token} (h : Placed loc (ts ++ [t, u])) :
    u.loc = t.stop := by
  induction ts generalizing loc with
  | nil => exact h.2.1
  | cons v ts ih => exact ih h.2

namespace TokenStream

theorem closed_snoc {t : Token} (h : t.isEof = false) (ts : List Token) :
    closed (ts ++ [t]) = ts ++ [t] ++ [Token.endAt t.stop] := by
  simp [closed, h]

theorem ofList_congr {tokens tokens' : List Token} (h : closed tokens = closed tokens') :
    ofList tokens = ofList tokens' := by
  simp only [ofList, h]

/-- A stream restores the end of the input that the tokens of a text are given without, unless there are no others:
the end of an empty text is not placed at its first line and column. -/
theorem ofList_dropLast {source : String} {d : Dialect} {tokens : List Token} (h : lex source d = .ok tokens) :
    (source ≠ "" → ofList tokens.dropLast = ofList tokens ∧ (ofList tokens.dropLast).tokens.toList = tokens) ∧
      (source = "" → tokens = [Token.endAt .start] ∧
        (ofList tokens.dropLast).tokens.toList = [Token.endAt .zero]) := by
  obtain ⟨ts, loc, left, rfl, hread, hplaced⟩ := Lexer.reads_of_tokens (x := Lexer.ofText source d) rfl h
  have htext : (String.join (ts.map Token.text)).toList = source.toList := (List.append_nil _).symm.trans hread.text
  rw [List.dropLast_concat]
  constructor
  · intro hne
    have hts : ts ≠ [] := by
      rintro rfl
      exact hne (String.toList_inj.1 htext).symm
    obtain ⟨before, t, rfl⟩ := List.eq_nil_or_concat' ts |>.resolve_left hts
    rw [List.append_assoc] at hplaced
    have hloc : loc = t.stop := hplaced.stop_eq
    have heof : t.isEof = false := (hread.lexed t (by simp)).isEof
    have hclosed : closed (before ++ [t]) = before ++ [t] ++ [Token.endAt loc] := by
      rw [closed_snoc heof, hloc]
    constructor
    · apply ofList_congr
      rw [hclosed, closed_endAt]
    · exact hclosed
  · rintro rfl
    have hts : ts = [] := by
      cases ts with
      | nil => rfl
      | cons t ts =>
        have hne := hread.text_ne t List.mem_cons_self
        simp [hne] at htext
    subst hts
    obtain ⟨hloc, -⟩ := hplaced
    obtain rfl : loc = .start := hloc
    exact ⟨rfl, rfl⟩

theorem ofList_dropLast_string :
    let string : Token := ⟨.string, "\"é\n\"", .start⟩
    let tokens := [string, Token.endAt ⟨2, 2, 5⟩]
    lex "\"é\n\"" {} = .ok tokens ∧ "\"é\n\"" ≠ "" ∧ ofList [string] = ofList tokens ∧
      (ofList [string]).tokens.toList = tokens := by
  intro string tokens
  have hlex : lex "\"é\n\"" {} = .ok tokens := by decide +kernel
  have hne : "\"é\n\"" ≠ "" := by decide
  exact ⟨hlex, hne, (ofList_dropLast hlex).1 hne⟩

theorem empty_end_misplaced :
    lex "" {} = .ok [Token.endAt ⟨1, 1, 0⟩] ∧
      (ofList ([Token.endAt ⟨1, 1, 0⟩].dropLast)).tokens.toList = [Token.endAt ⟨0, 0, 0⟩] := by
  decide +kernel

end TokenStream

end GameScript
