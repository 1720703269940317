import GameScript.Lexer.Dialect
import GameScript.Lexer.Error
import GameScript.Token

namespace GameScript

inductive Scan
  | token (kind : TokenKind) (text rest : List Char)
  | failure (kind : LexErrorKind) (read rest : List Char)

namespace Scan

def quoted (quote : Char) : List Char → Option (List Char × List Char)
  | [] => none
  | c :: rest =>
    if c = '\\' then
      match rest with
      | [] => none
      | d :: rest => (quoted quote rest).map fun (text, left) => (c :: d :: text, left)
    else if c = quote then some ([c], rest)
    else (quoted quote rest).map fun (text, left) => (c :: text, left)

def commentBody : List Char → Option (List Char × List Char)
  | [] => none
  | c :: rest =>
    if c = '*' ∧ rest.head? = some '/' then some ([c, '/'], rest.tail)
    else (commentBody rest).map fun (text, left) => (c :: text, left)

def decimal (cs : List Char) : List Char × List Char :=
  let whole := cs.takeWhile Char.isDigit
  match cs.dropWhile Char.isDigit with
  | '.' :: fraction =>
    if (fraction.head?.map Char.isDigit).getD false then
      (whole ++ '.' :: fraction.takeWhile Char.isDigit, fraction.dropWhile Char.isDigit)
    else (whole, '.' :: fraction)
  | rest => (whole, rest)

def number (d : Dialect) (cs : List Char) : Scan :=
  match cs with
  | '0' :: x :: rest =>
    if d.hexLiterals ∧ (x = 'x' ∨ x = 'X') then
      match rest.takeWhile isHexDigit with
      | [] => .failure .emptyHexLiteral ['0', x] rest
      | digits => .token .number ('0' :: x :: digits) (rest.dropWhile isHexDigit)
    else .token .number (decimal cs).1 (decimal cs).2
  | _ => .token .number (decimal cs).1 (decimal cs).2

def word (kind : TokenKind) (p : Char → Bool) (c : Char) (rest : List Char) : Scan :=
  .token kind (c :: rest.takeWhile p) (rest.dropWhile p)

def string (kind : TokenKind) (quote : Char) (opening rest : List Char) : Scan :=
  match quoted quote rest with
  | some (text, left) => .token kind (opening ++ text) left
  | none => .failure .unterminatedString (opening ++ rest) []

def blockComment (opening rest : List Char) : Scan :=
  match commentBody rest with
  | some (text, left) => .token .comment (opening ++ text) left
  | none => .failure .unterminatedComment (opening ++ rest) []

/-- The token at the head of a text. Behind a value a percent sign and a point are symbols. -/
def head (d : Dialect) (afterValue : Bool) (c : Char) (rest : List Char) : Scan :=
  let second (p : Char → Bool) : Bool := (rest.head?.map p).getD false
  if isBlank c then word .whitespace isBlank c rest
  else if c = '/' && second (· = '/') then word .comment (· ≠ '\n') c rest
  else if c = '/' && second (· = '*') then blockComment [c, '*'] rest.tail
  else if c = '\x22' then string .string c [c] rest
  else if c = '\x27' && d.singleQuoteStrings then string .string c [c] rest
  else if c = '&' && second (· = '\x22') then string .metaString '\x22' [c, '\x22'] rest.tail
  else if c = '%' && second d.isWordStart && !afterValue then word .resource d.isWordChar c rest
  else if c.isDigit then number d (c :: rest)
  else if c = '.' && second Char.isDigit && !afterValue then number d (c :: rest)
  else if d.isWordStart c then word .identifier d.isWordChar c rest
  else if symbolChars.contains c then .token .symbol [c] rest
  else .failure (.illegalCharacter c) [] (c :: rest)

theorem quoted_append {quote : Char} {cs text rest : List Char}
    (h : quoted quote cs = some (text, rest)) : text ++ rest = cs := by
  fun_induction quoted quote cs generalizing text rest with
  | case1 => simp at h
  | case2 => simp at h
  | case3 d cs ih =>
    simp only [Option.map_eq_some_iff, Prod.mk.injEq, Prod.exists] at h
    obtain ⟨a, b, hab, rfl, rfl⟩ := h
    simp [ih hab]
  | case4 =>
    simp only [Option.some.injEq, Prod.mk.injEq] at h
    obtain ⟨rfl, rfl⟩ := h
    simp
  | case5 c cs _ _ ih =>
    simp only [Option.map_eq_some_iff, Prod.mk.injEq, Prod.exists] at h
    obtain ⟨a, b, hab, rfl, rfl⟩ := h
    simp [ih hab]

theorem commentBody_append {cs text rest : List Char} (h : commentBody cs = some (text, rest)) :
    text ++ rest = cs := by
  induction cs generalizing text rest with
  | nil => simp [commentBody] at h
  | cons c cs ih =>
    rw [commentBody] at h
    split at h
    · next hc =>
      simp only [Option.some.injEq, Prod.mk.injEq] at h
      obtain ⟨rfl, rfl⟩ := h
      cases cs with
      | nil => simp at hc
      | cons d cs =>
        simp at hc
        simp [hc.2]
    · simp only [Option.map_eq_some_iff, Prod.mk.injEq, Prod.exists] at h
      obtain ⟨a, b, hab, rfl, rfl⟩ := h
      simp [ih hab]

theorem decimal_append (cs : List Char) : (decimal cs).1 ++ (decimal cs).2 = cs := by
  have hs := List.takeWhile_append_dropWhile (p := Char.isDigit) (l := cs)
  unfold decimal
  simp only
  split
  · next fraction hf =>
    rw [hf] at hs
    split
    · simp only [List.append_assoc, List.cons_append, List.takeWhile_append_dropWhile]
      exact hs
    · exact hs
  · exact hs

theorem decimal_ne_nil {c : Char} {cs : List Char}
    (h : c.isDigit = true ∨ (c = '.' ∧ ∃ d ds, cs = d :: ds ∧ d.isDigit = true)) :
    (decimal (c :: cs)).1 ≠ [] := by
  unfold decimal
  rcases h with h | ⟨rfl, d, ds, rfl, hd⟩
  · simp only [List.takeWhile_cons, h, if_true]
    split
    · split <;> simp
    · simp
  · have hp : Char.isDigit '.' = false := by decide
    simp [hp, hd]

theorem number_append {d : Dialect} {cs text rest : List Char} {kind : TokenKind}
    (h : number d cs = .token kind text rest) : text ++ rest = cs := by
  have hd := decimal_append cs
  unfold number at h
  split at h
  · next x tail =>
    split at h
    · split at h
      · cases h
      · cases h
        simp
    · cases h
      exact hd
  · cases h
    exact hd

theorem number_ne_nil {d : Dialect} {c : Char} {cs text rest : List Char} {kind : TokenKind}
    (hc : c.isDigit = true ∨ (c = '.' ∧ ∃ d ds, cs = d :: ds ∧ d.isDigit = true))
    (h : number d (c :: cs) = .token kind text rest) : text ≠ [] := by
  have hd := decimal_ne_nil hc
  unfold number at h
  split at h
  · split at h
    · split at h
      · cases h
      · cases h
        simp
    · cases h
      exact hd
  · cases h
    exact hd

theorem of_branch {p q : Prop} [Decidable p] {yes no s : Scan} (h : (if p then yes else no) = s)
    (hy : p → yes = s → q) (hn : no = s → q) : q := by
  by_cases hp : p
  · exact hy hp (by rwa [if_pos hp] at h)
  · exact hn (by rwa [if_neg hp] at h)

theorem exists_cons_of_head? {p : Char → Bool} {cs : List Char} (h : (cs.head?.map p).getD false = true) :
    ∃ x xs, cs = x :: xs ∧ p x = true := by
  cases cs with
  | nil => simp at h
  | cons x xs => exact ⟨x, xs, rfl, by simpa using h⟩

theorem head_token {d : Dialect} {afterValue : Bool} {c : Char} {cs text rest : List Char}
    {kind : TokenKind} (h : head d afterValue c cs = .token kind text rest) :
    text ++ rest = c :: cs ∧ text ≠ [] := by
  have hword {kind' : TokenKind} {p : Char → Bool} (h : word kind' p c cs = .token kind text rest) :
      text ++ rest = c :: cs ∧ text ≠ [] := by
    simp only [word, Scan.token.injEq] at h
    obtain ⟨-, rfl, rfl⟩ := h
    simp
  have hstring {kind' : TokenKind} {q : Char} {opening tail : List Char} (ho : opening ≠ [])
      (hcs : opening ++ tail = c :: cs) (h : string kind' q opening tail = .token kind text rest) :
      text ++ rest = c :: cs ∧ text ≠ [] := by
    unfold string at h
    split at h
    · next t l hq =>
      cases h
      rw [List.append_assoc, quoted_append hq]
      exact ⟨hcs, by simp [ho]⟩
    · cases h
  unfold head at h
  refine of_branch h (fun _ => hword) fun h => ?_
  refine of_branch h (fun _ => hword) fun h => ?_
  refine of_branch h (fun hc h => ?_) fun h => ?_
  · simp only [Bool.and_eq_true, decide_eq_true_eq] at hc
    obtain ⟨x, xs, rfl, hx⟩ := exists_cons_of_head? hc.2
    simp only [decide_eq_true_eq] at hx
    unfold blockComment at h
    split at h
    · next t l hq =>
      cases h
      simp [commentBody_append hq, hx]
    · cases h
  refine of_branch h (fun _ => hstring (by simp) (by simp)) fun h => ?_
  refine of_branch h (fun _ => hstring (by simp) (by simp)) fun h => ?_
  refine of_branch h (fun hc h => ?_) fun h => ?_
  · simp only [Bool.and_eq_true, decide_eq_true_eq] at hc
    obtain ⟨x, xs, rfl, hx⟩ := exists_cons_of_head? hc.2
    simp only [decide_eq_true_eq] at hx
    exact hstring (by simp) (by simp [hx]) h
  refine of_branch h (fun _ => hword) fun h => ?_
  refine of_branch h (fun hc h => ⟨number_append h, number_ne_nil (.inl hc) h⟩) fun h => ?_
  refine of_branch h (fun hc h => ?_) fun h => ?_
  · simp only [Bool.and_eq_true, decide_eq_true_eq] at hc
    exact ⟨number_append h, number_ne_nil (.inr ⟨hc.1.1, exists_cons_of_head? hc.1.2⟩) h⟩
  refine of_branch h (fun _ => hword) fun h => ?_
  refine of_branch h (fun _ h => ?_) fun h => ?_
  · cases h
    simp
  · cases h

end Scan

end GameScript
