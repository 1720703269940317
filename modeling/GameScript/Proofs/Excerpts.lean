import GameScript.Diagnostic.Excerpt
import GameScript.Proofs.Located

/-!
The line of a source around an offset, found by going back to the last newline and on to the next one. It is the line
that the lexer counts, and the same line is found by slices of bytes, none of which cuts a character.
-/

namespace GameScript

namespace Excerpt

open String

/-- The source falls into the lines above, the line in front of the offset and behind it, and the lines below. -/
structure Parts (cs : List Char) (offset : Nat) (above head tail below : List Char) : Prop where
  text : cs = above ++ head ++ (tail ++ below)
  passed : before offset cs = above ++ head
  above : above = [] ∨ ∃ lines, above = lines ++ ['\n']
  head : '\n' ∉ head
  tail : '\n' ∉ tail
  below : below = [] ∨ ∃ lines, below = '\n' :: lines

theorem newline_cases (cs : List Char) :
    ∃ line rest, cs = line ++ rest ∧ line = cs.takeWhile (· ≠ '\n') ∧ '\n' ∉ line ∧
      (rest = [] ∨ ∃ lines, rest = '\n' :: lines) := by
  refine ⟨_, cs.dropWhile (· ≠ '\n'), List.takeWhile_append_dropWhile.symm, rfl, ?_, ?_⟩
  · intro hmem
    simpa using List.mem_takeWhile_imp hmem
  · cases h : cs.dropWhile (· ≠ '\n') with
    | nil => exact .inl rfl
    | cons c lines =>
      have hnot := List.head?_dropWhile_not (· ≠ '\n') cs
      rw [h] at hnot
      obtain rfl : c = '\n' := by simpa using hnot
      exact .inr ⟨lines, rfl⟩

theorem exists_parts (cs : List Char) (offset : Nat) :
    ∃ above head tail below, Parts cs offset above head tail below := by
  obtain ⟨rest, hrest⟩ := before_isPrefix offset cs
  obtain ⟨head, above, hpassed, -, hhead, habove⟩ := newline_cases (before offset cs).reverse
  obtain ⟨tail, below, rfl, -, htail, hbelow⟩ := newline_cases rest
  have hsplit : before offset cs = above.reverse ++ head.reverse := by
    rw [← List.reverse_append, ← hpassed, List.reverse_reverse]
  refine ⟨above.reverse, head.reverse, tail, below, ⟨?_, hsplit, ?_, by simpa, htail, hbelow⟩⟩
  · rw [← hsplit, hrest]
  · obtain rfl | ⟨lines, rfl⟩ := habove
    · exact .inl rfl
    · exact .inr ⟨lines.reverse, by simp⟩

variable {cs above head tail below : List Char} {offset : Nat}

theorem Parts.count_above (h : Parts cs offset above head tail below) :
    (above ++ head).count '\n' = above.count '\n' := by
  rw [List.count_append, List.count_eq_zero_of_not_mem h.head, Nat.add_zero]

theorem takeWhile_line {line rest : List Char} (hl : '\n' ∉ line) (hr : rest = [] ∨ ∃ lines, rest = '\n' :: lines) :
    (line ++ rest).takeWhile (· ≠ '\n') = line := by
  have hline : ∀ c ∈ line, decide (c ≠ '\n') = true := by
    intro c hc
    have hne : c ≠ '\n' := by
      rintro rfl
      exact hl hc
    simpa using hne
  rw [List.takeWhile_append_of_pos hline]
  obtain rfl | ⟨lines, rfl⟩ := hr <;> simp

theorem Parts.ofOffset {source : String} (h : Parts source.toList offset above head tail below) :
    ofOffset source offset = ⟨above.count '\n' + 1, head.length + 1, dropReturns (head ++ tail)⟩ := by
  have hhead : ((above ++ head).reverse.takeWhile (· ≠ '\n')).reverse = head := by
    rw [List.reverse_append, takeWhile_line (by simpa using h.head), List.reverse_reverse]
    obtain habove | ⟨lines, habove⟩ := h.above
    · exact .inl (by rw [habove]; rfl)
    · exact .inr ⟨lines.reverse, by simp [habove]⟩
  have hrest : source.toList.drop (above ++ head).length = tail ++ below := by
    rw [h.text, List.drop_left]
  simp only [Excerpt.ofOffset, h.passed, hhead, hrest, h.count_above, takeWhile_line h.tail h.below]

theorem length_splitOn (cs : List Char) : (cs.splitOn '\n').length = cs.count '\n' + 1 := by
  induction cs with
  | nil => rfl
  | cons c cs ih =>
    rw [List.splitOn_cons_eq_if_modifyHead]
    by_cases hc : c = '\n'
    · simp [hc, ih]
    · simp [hc, ih]

theorem Parts.line (h : Parts cs offset above head tail below) :
    (cs.splitOn '\n')[above.count '\n']? = some (head ++ tail) := by
  have hnone : '\n' ∉ head ++ tail := by simpa using ⟨h.head, h.tail⟩
  have hline : ∃ lines, (head ++ (tail ++ below)).splitOn '\n' = (head ++ tail) :: lines := by
    rw [← List.append_assoc]
    obtain hbelow | ⟨lines, hbelow⟩ := h.below
    · exact ⟨[], by rw [hbelow, List.append_nil, List.splitOn_eq_singleton hnone]⟩
    · exact ⟨lines.splitOn '\n', by rw [hbelow, List.splitOn_append_cons_self, List.splitOn_eq_singleton hnone]; rfl⟩
  obtain ⟨lines, hline⟩ := hline
  rw [h.text, List.append_assoc]
  obtain habove | ⟨ls, habove⟩ := h.above
  · simp [habove, hline]
  · rw [habove, List.append_assoc, List.singleton_append, List.splitOn_append_cons_self, hline,
      List.getElem?_append_right] <;> simp [length_splitOn]

theorem dropReturns_spec (line : List Char) :
    ∃ n, line = dropReturns line ++ List.replicate n '\r' ∧ (dropReturns line).getLast? ≠ some '\r' := by
  have hreturns : line.reverse.takeWhile (· == '\r') =
      List.replicate (line.reverse.takeWhile (· == '\r')).length '\r' := by
    apply List.eq_replicate_of_mem
    intro c hc
    simpa using List.mem_takeWhile_imp hc
  refine ⟨(line.reverse.takeWhile (· == '\r')).length, ?_, ?_⟩
  · rw [← List.reverse_replicate, ← hreturns, dropReturns, ← List.reverse_append, List.takeWhile_append_dropWhile,
      List.reverse_reverse]
  · rw [dropReturns, List.getLast?_reverse]
    intro h
    have hnot := List.head?_dropWhile_not (· == '\r') line.reverse
    simp [h] at hnot

/-! The same by slices of bytes -/

def splitAt? : Nat → List Char → Option (List Char × List Char)
  | 0, cs => some ([], cs)
  | _ + 1, [] => none
  | n + 1, c :: cs =>
    if c.utf8Size ≤ n + 1 then (splitAt? (n + 1 - c.utf8Size) cs).map fun (head, rest) => (c :: head, rest)
    else none

def slice? (cs : List Char) (first stop : Nat) : Option (List Char) :=
  (splitAt? stop cs).bind fun (head, _) => (splitAt? first head).map Prod.snd

/-- The last offset up to the given one that is not inside a character. -/
def charStart (cs : List Char) : Nat → Nat
  | 0 => 0
  | n + 1 => if (splitAt? (n + 1) cs).isSome then n + 1 else charStart cs n

def newlineAt? (cs : List Char) : Option Nat :=
  if '\n' ∈ cs then some (utf8Len (cs.takeWhile (· ≠ '\n'))) else none

def lastNewlineAt? (cs : List Char) : Option Nat :=
  if '\n' ∈ cs then some (utf8Len (cs.reverse.dropWhile (· ≠ '\n')).tail) else none

/-- The excerpt, read out of the source in slices. -/
def bySlices? (source : String) (offset : Nat) : Option Excerpt := do
  let cs := source.toList
  let offset := charStart cs (min offset source.utf8ByteSize)
  let passed ← slice? cs 0 offset
  let lineStart := ((lastNewlineAt? passed).map (· + 1)).getD 0
  let above ← slice? cs 0 lineStart
  let below ← slice? cs lineStart source.utf8ByteSize
  let lineEnd := ((newlineAt? below).map (lineStart + ·)).getD source.utf8ByteSize
  let line ← slice? cs lineStart lineEnd
  let head ← slice? cs lineStart offset
  return ⟨above.count '\n' + 1, head.length + 1, dropReturns line⟩

theorem splitAt?_zero (cs : List Char) : splitAt? 0 cs = some ([], cs) := by
  cases cs <;> rfl

theorem splitAt?_cons {n : Nat} (hn : 0 < n) (c : Char) (cs : List Char) : splitAt? n (c :: cs) =
    if c.utf8Size ≤ n then (splitAt? (n - c.utf8Size) cs).map fun (head, rest) => (c :: head, rest) else none := by
  obtain ⟨n, rfl⟩ := Nat.exists_eq_succ_of_ne_zero (Nat.ne_of_gt hn)
  rfl

theorem splitAt?_append (cs rest : List Char) : splitAt? (utf8Len cs) (cs ++ rest) = some (cs, rest) := by
  induction cs with
  | nil => exact splitAt?_zero rest
  | cons c cs ih =>
    have hpos := c.utf8Size_pos
    rw [List.cons_append, splitAt?_cons (by simp only [utf8Len_cons]; omega), if_pos (by simp), utf8Len_cons,
      Nat.add_sub_cancel, ih]
    rfl

theorem splitAt?_some {n : Nat} {cs head rest : List Char} (h : splitAt? n cs = some (head, rest)) :
    cs = head ++ rest ∧ utf8Len head = n := by
  induction cs generalizing n head with
  | nil =>
    cases n with
    | zero =>
      cases h
      exact ⟨rfl, rfl⟩
    | succ n => cases h
  | cons c cs ih =>
    cases n with
    | zero =>
      cases h
      exact ⟨rfl, rfl⟩
    | succ n =>
      rw [splitAt?] at h
      split at h
      · next hle =>
        simp only [Option.map_eq_some_iff, Prod.mk.injEq, Prod.exists] at h
        obtain ⟨head, rest, h, rfl, rfl⟩ := h
        obtain ⟨rfl, hlen⟩ := ih h
        refine ⟨rfl, ?_⟩
        rw [utf8Len_cons]
        omega
      · cases h

theorem slice?_append {cs : List Char} (before slice rest : List Char) (h : cs = before ++ slice ++ rest) :
    slice? cs (utf8Len before) (utf8Len (before ++ slice)) = some slice := by
  have hhead : splitAt? (utf8Len (before ++ slice)) cs = some (before ++ slice, rest) := h ▸ splitAt?_append _ _
  simp only [slice?, hhead, Option.bind_some, splitAt?_append, Option.map_some]

theorem before_append (cs rest : List Char) : before (utf8Len cs) (cs ++ rest) = cs := by
  induction cs with
  | nil =>
    cases rest with
    | nil => rfl
    | cons c rest =>
      have hpos := c.utf8Size_pos
      simp [before, Nat.ne_of_gt hpos]
  | cons c cs ih => simp [before, ih]

theorem before_of_none {n : Nat} {cs : List Char} (h : splitAt? (n + 1) cs = none) :
    before (n + 1) cs = before n cs := by
  induction cs generalizing n with
  | nil => rfl
  | cons c cs ih =>
    rw [splitAt?] at h
    by_cases hn : c.utf8Size ≤ n
    · rw [if_pos (by omega), show n + 1 - c.utf8Size = n - c.utf8Size + 1 by omega, Option.map_eq_none_iff] at h
      have hnext := ih h
      rw [before, before, if_pos hn, if_pos (by omega), show n + 1 - c.utf8Size = n - c.utf8Size + 1 by omega, hnext]
    · have hlt : ¬ c.utf8Size ≤ n + 1 := by
        intro hle
        rw [if_pos hle, show n + 1 - c.utf8Size = 0 by omega, splitAt?_zero] at h
        cases h
      rw [before, before, if_neg hn, if_neg hlt]

theorem charStart_eq (cs : List Char) (n : Nat) : charStart cs n = utf8Len (before n cs) := by
  induction n with
  | zero =>
    have hzero := before_append [] cs
    simp only [utf8Len_nil, List.nil_append] at hzero
    rw [hzero]
    rfl
  | succ n ih =>
    rw [charStart]
    cases h : splitAt? (n + 1) cs with
    | none => simpa [before_of_none h] using ih
    | some split =>
      obtain ⟨rfl, hlen⟩ := splitAt?_some h
      rw [← hlen, before_append]
      rfl

theorem before_min (n : Nat) (cs : List Char) : before (min n (utf8Len cs)) cs = before n cs := by
  induction cs generalizing n with
  | nil => rfl
  | cons c cs ih =>
    rw [before, before, utf8Len_cons]
    by_cases hn : c.utf8Size ≤ n
    · rw [if_pos hn, if_pos (by omega), ← ih (n - c.utf8Size)]
      congr 2
      omega
    · rw [if_neg hn, if_neg (by omega)]

theorem newlineAt?_line {line rest : List Char} (hl : '\n' ∉ line) (hr : rest = [] ∨ ∃ lines, rest = '\n' :: lines) :
    newlineAt? (line ++ rest) = if rest = [] then none else some (utf8Len line) := by
  rw [newlineAt?, takeWhile_line hl hr]
  obtain rfl | ⟨lines, rfl⟩ := hr <;> simp [hl]

theorem lastNewlineAt?_line {line rest : List Char} (hl : '\n' ∉ line)
    (hr : rest = [] ∨ ∃ lines, rest = lines ++ ['\n']) :
    ((lastNewlineAt? (rest ++ line)).map (· + 1)).getD 0 = utf8Len rest := by
  have hline : ∀ c ∈ line.reverse, decide (c ≠ '\n') = true := by
    intro c hc
    have hne : c ≠ '\n' := by
      rintro rfl
      exact hl (List.mem_reverse.1 hc)
    simpa using hne
  rw [lastNewlineAt?, List.reverse_append, List.dropWhile_append_of_pos hline]
  obtain rfl | ⟨lines, rfl⟩ := hr
  · simp [hl]
  · simp [show ('\n').utf8Size = 1 from rfl]

theorem bySlices?_eq (source : String) (offset : Nat) : bySlices? source offset = some (ofOffset source offset) := by
  obtain ⟨above, head, tail, below, h⟩ := exists_parts source.toList offset
  have hsize : source.utf8ByteSize = utf8Len source.toList := by
    rw [← utf8ByteSize_ofList, ofList_toList]
  have hoffset : charStart source.toList (min offset source.utf8ByteSize) = utf8Len (above ++ head) := by
    rw [hsize, charStart_eq, before_min, h.passed]
  have hpassed : slice? source.toList 0 (utf8Len (above ++ head)) = some (above ++ head) :=
    slice?_append [] _ _ h.text
  have hstart := lastNewlineAt?_line h.head h.above
  have habove : slice? source.toList 0 (utf8Len above) = some above :=
    slice?_append [] above (head ++ (tail ++ below)) (by simp [h.text])
  have hbelow : slice? source.toList (utf8Len above) source.utf8ByteSize = some (head ++ (tail ++ below)) := by
    have htext : source.toList = above ++ (head ++ (tail ++ below)) ++ [] := by simp [h.text]
    have hslice := slice?_append _ _ _ htext
    rwa [← List.append_nil (above ++ _), ← htext, ← hsize] at hslice
  have hend : ((newlineAt? (head ++ (tail ++ below))).map (utf8Len above + ·)).getD source.utf8ByteSize =
      utf8Len (above ++ (head ++ tail)) := by
    rw [← List.append_assoc, newlineAt?_line (by simpa using ⟨h.head, h.tail⟩) h.below, hsize, h.text]
    by_cases hnil : below = [] <;> simp [hnil]
  have hline : slice? source.toList (utf8Len above) (utf8Len (above ++ (head ++ tail))) = some (head ++ tail) :=
    slice?_append above _ below (by simp [h.text])
  have hhead : slice? source.toList (utf8Len above) (utf8Len (above ++ head)) = some head := slice?_append _ _ _ h.text
  simp only [bySlices?, hoffset, Option.bind_eq_bind, hpassed, Option.bind_some, hstart, habove, hbelow, hend, hline,
    hhead, h.ofOffset]
  rfl

theorem ofOffset_behind {source text rest : String} {loc : Location} (hs : source = text ++ rest)
    (h : loc.Behind text) :
    (ofOffset source loc.offset).line = loc.line ∧ (ofOffset source loc.offset).column = loc.column := by
  have hbefore : before loc.offset source.toList = text.toList := by
    rw [h.offset, ← ofList_toList (s := text), utf8ByteSize_ofList, hs, toList_append, ofList_toList, before_append]
  constructor
  · rw [h.line, Nat.add_comm]
    simp only [ofOffset, hbefore]
  · rw [h.column, Nat.add_comm]
    simp only [ofOffset, hbefore, List.length_reverse]

/-- What is shown of a line is all of it but the returns at its end. -/
def Shows (x : Excerpt) (line : List Char) : Prop :=
  ∃ n, line = x.text ++ List.replicate n '\r' ∧ x.text.getLast? ≠ some '\r'

theorem ofOffset_shows (source : String) (offset : Nat) :
    ∃ line, (source.toList.splitOn '\n')[(ofOffset source offset).line - 1]? = some line ∧
      (ofOffset source offset).Shows line := by
  obtain ⟨above, head, tail, below, h⟩ := exists_parts source.toList offset
  rw [h.ofOffset]
  exact ⟨head ++ tail, h.line, dropReturns_spec (head ++ tail)⟩

/-- At every offset there is an excerpt, for which no slice fails. At a token it has the line and the column that the
lexer gave the token, and shows that line. -/
theorem ofOffset_token (source : String) :
    (∀ offset, bySlices? source offset = some (ofOffset source offset)) ∧
    ∀ d tokens, lex source d = .ok tokens → ∀ t ∈ tokens,
      (ofOffset source t.loc.offset).line = t.loc.line ∧ (ofOffset source t.loc.offset).column = t.loc.column ∧
      ∃ line, (source.toList.splitOn '\n')[t.loc.line - 1]? = some line ∧
        (ofOffset source t.loc.offset).Shows line := by
  refine ⟨bySlices?_eq source, ?_⟩
  intro d tokens hlex t ht
  obtain ⟨before, behind, hsplit⟩ := List.append_of_mem ht
  have hsource : source = join (before.map Token.text) ++ join ((t :: behind).map Token.text) := by
    rw [← lex_join hlex, hsplit, List.map_append, join_append]
  obtain ⟨hline, hcolumn⟩ := ofOffset_behind hsource (lex_behind hlex hsplit)
  obtain ⟨line, hget, hshows⟩ := ofOffset_shows source t.loc.offset
  rw [hline] at hget
  exact ⟨hline, hcolumn, line, hget, hshows⟩

theorem ofOffset_token_name :
    let source := "\"é\n\" x\r\n"
    let name : Token := ⟨.identifier, "x", ⟨2, 3, 6⟩⟩
    let tokens := [⟨.string, "\"é\n\"", .start⟩, ⟨.whitespace, " ", ⟨2, 2, 5⟩⟩, name,
      ⟨.whitespace, "\r\n", ⟨2, 4, 7⟩⟩, Token.endAt ⟨3, 1, 9⟩]
    lex source {} = .ok tokens ∧ ofOffset source 6 = ⟨2, 3, ['\x22', ' ', 'x']⟩ ∧
      (ofOffset source 6).line = name.loc.line ∧ (ofOffset source 6).column = name.loc.column ∧
      ∃ line, (source.toList.splitOn '\n')[1]? = some line ∧ (ofOffset source 6).Shows line := by
  intro source name tokens
  have hlex : lex source {} = .ok tokens := by decide +kernel
  have hexcerpt : ofOffset source 6 = ⟨2, 3, ['\x22', ' ', 'x']⟩ := by decide +kernel
  exact ⟨hlex, hexcerpt, (ofOffset_token source).2 {} tokens hlex name (by simp [tokens])⟩

end Excerpt

end GameScript
