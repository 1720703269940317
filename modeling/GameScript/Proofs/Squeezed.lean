import GameScript.Proofs.Packing
import GameScript.Proofs.Showing

namespace GameScript

namespace Symbol

theorem isKnown_mem {text : String} (h : isKnown text = true) : text ∈ spellings := by
  have hpunctuation {p : Punctuation} (hp : Punctuation.ofSpelling? text = some p) : p.spelling = text := by
    simpa using List.find?_some hp
  simp only [isKnown, Bool.or_eq_true, Operator.isSpelling_iff, Option.isSome_iff_exists] at h
  simp only [spellings, List.mem_append, List.mem_map]
  obtain ⟨op, rfl⟩ | ⟨p, hp⟩ := h
  · exact .inl ⟨op, op.mem_all, rfl⟩
  · exact .inr ⟨p, p.mem_all, hpunctuation hp⟩

theorem longestLength_le (run : List Char) : longestLength run ≤ run.length := by
  unfold longestLength
  refine List.foldlRecOn (motive := fun best => best ≤ run.length) _ _ (Nat.zero_le _) fun best hbest i hi => ?_
  split
  · exact List.mem_range.1 hi
  · exact hbest

theorem longestLength_append {run more : List Char}
    (h : ∀ i < more.length, isKnown (String.ofList (run ++ more.take (i + 1))) = false) :
    longestLength (run ++ more) = longestLength run := by
  have htake (i : Nat) : (run ++ more).take (run.length + i + 1) = run ++ more.take (i + 1) := by
    rw [Nat.add_assoc, List.take_append, List.take_of_length_le (Nat.le_add_right ..), Nat.add_sub_cancel_left]
  unfold longestLength
  rw [List.length_append, List.range_add, List.foldl_append]
  have hbehind (l : List Nat) (best : Nat) (hl : ∀ i ∈ l, i < more.length) : (l.map (run.length + ·)).foldl
      (fun best i => if isKnown (String.ofList ((run ++ more).take (i + 1))) then i + 1 else best) best = best := by
    induction l with
    | nil => rfl
    | cons i l ih =>
      obtain ⟨hi, hl⟩ := List.forall_mem_cons.1 hl
      rw [List.map_cons, List.foldl_cons, htake, h i hi, if_neg Bool.false_ne_true, ih hl]
  rw [hbehind _ _ fun i => List.mem_range.1]
  refine List.foldl_ext _ _ _ fun best i hi => ?_
  rw [List.take_append_of_le_length (List.mem_range.1 hi)]

end Symbol

namespace Pack

def charsJoin (c d : Char) : Bool :=
  symbolsJoin (String.ofList [c]) (String.ofList [d])

theorem charsJoin_of_closing {c : Char} (hc : c = ';' ∨ c = '\x7d') (d : Char) : charsJoin c d = false := by
  have hall : ∀ s ∈ Symbol.spellings, s.toList.head? = some ';' ∨ s.toList.head? = some '\x7d' → s.toList.length = 1 := by
    decide +kernel
  have hlong (s : String) (hs : s ∈ Symbol.spellings) (tail : List Char) : s.toList ≠ c :: d :: tail := by
    intro he
    have := hall s hs (by rw [he]; exact hc.imp (congrArg some) (congrArg some))
    rw [he] at this
    cases this
  have hknown : Symbol.isKnown (String.ofList [c, d]) = false := by
    refine Bool.eq_false_iff.2 fun hk => hlong _ (Symbol.isKnown_mem hk) [] ?_
    simp
  have hone : Symbol.isKnown (String.ofList [c]) = true := by
    obtain rfl | rfl := hc <;> decide +kernel
  have hextends : Symbol.extends? (String.ofList [c, d]) = false := by
    refine Bool.eq_false_iff.2 fun he => ?_
    obtain ⟨s, hs, he⟩ := List.any_eq_true.1 he
    simp only [String.toList_ofList, Bool.and_eq_true, List.isPrefixOf_iff_prefix] at he
    obtain ⟨tail, htail⟩ := he.2
    exact hlong s hs tail htail.symm
  have hcomment : String.ofList [c, d] ≠ "//" ∧ String.ofList [c, d] ≠ "/*" := by
    have hslash : c ≠ '/' := by obtain rfl | rfl := hc <;> decide
    refine ⟨fun he => hslash ?_, fun he => hslash ?_⟩ <;>
      simpa using congrArg (fun s => s.toList.head?) he
  have hglued : String.ofList [c] ++ String.ofList [d] = String.ofList [c, d] := by simp
  have hlongest : Symbol.longestLength [c, d] = 1 := by
    show (if Symbol.isKnown (String.ofList [c, d]) = true then 2 else if Symbol.isKnown (String.ofList [c]) = true then 1 else 0) = 1
    rw [hknown, hone]
    rfl
  have hlength : (String.ofList [c]).length = 1 := by simp
  simp only [charsJoin, symbolsJoin, hglued, String.toList_ofList, hlongest, hlength, hextends, beq_eq_false_iff_ne.2 hcomment.1,
    beq_eq_false_iff_ne.2 hcomment.2, bne_self_eq_false, Bool.or_false]

theorem charsJoin_of_spelling {left right : List Char} {c d : Char}
    (h : Symbol.isKnown (String.ofList (left ++ c :: d :: right)) = true) : charsJoin c d = true := by
  have hall : (Symbol.spellings.all fun s =>
      (s.toList.zip s.toList.tail).all fun p => charsJoin p.1 p.2) = true := by decide +kernel
  have hs := List.all_eq_true.1 hall _ (Symbol.isKnown_mem h)
  rw [String.toList_ofList, List.all_eq_true] at hs
  refine hs (c, d) ?_
  clear h hs
  induction left with
  | nil => simp
  | cons b left ih =>
    obtain ⟨x, l, hl⟩ := List.exists_cons_of_ne_nil (l := left ++ c :: d :: right) (by simp)
    rw [hl] at ih
    rw [List.cons_append, hl]
    exact List.mem_cons_of_mem _ ih

/-- The one run goes on where the other ends, with a character that no spelling joins to what is in front. -/
def Extends (first : Char) (run run' : List Char) : Prop :=
  ∃ more, run' = run ++ more ∧ ∀ c ∈ (first :: run).getLast?, ∀ d ∈ more.head?, charsJoin c d = false

variable {first : Char} {run run' : List Char}

theorem Extends.longestLength (h : Extends first run run') :
    Symbol.longestLength (first :: run') = Symbol.longestLength (first :: run) := by
  obtain ⟨more, rfl, h⟩ := h
  refine @Symbol.longestLength_append (first :: run) _ fun i hi => ?_
  obtain ⟨left, c, hc⟩ := (List.eq_nil_or_concat (first :: run)).resolve_left (by simp)
  obtain ⟨d, rest, rfl⟩ := List.exists_cons_of_length_pos (Nat.zero_lt_of_lt hi)
  have hcd : charsJoin c d = false := h c (by simp [hc]) d rfl
  refine Bool.eq_false_iff.2 fun hk => ?_
  rw [hc, List.concat_eq_append, List.take_succ_cons, List.append_assoc, List.singleton_append] at hk
  rw [charsJoin_of_spelling hk] at hcd
  cases hcd

theorem Extends.operatorBehind? (h : Extends first run run') :
    Session.operatorBehind? (first :: run') = Session.operatorBehind? (first :: run) := by
  have htake : (first :: run').take (Symbol.longestLength (first :: run)) =
      (first :: run).take (Symbol.longestLength (first :: run)) := by
    obtain ⟨more, rfl, -⟩ := h
    rw [← List.cons_append, List.take_append_of_le_length (Symbol.longestLength_le _)]
  simp only [Session.operatorBehind?, h.longestLength, htake]

theorem Extends.eq_of_single (h : Extends first run run') (hj : charsJoin first first = true)
    (hr : ∀ c ∈ run', c = first) : run' = run := by
  obtain ⟨more, rfl, h⟩ := h
  cases more with
  | nil => exact List.append_nil _
  | cons d more =>
    obtain ⟨left, c, hc⟩ := (List.eq_nil_or_concat (first :: run)).resolve_left (by simp)
    obtain rfl : d = first := hr d (by simp)
    have hcd : charsJoin c d = false := h c (by simp [hc]) d rfl
    have hmem : c ∈ d :: run := by simp [hc]
    obtain rfl : c = d := (List.mem_cons.1 hmem).elim id fun hm => hr c (List.mem_append_left _ hm)
    rw [hj] at hcd
    cases hcd

theorem symbol_text {t : Token} {c : Char} (ht : t.OneChar) (hc : t.symbol? = some c) :
    t.kind = .symbol ∧ t.text = String.ofList [c] := by
  have hk : t.kind = .symbol := by
    by_contra hk
    rw [Token.symbol?_eq_none_of_kind hk] at hc
    cases hc
  obtain ⟨d, htext⟩ := ht hk
  obtain rfl : d = c := by simpa [Token.symbol?, hk, htext] using hc
  exact ⟨hk, eq_of_toList htext⟩

theorem charsJoin_of_needsBlank {t u : Token} {c d : Char} (ht : t.OneChar) (hu : u.OneChar)
    (hc : t.symbol? = some c) (hd : u.symbol? = some d) (h : needsBlank t u = false) : charsJoin c d = false := by
  obtain ⟨hkt, htext⟩ := symbol_text ht hc
  obtain ⟨hku, hutext⟩ := symbol_text hu hd
  rw [needsBlank, htext, hutext, hkt, hku] at h
  simp only [String.toList_ofList, List.getLast?_singleton, List.head?_cons] at h
  split at h
  · cases h
  split at h
  · cases h
  exact h

theorem Extends.cons {c : Char} (h : Extends c run run') : Extends first (c :: run) (c :: run') := by
  obtain ⟨more, rfl, h⟩ := h
  exact ⟨more, rfl, by simpa using h⟩

theorem Extends.refl (first : Char) (run : List Char) : Extends first run run :=
  ⟨[], (List.append_nil run).symm, by simp⟩

theorem Extends.of_apart (h : ∀ d ∈ run.head?, charsJoin first d = false) (p : Char → Bool) (limit : Nat) :
    Extends first [] ((run.takeWhile p).take limit) := by
  refine ⟨_, rfl, fun b hb d hd => ?_⟩
  obtain rfl : first = b := by simpa using hb
  refine h d ?_
  cases run with
  | nil => simp at hd
  | cons d' rest =>
    cases limit with
    | zero => simp at hd
    | succ limit =>
      by_cases hallowed : p d' = true
      · simpa [List.takeWhile_cons_of_pos hallowed] using hd
      · simp [List.takeWhile_cons_of_neg hallowed] at hd

end Pack

end GameScript
