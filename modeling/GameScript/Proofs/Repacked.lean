import GameScript.Proofs.Packing

namespace GameScript

open Pack

theorem Shown.tokens {apart : Bool} {ts : List Token} {ps : List Piece} (h : Shown apart ts ps) :
    List.Forall₂ Token.Same (ts.filter fun t => !t.isTrivia) (ps.map Prod.snd) := by
  induction h with
  | nil => exact .nil
  | trivia ht _ ih =>
    rw [List.filter_cons_of_neg (by simp [ht])]
    exact ih
  | token hs hu _ ih =>
    rw [List.filter_cons_of_pos (by simp [hs.isTrivia, hu])]
    exact .cons hs ih

namespace Pack

variable {d : Dialect} {afterValue left : Bool} {t u : Token} {c x : Char} {cs rest text behind : List Char}
  {ps : List Piece}

theorem squeeze_squeeze (t : Token) (ps : List Piece) : squeeze t (squeeze t ps) = squeeze t ps := by
  induction ps generalizing t with
  | nil => rfl
  | cons p ps ih => simp [squeeze, ih]

theorem map_squeeze (t : Token) (ps : List Piece) : (squeeze t ps).map Prod.snd = ps.map Prod.snd := by
  induction ps generalizing t with
  | nil => rfl
  | cons p ps ih => simp [squeeze, ih]

theorem word_goes_on {kind : TokenKind} {p : Char → Bool} (hcs : ∀ y ∈ cs, p y = true)
    (hx : behind.head? = some x) (hp : p x = true) :
    ∃ more rest', Scan.word kind p c (cs ++ behind) = .token kind (c :: cs ++ x :: more) rest' := by
  obtain ⟨behind, rfl⟩ := List.head?_eq_some_iff.1 hx
  refine ⟨behind.takeWhile p, behind.dropWhile p, ?_⟩
  rw [Scan.word, List.takeWhile_append_of_pos hcs, List.dropWhile_append_of_pos hcs, List.takeWhile_cons_of_pos hp,
    List.dropWhile_cons_of_pos hp]
  rfl

theorem head_merges (htext : t.text.toList = c :: cs)
    (hs : Scan.head d afterValue c (cs ++ rest) = .token t.kind (c :: cs) rest) (hm : Merges d t u)
    (hbehind : behind.head? = u.text.toList.head?) :
    ∃ x more rest', Scan.head d afterValue c (cs ++ behind) = .token t.kind (c :: cs ++ x :: more) rest' := by
  obtain ⟨hk, -, x, hx, hword⟩ := hm
  rw [hx] at hbehind
  have hall (tail : List Char) (hcs : cs = tail.takeWhile d.isWordChar) : ∀ y ∈ cs, d.isWordChar y = true := by
    intro y hy
    rw [hcs] at hy
    exact List.mem_takeWhile_imp hy
  refine ⟨x, ?_⟩
  have hfound := Scan.head_found hs
  generalize cs ++ rest = tail at hfound
  generalize htoken : c :: cs = token at hfound
  obtain hk | hk := hk <;> rw [hk] at hs hfound ⊢
  · cases hfound with
    | identifier hstart =>
      rw [Scan.head_wordStart hstart, ← htoken]
      exact word_goes_on (hall _ (List.cons.inj htoken).2) hbehind hword
  · cases hfound with
    | resource hc hstart =>
      obtain ⟨y, ys, htail, hy⟩ := hstart
      have hcs := (List.cons.inj htoken).2
      obtain ⟨cs', rfl⟩ : ∃ cs', cs = y :: cs' := by
        rw [htail, List.takeWhile_cons_of_pos (Dialect.isWordChar_of_isWordStart hy)] at hcs
        exact ⟨_, hcs⟩
      subst hc
      have hpercent : d.isWordStart '%' = false := Scan.isWordStart_of_symbol (by decide)
      have hbefore : afterValue = false := by
        refine Bool.eq_false_iff.2 fun ha => ?_
        simp [Scan.head, isBlank, ha, hpercent, symbolChars] at hs
      have hhead : Scan.head d afterValue '%' (y :: cs' ++ behind) =
          Scan.word .resource d.isWordChar '%' (y :: cs' ++ behind) := by
        simp [Scan.head, isBlank, hbefore, hy]
      rw [hhead, ← htoken]
      exact word_goes_on (hall _ hcs) hbehind hword

theorem reads_blank {us : List Token} (hc : isBlank c = false) (blank : Bool)
    (h : Reads d afterValue ((if blank then [' '] else []) ++ c :: cs) us left []) :
    ∃ us', Reads d afterValue (c :: cs) us' left [] ∧
      us'.filter (fun t => !t.isTrivia) = us.filter fun t => !t.isTrivia := by
  cases blank with
  | false => exact ⟨us, h, rfl⟩
  | true =>
    cases h with
    | @token _ _ _ _ _ _ w us hs hr =>
    rw [head_blank (by decide)] at hs
    simp only [List.append_eq, List.nil_append, List.takeWhile_cons_of_neg (Bool.eq_false_iff.1 hc),
      List.dropWhile_cons_of_neg (Bool.eq_false_iff.1 hc), Scan.token.injEq] at hs
    obtain ⟨hk, -, rfl⟩ := hs
    have hw : w.isTrivia = true := by simp [Token.isTrivia, ← hk]
    rw [Token.leaves, if_pos hw] at hr
    exact ⟨us, hr, by rw [List.filter_cons_of_neg (by simp [hw])]⟩

theorem Pieced.no_merges_of_reads (h : Pieced d afterValue text ps) {us : List Token}
    (hr : Reads d afterValue (piecesText (squeeze t ps)) us left [])
    (hs : List.Forall₂ Token.Same (us.filter fun t => !t.isTrivia) (ps.map Prod.snd)) :
    (ps.map Prod.snd).IsChain fun t u => ¬Merges d t u := by
  induction h generalizing t us with
  | nil => exact .nil
  | @cons afterValue apart _ cs rest c u ps htext hu ht _ hps ih =>
    have hblank : isBlank c = false := by
      refine Bool.eq_false_iff.2 fun hb => ?_
      rw [head_blank hb, Scan.token.injEq] at hu
      simp [Token.isTrivia, ← hu.1] at ht
    rw [squeeze, piecesText_cons, htext, List.cons_append] at hr
    obtain ⟨us, hr, hus⟩ := reads_blank hblank _ hr
    rw [← hus] at hs
    clear hus
    have hm : ∀ p ∈ ps.head?, ¬Merges d u p.2 := by
      rintro ⟨apart', v⟩ hp hm
      obtain ⟨ps, rfl⟩ := List.head?_eq_some_iff.1 hp
      have hbehind : (piecesText (squeeze u ((apart', v) :: ps))).head? = v.text.toList.head? := by
        obtain ⟨-, hb, x, hx, -⟩ := hm
        rw [squeeze, hb, piecesText_cons]
        obtain ⟨tail, htail⟩ := List.head?_eq_some_iff.1 hx
        simp [htail]
      obtain ⟨x, more, rest', hhead⟩ := head_merges htext hu hm hbehind
      cases hr with
      | @token _ _ _ _ _ _ w us hw _ =>
      obtain ⟨hk, htextw, -⟩ := Scan.token.inj (hw.symm.trans hhead)
      rw [List.filter_cons_of_pos (by simpa [Token.isTrivia, hk] using ht)] at hs
      cases hs with
      | cons hsame _ =>
        rw [hsame.2, htext] at htextw
        simpa using congrArg List.length htextw
    have hhead := hps.head_squeezed htext hu ht hm
    cases hr with
    | @token _ _ _ _ _ _ w us hw hr =>
    obtain ⟨hk, htextw, rfl⟩ := Scan.token.inj (hw.symm.trans hhead)
    have hsame : w.Same u := ⟨hk, String.toList_inj.1 (htextw.trans htext.symm)⟩
    rw [Token.leaves, hsame.isTrivia, ht, hsame.endsValue] at hr
    rw [List.filter_cons_of_pos (by simp [hsame.isTrivia, ht])] at hs
    cases hs with
    | cons _ hs =>
    rw [List.map_cons, List.isChain_cons]
    refine ⟨?_, ih hr hs⟩
    intro v hv
    rw [List.head?_map, Option.mem_def, Option.map_eq_some_iff] at hv
    obtain ⟨p, hp, rfl⟩ := hv
    exact hm p hp

def Unmerged (d : Dialect) (tokens : List Token) : Prop :=
  (tokens.filter isSignificant).IsChain fun t u => ¬Merges d t u

instance (d : Dialect) (t u : Token) : Decidable (Merges d t u) :=
  decidable_of_iff ((t.kind = .identifier ∨ t.kind = .resource) ∧ needsBlank t u = false ∧
    u.text.toList.head?.any d.isWordChar = true) (by simp [Merges, Option.any_eq_true])

instance (d : Dialect) (tokens : List Token) : Decidable (Unmerged d tokens) :=
  inferInstanceAs (Decidable (List.IsChain _ _))

theorem significant_lexed {source : String} {ts : List Token} {loc : Location}
    (h : lex source d = .ok (ts ++ [Token.endAt loc])) :
    (ts ++ [Token.endAt loc]).filter isSignificant = ts.filter fun t => !t.isTrivia := by
  obtain ⟨ts', loc', hts, hlexed⟩ := lexed_of_lex h
  obtain ⟨rfl, -⟩ := List.append_inj' hts rfl
  rw [List.filter_append]
  have hend : [Token.endAt loc].filter isSignificant = [] := rfl
  rw [hend, List.append_nil]
  refine List.filter_congr fun t ht => ?_
  simp [isSignificant, (hlexed t ht).isEof]

end Pack

/-- Packed text has the tokens of its source, and is its own packed text, if and only if no word merges with the token
behind it. None does where unknown characters are no letters. -/
theorem packSource_keeps {source : String} {d : Dialect} {tokens : List Token} (h : lex source d = .ok tokens) :
    ∃ packed, packSource source d = .ok packed ∧
      (Unmerged d tokens ↔ ∃ toks, lex packed d = .ok toks ∧
        List.Forall₂ Token.Same (toks.filter isSignificant) (tokens.filter isSignificant)) ∧
      (Unmerged d tokens → packSource packed d = .ok packed) ∧
      (d.unknownAsLetters = false → Unmerged d tokens) := by
  obtain ⟨ts, loc, ps, rfl, hspread, hpieced, htext⟩ := packTokens_pieced h
  have hsignificant : (ts ++ [Token.endAt loc]).filter isSignificant = ps.map Prod.snd := by
    rw [significant_lexed h, hspread.tokens]
  rw [Unmerged, hsignificant]
  have hread (hm : (ps.map Prod.snd).IsChain fun t u => ¬Merges d t u) :
      ∃ ts' loc', lex (packTokens (ts ++ [Token.endAt loc])) d = .ok (ts' ++ [Token.endAt loc']) ∧
        Shown false ts' (squeeze (Token.endAt .zero) ps) := by
    have hspaced := hpieced.spaced hm (Token.endAt .zero)
    rw [← htext] at hspaced
    obtain ⟨toks, us, hok, hsame, hspread'⟩ := hspaced.lex
    obtain ⟨ts', loc', rfl, -⟩ := lexed_of_lex hok
    have hlength : ts'.length = us.length := by simpa using hsame.length_eq
    have hfront := List.forall₂_take_append _ _ _ hsame
    rw [← hlength, List.take_left] at hfront
    exact ⟨ts', loc', hok, hspread'.shown hfront⟩
  refine ⟨_, by rw [packSource, h]; rfl, ⟨fun hm => ?_, ?_⟩, fun hm => ?_, hpieced.no_merges⟩
  · obtain ⟨ts', loc', hok, hshown⟩ := hread hm
    refine ⟨_, hok, ?_⟩
    rw [significant_lexed hok, ← map_squeeze (Token.endAt .zero) ps]
    exact hshown.tokens
  · rintro ⟨toks, hok, hsame⟩
    obtain ⟨ts', loc', left, rfl, hr, -⟩ := Lexer.reads_of_tokens (x := Lexer.ofText _ d) rfl hok
    rw [significant_lexed hok] at hsame
    have hread : Reads d false (piecesText (squeeze (Token.endAt .zero) ps)) ts' left [] := htext ▸ hr
    exact hpieced.no_merges_of_reads hread hsame
  · obtain ⟨ts', loc', hok, hshown⟩ := hread hm
    rw [packSource, hok]
    have hagain := packTokens_text hok hshown
    rw [squeeze_squeeze, ← htext] at hagain
    exact congrArg Except.ok (String.toList_inj.1 hagain)

theorem packSource_keeps_letter :
    let d : Dialect := { unknownAsLetters := true }
    let tokens : List Token := [⟨.number, "1", .start⟩, ⟨.whitespace, " ", ⟨1, 2, 1⟩⟩, ⟨.identifier, "@", ⟨1, 3, 2⟩⟩,
      ⟨.whitespace, " ", ⟨1, 4, 3⟩⟩, ⟨.symbol, ".", ⟨1, 5, 4⟩⟩, ⟨.whitespace, " ", ⟨1, 6, 5⟩⟩,
      ⟨.number, "5", ⟨1, 7, 6⟩⟩, Token.endAt ⟨1, 8, 7⟩]
    lex "1 @ . 5" d = .ok tokens ∧ Unmerged d tokens ∧ packSource "1 @ . 5" d = .ok "1@. 5" ∧
      (∃ toks, lex "1@. 5" d = .ok toks ∧
        List.Forall₂ Token.Same (toks.filter isSignificant) (tokens.filter isSignificant)) ∧
      packSource "1@. 5" d = .ok "1@. 5" := by
  intro d tokens
  have hl : lex "1 @ . 5" d = .ok tokens := by decide +kernel
  have hm : Unmerged d tokens := by decide +kernel
  have hp : packSource "1 @ . 5" d = .ok "1@. 5" := by
    rw [packSource, hl]
    decide +kernel
  obtain ⟨packed, hpacked, hkeeps, hstable, -⟩ := packSource_keeps hl
  obtain rfl := Except.ok.inj (hpacked.symm.trans hp)
  exact ⟨hl, hm, hp, hkeeps.1 hm, hstable hm⟩

theorem packing_merges_letter :
    let d : Dialect := { unknownAsLetters := true }
    (lex "a @" d = .ok [⟨.identifier, "a", .start⟩, ⟨.whitespace, " ", ⟨1, 2, 1⟩⟩, ⟨.identifier, "@", ⟨1, 3, 2⟩⟩,
        Token.endAt ⟨1, 4, 3⟩] ∧
      packSource "a @" d = .ok "a@" ∧
      lex "a@" d = .ok [⟨.identifier, "a@", .start⟩, Token.endAt ⟨1, 3, 2⟩]) ∧
      packSource "x @ 1 . 5" d = .ok "x@1 . 5" ∧ packSource "x@1 . 5" d = .ok "x@1. 5" := by
  intro d
  have hl : lex "a @" d = .ok [⟨.identifier, "a", .start⟩, ⟨.whitespace, " ", ⟨1, 2, 1⟩⟩, ⟨.identifier, "@", ⟨1, 3, 2⟩⟩,
      Token.endAt ⟨1, 4, 3⟩] := by decide +kernel
  have hfirst : lex "x @ 1 . 5" d = .ok [⟨.identifier, "x", .start⟩, ⟨.whitespace, " ", ⟨1, 2, 1⟩⟩,
      ⟨.identifier, "@", ⟨1, 3, 2⟩⟩, ⟨.whitespace, " ", ⟨1, 4, 3⟩⟩, ⟨.number, "1", ⟨1, 5, 4⟩⟩, ⟨.whitespace, " ", ⟨1, 6, 5⟩⟩,
      ⟨.symbol, ".", ⟨1, 7, 6⟩⟩, ⟨.whitespace, " ", ⟨1, 8, 7⟩⟩, ⟨.number, "5", ⟨1, 9, 8⟩⟩, Token.endAt ⟨1, 10, 9⟩] := by
    decide +kernel
  have hsecond : lex "x@1 . 5" d = .ok [⟨.identifier, "x@1", .start⟩, ⟨.whitespace, " ", ⟨1, 4, 3⟩⟩,
      ⟨.symbol, ".", ⟨1, 5, 4⟩⟩, ⟨.whitespace, " ", ⟨1, 6, 5⟩⟩, ⟨.number, "5", ⟨1, 7, 6⟩⟩, Token.endAt ⟨1, 8, 7⟩] := by
    decide +kernel
  refine ⟨⟨hl, ?_, by decide +kernel⟩, ?_, ?_⟩
  · rw [packSource, hl]
    decide +kernel
  · rw [packSource, hfirst]
    decide +kernel
  · rw [packSource, hsecond]
    decide +kernel

end GameScript
