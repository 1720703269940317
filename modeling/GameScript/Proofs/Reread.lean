import GameScript.Proofs.Display

namespace GameScript

open Token

/-- The text of the expression has these tokens, which begin where the expression is located. -/
def Reproduces (d : Dialect) (e : Expr) (ts : List Token) : Prop :=
  StartsAt ts e.loc ∧ ∃ tokens, lex e.text d = .ok tokens ∧
    List.Forall₂ (SameButCase d.mode) (tokens.filter Pack.isSignificant) ts

theorem Matches.same {mode : GameMode} {ps : List Piece} {ts us : List Token} (h : Matches mode ps ts)
    (hu : List.Forall₂ Same us (ps.map Prod.snd)) : List.Forall₂ (SameButCase mode) us ts := by
  induction h generalizing us with
  | nil =>
    cases hu
    exact .nil
  | cons hp _ ih =>
    cases hu with
    | cons hs hu => exact .cons (hs.sameButCase hp) (ih hu)

theorem Matches.not_eof {mode : GameMode} {ps : List Piece} {ts : List Token} (h : Matches mode ps ts)
    (ht : ∀ t ∈ ts, t.isEof = false) : ∀ t ∈ ps.map Prod.snd, t.isEof = false := by
  induction h with
  | nil => simp
  | cons hp _ ih =>
    obtain ⟨he, hts⟩ := List.forall_mem_cons.1 ht
    refine List.forall_mem_cons.2 ⟨?_, ih hts⟩
    simp only [Token.isEof, hp.1] at he ⊢
    exact he

theorem Spells.reproduces {d : Dialect} {e : Expr} {ts : List Token} (h : Spells d.mode e ts)
    (hl : ∀ t ∈ ts, t.Lexed d) : Reproduces d e ts := by
  refine ⟨h.startsAt, ?_⟩
  have hr : ∀ t ∈ ts, t.Readable d false := fun t ht => (hl t ht).readable
  have hm : Matches d.mode (e.pieces false) ts := h.matches (fun t ht => (hl t ht).oneChar) false
  have hs : Spaced d false false e.text.toList (e.pieces false) := by
    have : Spaced d false false (e.text.toList ++ []) (e.pieces false ++ []) :=
      h.prints hr (fun t ht => hr t (List.mem_of_mem_head? ht)) clear_nil fun _ => .nil
    simpa using this
  obtain ⟨toks, us, hok, hsame, hspread⟩ := hs.lex
  refine ⟨toks, hok, hm.same ?_⟩
  have hfilter : (us ++ [Token.endAt .zero]).filter Pack.isSignificant = (e.pieces false).map Prod.snd := by
    have hus : us.filter Pack.isSignificant = (us.filter fun t => !t.isTrivia).filter fun t => !t.isEof := by
      rw [List.filter_filter]
      congr 1
      funext t
      rw [Pack.isSignificant, Bool.and_comm]
    rw [List.filter_append, hus, ← hspread.tokens, List.filter_eq_self.2]
    · simp [Pack.isSignificant, Token.isEof_endAt]
    · simpa using hm.not_eof fun t ht => (hl t ht).isEof
  rw [← hfilter]
  refine List.rel_filter ?_ hsame
  intro t u htu
  simp [Pack.isSignificant, htu.isTrivia, htu.isEof]

theorem endsOnce_ofList {ts : List Token} (loc : Location) (h : ∀ t ∈ ts, t.isEof = false) :
    TokenStream.closed (ts ++ [Token.endAt loc]) = ts ++ [Token.endAt loc] ∧
      (TokenStream.ofList (ts ++ [Token.endAt loc])).EndsOnce := by
  have hclosed := TokenStream.closed_endAt ts loc
  refine ⟨hclosed, fun i hi => ?_⟩
  simp only [TokenStream.size, TokenStream.ofList, hclosed, List.size_toArray, List.length_append,
    List.length_singleton] at hi
  have hmin : min i (ts.length + 1 - 1) = i := by omega
  have hlt : i < ts.length := by omega
  simp only [TokenStream.tokenAt, TokenStream.ofList, hclosed, List.size_toArray, List.length_append,
    List.length_singleton, List.getElem_toArray, hmin, List.getElem_append_left hlt]
  exact h _ (List.getElem_mem hlt)

/-- A lone expression is a faithful record of its source: every expression in it is a block of the significant
tokens, begins where it is located, and its text has the tokens of that block. The whole expression has all of
them but a last semicolon. -/
theorem parse_reproduces {source : String} {config : ParserConfig} {tokens : List Token}
    (ht : config.target = .expression) (hl : lex source config.dialect = .ok tokens)
    (hs : (parse tokens config).isSuccess = true) :
    ∃ root block tail, (parse tokens config).graph = some (.expression root) ∧
      tokens.filter Pack.isSignificant = block ++ tail ∧
      (tail = [] ∨ ∃ t, t.isSymbol ';' = true ∧ tail = [t]) ∧ Reproduces config.dialect root block ∧
      ∀ e, View.expr e ∈ (View.expr root).walk →
        ∃ ts, ts <:+: tokens.filter Pack.isSignificant ∧ Reproduces config.dialect e ts := by
  obtain ⟨ts, loc, rfl, hlexed⟩ := lexed_of_lex hl
  obtain ⟨hclosed, honce⟩ := endsOnce_ofList loc fun t ht => (hlexed t ht).isEof
  obtain ⟨root, block, tail, hgraph, hspells, htail, hall⟩ := parse_whole ht honce hs
  rw [hclosed] at hall
  have hsource : ∀ t ∈ block ++ tail, t.Lexed config.dialect := by
    intro t hmem
    rw [← hall, List.filter_append] at hmem
    simp only [Pack.isSignificant, List.mem_append, List.mem_filter, List.mem_singleton] at hmem
    obtain ⟨hmem, -⟩ | ⟨rfl, hend⟩ := hmem
    · exact hlexed t hmem
    · simp [Token.isEof_endAt] at hend
  have hblock : ∀ t ∈ block, t.Lexed config.dialect := fun t ht => hsource t (List.mem_append_left _ ht)
  refine ⟨root, block, tail, hgraph, hall, htail, hspells.reproduces hblock, fun e he => ?_⟩
  obtain ⟨us, hus, he'⟩ := hspells.descendant (.expr e) he e rfl
  refine ⟨us, ?_, he'.reproduces fun t ht => hblock t (hus.subset ht)⟩
  rw [hall]
  exact hus.trans (List.prefix_append _ _).isInfix

theorem parse_reproduces_negated :
    let tokens : List Token := [⟨.symbol, "-", .start⟩, ⟨.number, ".5", ⟨1, 2, 1⟩⟩, ⟨.symbol, ";", ⟨1, 4, 3⟩⟩,
      Token.endAt ⟨1, 5, 4⟩]
    let config : ParserConfig := { target := .expression }
    lex "-.5;" config.dialect = .ok tokens ∧ (parse tokens config).isSuccess = true ∧
      ∃ root block tail, (parse tokens config).graph = some (.expression root) ∧
        tokens.filter Pack.isSignificant = block ++ tail ∧ Reproduces config.dialect root block := by
  intro tokens config
  have hl : lex "-.5;" config.dialect = .ok tokens := by decide +kernel
  have hs : (parse tokens config).isSuccess = true := by decide +kernel
  obtain ⟨root, block, tail, hg, ht, -, hr, -⟩ := parse_reproduces rfl hl hs
  exact ⟨hl, hs, root, block, tail, hg, ht, hr⟩

end GameScript
