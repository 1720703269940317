import GameScript.Proofs.Beside

namespace GameScript

namespace Guise

def unplaced : Guise :=
  verbatim fun _ => .zero

theorem fresh_unplaced : unplaced.Fresh :=
  ⟨rfl, rfl, rfl, rfl, rfl⟩

theorem graph_unplaced (g : Graph) : unplaced.graph g = Relabel.unplaced.graph g := by
  have hlabels : unplaced.labelling = Relabel.unplaced :=
    congrArg (fun id => Relabel.mk id fun _ => .zero) (funext Nat.zero_add)
  rw [Recast.graph_labelling fun _ => rfl, hlabels]

theorem token_unplaced {t u : Token} (h : t.Same u) : unplaced.token t = unplaced.token u := by
  obtain ⟨hk, ht⟩ := h
  simp only [Recast.token, hk, ht]
  rfl

theorem spread_unplaced {apart : Bool} {ts : List Token} {ps : List Piece} (h : Shown apart ts ps) :
    Spread apart (ts.map unplaced.token) (ps.map fun p => (p.1, unplaced.token p.2)) := by
  induction h with
  | nil => exact .nil
  | trivia ht _ ih => exact .trivia ht ih
  | token hs hu _ ih =>
    rw [List.map_cons, List.map_cons, token_unplaced hs]
    exact .token hu ih

theorem pairs_squeeze {t : Token} {ps : List Piece} (ht : t.OneChar) (h : ∀ p ∈ ps, p.2.OneChar) {e : Token}
    (he : e.symbol? = none) (apart apart' : Bool) :
    unplaced.Pairs True t (ps ++ [(apart, e)])
      ((Pack.squeeze t ps).map (fun p => (p.1, unplaced.token p.2)) ++ [(apart', unplaced.token e)]) := by
  induction ps generalizing t with
  | nil => exact .cons (fun c d _ hd => by rw [he] at hd; cases hd) .nil
  | cons p ps ih =>
    obtain ⟨hp, hps⟩ := List.forall_mem_cons.1 h
    obtain ⟨apart, u⟩ := p
    refine .cons (fun c d hc hd => ?_) (ih hp hps)
    simp only
    cases apart with
    | false => exact .inl rfl
    | true =>
      cases hn : Pack.needsBlank t u with
      | true => exact .inl rfl
      | false => exact .inr ⟨rfl, rfl, Pack.charsJoin_of_needsBlank ht hp hc hd hn⟩

end Guise

def Diagnostic.words (d : Diagnostic) : Severity × String :=
  (d.severity, d.message)

theorem Complaint.words_alike {c c' : Complaint} (h : Guise.unplaced.Alike c c') : c'.diagnostic.words = c.diagnostic.words := by
  rw [h.problem trivial]
  obtain ⟨problem, loc, raised⟩ := c
  cases problem <;> rfl

structure ParseOutput.Unplaced where
  graph : Option Graph
  warnings : List (Severity × String)
  errors : List (Severity × String)
  halted : Bool

def ParseOutput.unplaced (o : ParseOutput) : Unplaced :=
  ⟨o.graph.map Relabel.unplaced.graph, o.warnings.map Diagnostic.words, o.errors.map Diagnostic.words, o.halted⟩

theorem unplaced_parse {tokens tokens' : List Token} {t : Token} {ps ps' : List Piece} (config : ParserConfig)
    (h : Spread false (TokenStream.closed tokens) ps) (h' : Spread false (TokenStream.closed tokens') ps')
    (hp : Guise.unplaced.Pairs True t ps ps') :
    (parse tokens config).unplaced = ⟨(parse tokens' config).graph, (parse tokens' config).warnings.map Diagnostic.words,
      (parse tokens' config).errors.map Diagnostic.words, (parse tokens' config).halted⟩ := by
  have hl := Session.run_like Guise.fresh_unplaced config h h' hp
  obtain ⟨hg, hw, he, hh⟩ := hl.finish Guise.fresh_unplaced (Session.run_finished tokens config)
    (fun c => rfl : ∀ c : Complaint, c.diagnostic.words = c.diagnostic.words) fun _ _ => Complaint.words_alike
  have hgraph : Guise.unplaced.graph = Relabel.unplaced.graph := funext Guise.graph_unplaced
  rw [hgraph] at hg
  rw [ParseOutput.unplaced, parse, parse, hg, hw, he, hh]

theorem closed_unplaced {source : String} {d : Dialect} {tokens : List Token} (h : lex source d = .ok tokens) :
    TokenStream.closed (tokens.map Guise.unplaced.token) = (TokenStream.closed tokens).map Guise.unplaced.token := by
  obtain ⟨ts, loc, rfl, -⟩ := lexed_of_lex h
  rw [TokenStream.closed_endAt, List.map_append]
  exact TokenStream.closed_endAt _ _

def Piece.Like (p q : Piece) : Prop :=
  p.2.Same q.2 ∧ (p.1 = q.1 ∨ p.2.symbol? = none)

theorem Piece.Like.symm {p q : Piece} (h : p.Like q) : q.Like p :=
  ⟨⟨h.1.1.symm, h.1.2.symm⟩, h.2.imp Eq.symm fun hs => h.1.symbol? ▸ hs⟩

theorem Piece.Like.trans {p q r : Piece} (h : p.Like q) (h' : q.Like r) : p.Like r := by
  obtain ⟨hpq, hp⟩ := h
  obtain ⟨hqr, hq⟩ := h'
  refine ⟨⟨hpq.1.trans hqr.1, hpq.2.trans hqr.2⟩, ?_⟩
  rw [← hpq.symbol?] at hq
  obtain hp | hp := hp
  · exact hq.imp_left hp.trans
  · exact .inr hp

theorem Piece.Like.refl (p : Piece) : p.Like p :=
  ⟨.refl p.2, .inl rfl⟩

theorem likes_symm {ps qs : List Piece} (h : List.Forall₂ Piece.Like ps qs) : List.Forall₂ Piece.Like qs ps :=
  (h.imp fun _ _ h => h.symm).flip

theorem likes_trans {ps qs rs : List Piece} (h : List.Forall₂ Piece.Like ps qs) (h' : List.Forall₂ Piece.Like qs rs) :
    List.Forall₂ Piece.Like ps rs := by
  induction h generalizing rs with
  | nil => exact h'
  | cons hpq _ ih =>
    cases h' with
    | cons hqr h' => exact .cons (hpq.trans hqr) (ih h')

theorem like_significant {ts us : List Token} (h : List.Forall₂ Token.Same ts us) (apart : Bool) :
    List.Forall₂ Piece.Like (significant apart ts) (significant apart us) := by
  induction h generalizing apart with
  | nil => exact .nil
  | @cons t u ts us hsame _ ih =>
    unfold significant
    rw [hsame.isTrivia]
    split
    · exact ih true
    · exact .cons ⟨hsame, .inl rfl⟩ (ih false)

theorem Guise.pairs_like {t : Token} {ps qs : List Piece} (h : List.Forall₂ Piece.Like ps qs) :
    unplaced.Pairs True t ps (qs.map fun p => (p.1, unplaced.token p.2)) := by
  induction h generalizing t with
  | nil => exact .nil
  | @cons p q ps qs hpq _ ih =>
    obtain ⟨hsame, hapart⟩ := hpq
    rw [List.map_cons, ← token_unplaced hsame]
    refine .cons (fun c d _ hd => .inl ?_) ih
    exact (hapart.resolve_right (by simp [hd])).symm

theorem unplaced_parse_like {source : String} {d : Dialect} {tokens tokens' : List Token} (hl : lex source d = .ok tokens')
    (h : List.Forall₂ Piece.Like (significant false (TokenStream.closed tokens)) (significant false (TokenStream.closed tokens')))
    (config : ParserConfig) : (parse tokens config).unplaced = (parse tokens' config).unplaced := by
  have hspread := spread_significant false (TokenStream.closed tokens)
  have hspread' := spread_significant false (TokenStream.closed tokens')
  have hbare := hspread'.recast Guise.unplaced.toRecast
  rw [← closed_unplaced hl] at hbare
  rw [unplaced_parse config hspread hbare (Guise.pairs_like (t := Token.endAt .zero) h),
    unplaced_parse config hspread' hbare (.self Guise.unplaced True (Token.endAt .zero) _)]

/-- A source and its packed text are parsed to the same graph up to locations, with the same complaints. -/
theorem parse_packed {source : String} {config : ParserConfig} {tokens : List Token}
    (hd : config.dialect.unknownAsLetters = false) (hl : lex source config.dialect = .ok tokens) :
    ∃ packed toks, packSource source config.dialect = .ok packed ∧ lex packed config.dialect = .ok toks ∧
      (parse toks config).unplaced = (parse tokens config).unplaced := by
  have hone : ∀ t ∈ tokens, t.OneChar := by
    obtain ⟨ts, loc, rfl, hlexed⟩ := lexed_of_lex hl
    intro t ht
    obtain ht | ht := List.mem_append.1 ht
    · exact (hlexed t ht).oneChar
    · obtain rfl := List.mem_singleton.1 ht
      exact fun hk => by cases hk
  obtain ⟨ts, loc, ps, rfl, hspread, hspaced⟩ := Pack.packTokens_spaced hd hl
  obtain ⟨toks, apart, hok, hshown⟩ := hspaced.shows
  obtain ⟨apart', hspread'⟩ := hspread.snoc (Token.isTrivia_endAt loc)
  rw [← TokenStream.closed_endAt] at hspread'
  have hclosed := closed_unplaced hok
  have hqs := spread_significant false (TokenStream.closed toks)
  generalize significant false (TokenStream.closed toks) = qs at hqs
  have hbare := Guise.spread_unplaced hshown
  have hbare' := hqs.recast Guise.unplaced.toRecast
  rw [← hclosed] at hbare hbare'
  rw [List.map_append] at hbare
  have hps : ∀ p ∈ ps, p.2.OneChar := by
    refine fun p hp => hone p.2 (List.mem_append_left _ ?_)
    have hmem := List.mem_map_of_mem (f := Prod.snd) hp
    rw [hspread.tokens] at hmem
    exact List.mem_of_mem_filter hmem
  refine ⟨_, toks, by rw [packSource, hl]; rfl, hok, ?_⟩
  rw [unplaced_parse config hqs hbare' (.self Guise.unplaced True (Token.endAt .zero) qs),
    unplaced_parse config hspread' hbare (Guise.pairs_squeeze (fun hk => by cases hk) hps rfl apart' apart)]

theorem parse_packed_negated :
    let tokens : List Token := [⟨.symbol, "-", .start⟩, ⟨.whitespace, " ", ⟨1, 2, 1⟩⟩, ⟨.symbol, "-", ⟨1, 3, 2⟩⟩,
      ⟨.whitespace, " ", ⟨1, 4, 3⟩⟩, ⟨.number, ".5", ⟨1, 5, 4⟩⟩, Token.endAt ⟨1, 7, 6⟩]
    let config : ParserConfig := { target := .expression }
    lex "- - .5" config.dialect = .ok tokens ∧ packSource "- - .5" config.dialect = .ok "- -.5" ∧
      ∃ toks, lex "- -.5" config.dialect = .ok toks ∧ (parse toks config).unplaced = (parse tokens config).unplaced := by
  intro tokens config
  have hl : lex "- - .5" config.dialect = .ok tokens := by decide +kernel
  have hp : packSource "- - .5" config.dialect = .ok "- -.5" := by decide +kernel
  obtain ⟨packed, toks, hpacked, hlexed, hparsed⟩ := parse_packed rfl hl
  obtain rfl := Except.ok.inj (hpacked.symm.trans hp)
  exact ⟨hl, hp, toks, hlexed, hparsed⟩

end GameScript
