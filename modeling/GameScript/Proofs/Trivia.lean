import GameScript.Proofs.Beside

namespace GameScript

/-- For each token and the next: whether trivia lies between them, if both are symbols. -/
def symbolGaps : List Piece → List (Option Bool)
  | (_, t) :: (apart, u) :: ps =>
    (if t.kind = .symbol ∧ u.kind = .symbol then some apart else none) :: symbolGaps ((apart, u) :: ps)
  | _ => []

/-- The token lists have the same significant tokens and the same end, and the same symbols are apart in them. -/
structure AlikeButTrivia (ts ts' : List Token) : Prop where
  ends : ∃ e, e.isEof = true ∧ ts.getLast? = some e ∧ ts'.getLast? = some e
  tokens : ts.filter (fun t => !t.isTrivia) = ts'.filter fun t => !t.isTrivia
  gaps : symbolGaps (significant false ts) = symbolGaps (significant false ts')

theorem Recast.token_eq {r : Recast} (hl : ∀ loc, r.loc loc = loc) (hw : ∀ w, r.word w = w) (t : Token) : r.token t = t := by
  simp only [token, hl, hw, ite_self]

namespace Guise

theorem Alike.eq {g : Guise} {c c' : Complaint} (h : g.Alike c c') (he : g.exact) (hl : ∀ loc, g.loc loc = loc) : c' = c := by
  rw [h.problem he]
  obtain ⟨problem, loc, raised⟩ := c
  cases problem <;> simp only [Recast.problem, hl]

def same : Guise :=
  verbatim id

theorem fresh_same : same.Fresh :=
  ⟨rfl, rfl, rfl, rfl, rfl⟩

theorem keeps_same : same.labelling.Keeps :=
  ⟨Nat.zero_add, fun _ => rfl⟩

theorem graph_same (g : Graph) : same.graph g = g := by
  rw [Recast.graph_labelling fun _ => rfl, keeps_same.graph]

theorem token_same (t : Token) : same.token t = t :=
  Recast.token_eq (fun _ => rfl) (fun _ => rfl) t

theorem pairs_same {t : Token} {apart apart' : Bool} {ps ps' : List Piece} (h : ps.map Prod.snd = ps'.map Prod.snd)
    (hg : symbolGaps ((apart, t) :: ps) = symbolGaps ((apart', t) :: ps')) : same.Pairs True t ps ps' := by
  -- By induction on the pieces, of which two symbols stand together in both lists or in none.
  induction ps generalizing t apart apart' ps' with
  | nil =>
    cases ps' with
    | nil => exact .nil
    | cons => cases h
  | cons p ps ih =>
    cases ps' with
    | nil => cases h
    | cons p' ps' =>
      obtain ⟨a, u⟩ := p
      obtain ⟨a', u'⟩ := p'
      obtain ⟨hu, hrest⟩ := List.cons.inj h
      obtain rfl : u = u' := hu
      obtain ⟨hgap, hgaps⟩ := List.cons.inj hg
      have hsymbol {v : Token} {c : Char} (hv : v.symbol? = some c) : v.kind = .symbol := by
        by_contra hk
        rw [Token.symbol?_eq_none_of_kind hk] at hv
        cases hv
      have hpairs : same.Pairs True t ((a, u) :: ps) ((a', same.token u) :: ps') := by
        refine .cons (fun c d hc hd => .inl ?_) (ih hrest hgaps)
        rw [if_pos ⟨hsymbol hc, hsymbol hd⟩, if_pos ⟨hsymbol hc, hsymbol hd⟩] at hgap
        exact (Option.some.inj hgap).symm
      rwa [token_same] at hpairs

end Guise

theorem closed_of_getLast? {tokens : List Token} {e : Token} (he : e.isEof = true) (h : tokens.getLast? = some e) :
    TokenStream.closed tokens = tokens := by
  rw [TokenStream.closed, h]
  exact if_pos he

/-- Token lists that differ in trivia only are parsed to the same outcome, if the same symbols stand apart in them. -/
theorem parse_trivia {tokens tokens' : List Token} (h : AlikeButTrivia tokens tokens') (config : ParserConfig) :
    parse tokens config = parse tokens' config := by
  obtain ⟨e, he, hend, hend'⟩ := h.ends
  have hspread := spread_significant false tokens
  have hspread' := spread_significant false tokens'
  have hmap : (significant false tokens).map Prod.snd = (significant false tokens').map Prod.snd := by
    rw [hspread.tokens, hspread'.tokens, h.tokens]
  have hgaps : symbolGaps ((false, Token.endAt .zero) :: significant false tokens) =
      symbolGaps ((false, Token.endAt .zero) :: significant false tokens') := by
    have hg := h.gaps
    generalize significant false tokens = ps, significant false tokens' = ps' at hmap hg
    cases ps with
    | nil =>
      cases ps' with
      | nil => rfl
      | cons => cases hmap
    | cons p ps =>
      cases ps' with
      | nil => cases hmap
      | cons p' ps' => exact congrArg (none :: ·) hg
  have hclosed : Spread false (TokenStream.closed tokens) (significant false tokens) := by
    rwa [closed_of_getLast? he hend]
  have hclosed' : Spread false (TokenStream.closed tokens') (significant false tokens') := by
    rwa [closed_of_getLast? he hend']
  have hl := Session.run_like Guise.fresh_same config hclosed hclosed' (Guise.pairs_same hmap hgaps)
  obtain ⟨hgraph, hw, hf, hh⟩ := hl.finish Guise.fresh_same (Session.run_finished tokens config)
    (fun c => rfl : ∀ c : Complaint, id c.diagnostic = c.diagnostic) fun c c' hc => by rw [hc.eq trivial fun _ => rfl]
  rw [List.map_id, List.map_id] at hw hf
  rw [funext Guise.graph_same, Option.map_id'] at hgraph
  rw [parse, parse]
  generalize (Session.ofTokens tokens config).run.finish = o, (Session.ofTokens tokens' config).run.finish = o' at *
  obtain ⟨graph, warnings, errors, halted⟩ := o
  obtain ⟨graph', warnings', errors', halted'⟩ := o'
  simp only at hgraph hw hf hh
  rw [hgraph, hw, hf, hh]

theorem parse_trivia_sum :
    let a : Token := ⟨.identifier, "a", .start⟩
    let plus : Token := ⟨.symbol, "+", ⟨1, 2, 1⟩⟩
    let minus : Token := ⟨.symbol, "-", ⟨1, 4, 3⟩⟩
    let b : Token := ⟨.identifier, "b", ⟨1, 5, 4⟩⟩
    let e : Token := Token.endAt ⟨1, 9, 8⟩
    let tokens := [a, plus, ⟨.whitespace, " ", ⟨1, 3, 2⟩⟩, minus, b, ⟨.comment, "//", ⟨1, 7, 6⟩⟩, e]
    let tokens' := [a, ⟨.whitespace, " ", ⟨1, 2, 1⟩⟩, plus, ⟨.comment, "/**/", ⟨1, 3, 2⟩⟩, minus, b, e]
    let config : ParserConfig := { target := .expression }
    AlikeButTrivia tokens tokens' ∧ parse tokens config = parse tokens' config := by
  intro a plus minus b e tokens tokens' config
  have h : AlikeButTrivia tokens tokens' := ⟨⟨e, rfl, rfl, rfl⟩, by decide, by decide⟩
  exact ⟨h, parse_trivia h config⟩

end GameScript
