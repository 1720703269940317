import GameScript.Proofs.Trivia

/-!
Every location in the outcome of a parse is the location of a significant token: if all other locations are moved,
the same tokens are read, and the outcome stays.
-/

namespace GameScript

def Qualifier.locations : Qualifier → List Location
  | path segments => segments.map Ident.loc
  | unqualified | own => []

def FunctionRef.locations (f : FunctionRef) : List Location :=
  f.name.loc :: f.qualifier.locations

def Expr.locations : Expr → List Location
  | var n name | member n _ name => [n.loc, name.loc]
  | func n target | call n _ _ target _ => n.loc :: target.locations
  | e => [e.loc]

def CaseLabel.loc? : CaseLabel → Option Location
  | value _ => none
  | default loc => some loc

def Case.locations (c : Case) : List Location :=
  c.loc :: c.labels.filterMap CaseLabel.loc?

def Stmt.locations : Stmt → List Location
  | foreachLoop n key value _ _ => n.loc :: (key.toList ++ [value]).map Ident.loc
  | switch n _ bodyNode _ cases => n.loc :: bodyNode.loc :: cases.flatMap Case.locations
  | s => [s.loc]

def DirectiveKind.locations : DirectiveKind → List Location
  | importScript path => path.map Ident.loc
  | withArgs name _ | bare name => [name.loc]

namespace View

def locations : View → List Location
  | expr e => e.locations
  | stmt s => s.locations
  | function f => f.node.loc :: f.name.loc :: f.body.toList.map fun b => b.node.loc
  | param p => p.loc :: p.name.toList.map Ident.loc
  | directive d => d.node.loc :: d.kind.locations
  | constant c => [c.node.loc, c.name.loc]
  | script s => s.globals.map Ident.loc

end View

def Graph.locations (g : Graph) : List Location :=
  g.view.walk.flatMap View.locations

namespace Relabel

variable (r : Relabel)

theorem locations_target (f : FunctionRef) : (r.target f).locations = f.locations.map r.loc := by
  obtain ⟨name, qualifier⟩ := f
  cases qualifier <;> simp [target, Relabel.qualifier, path, ident, FunctionRef.locations, Qualifier.locations]

theorem locations_expr (e : Expr) : (r.expr e).locations = e.locations.map r.loc := by
  cases e with
  | func | call => simp [expr, node, Expr.locations, locations_target]
  | _ => rfl

theorem locations_case (c : Case) : (r.switchCase c).locations = c.locations.map r.loc := by
  have hlabel : CaseLabel.loc? ∘ r.label = fun l => l.loc?.map r.loc := by
    funext l
    cases l <;> rfl
  simp only [Case.locations, switchCase, List.filterMap_map, hlabel, List.map_cons, List.map_filterMap]

theorem locations_stmt (s : Stmt) : (r.stmt s).locations = s.locations.map r.loc := by
  cases s with
  | foreachLoop _ key => cases key <;> rfl
  | switch => simp [stmt, node, Stmt.locations, List.flatMap_map, List.map_flatMap, locations_case]
  | _ => rfl

theorem locations_view (v : View) : (r.view v).locations = v.locations.map r.loc := by
  cases v with
  | expr e => exact r.locations_expr e
  | stmt s => exact r.locations_stmt s
  | function f =>
    obtain ⟨_, _, _, body, _, _⟩ := f
    cases body <;> rfl
  | param p =>
    obtain ⟨_, name, _⟩ := p
    cases name <;> rfl
  | directive d =>
    obtain ⟨_, kind⟩ := d
    cases kind <;> simp [view, directive, node, directiveKind, View.locations, DirectiveKind.locations, path, ident]
  | constant => rfl
  | script s => simp [view, View.locations, script, ident]

theorem locations_graph (g : Graph) : (r.graph g).locations = g.locations.map r.loc := by
  rw [Graph.locations, view_graph, walk_view, List.flatMap_map, Graph.locations, List.map_flatMap]
  exact List.flatMap_congr fun v _ => r.locations_view v

end Relabel

def Token.Marks (tokens : List Token) (loc : Location) : Prop :=
  ∃ t ∈ tokens, t.isTrivia = false ∧ t.loc = loc

instance (tokens : List Token) (loc : Location) : Decidable (Token.Marks tokens loc) :=
  inferInstanceAs (Decidable (∃ t ∈ tokens, t.isTrivia = false ∧ t.loc = loc))

def Guise.elsewhere (tokens : List Token) : Guise :=
  .verbatim fun loc => if Token.Marks tokens loc then loc else { loc with line := loc.line + 1 }

namespace Guise

variable {tokens : List Token}

theorem fresh_elsewhere : (elsewhere tokens).Fresh :=
  ⟨rfl, rfl, rfl, rfl, rfl⟩

theorem elsewhere_loc {loc : Location} : (elsewhere tokens).loc loc = loc ↔ Token.Marks tokens loc := by
  obtain ⟨line, column, offset⟩ := loc
  simp [elsewhere, verbatim]

theorem elsewhere_token {t : Token} (ht : t ∈ tokens) (hs : t.isTrivia = false) : (elsewhere tokens).token t = t := by
  have hloc : (elsewhere tokens).loc t.loc = t.loc := elsewhere_loc.2 ⟨t, ht, hs, rfl⟩
  rw [Recast.token, hloc, show (elsewhere tokens).word t.text = t.text from rfl, ite_self]

theorem map_elsewhere {ps : List Piece} (h : ps.map Prod.snd = tokens.filter fun t => !t.isTrivia) :
    (ps.map fun p => (p.1, (elsewhere tokens).token p.2)) = ps := by
  refine (List.map_congr_left fun p hp => ?_).trans (List.map_id ps)
  have hmem := List.mem_filter.1 (h ▸ List.mem_map_of_mem (f := Prod.snd) hp)
  rw [elsewhere_token hmem.1 (by simpa using hmem.2)]
  rfl

end Guise

theorem Session.run_elsewhere {tokens : List Token} {e : Token} (he : e.isEof = true) (h : tokens.getLast? = some e)
    (config : ParserConfig) :
    Like (.elsewhere tokens) (ofTokens tokens config).run (ofTokens tokens config).run := by
  have hs := spread_significant false tokens
  have hp := Guise.Pairs.self (.elsewhere tokens) True e (significant false tokens)
  rw [Guise.map_elsewhere hs.tokens] at hp
  have hc : Spread false (TokenStream.closed tokens) (significant false tokens) := by rwa [closed_of_getLast? he h]
  exact run_like Guise.fresh_elsewhere config hc hc hp

theorem Guise.Alike.marks {tokens : List Token} {cs : List Complaint} (h : List.Forall₂ (elsewhere tokens).Alike cs cs)
    {d : Diagnostic} (hd : d ∈ cs.map Complaint.diagnostic) : Token.Marks tokens d.loc := by
  obtain ⟨c, hc, rfl⟩ := List.mem_map.1 hd
  exact elsewhere_loc.1 (List.forall₂_same.1 h c hc).loc.symm

/-- Every location in the graph, and that of every warning and error, is the location of a significant token. -/
theorem parse_locations {tokens : List Token} (config : ParserConfig) (h : ∃ e, tokens.getLast? = some e ∧ e.isEof = true) :
    (∀ g, (parse tokens config).graph = some g → ∀ loc ∈ g.locations, Token.Marks tokens loc) ∧
      ∀ d ∈ (parse tokens config).warnings ++ (parse tokens config).errors, Token.Marks tokens d.loc := by
  obtain ⟨e, hlast, he⟩ := h
  have hl := Session.run_elsewhere he hlast config
  constructor
  · intro g hg loc hloc
    have hout := hl.output
    rw [Session.finish_graph hg] at hout
    have hsame : (Guise.elsewhere tokens).labelling.graph g = g :=
      (Recast.graph_labelling (fun _ => rfl) g).symm.trans (Option.some.inj hout).symm
    have hmap := (Relabel.locations_graph _ g).symm.trans (congrArg Graph.locations hsame)
    exact Guise.elsewhere_loc.1 (List.map_inj_left.1 (hmap.trans (List.map_id _).symm) loc hloc)
  · intro d hd
    rw [parse, Session.finish_of_isFinished (Session.run_finished tokens config), List.mem_append] at hd
    obtain hd | hd := hd
    · exact Guise.Alike.marks (hl.warned Guise.fresh_elsewhere) hd
    · exact Guise.Alike.marks hl.failed hd

theorem parse_locations_switch :
    let switch : Stmt := .switch ⟨2, ⟨1, 11, 10⟩⟩ (.var ⟨3, ⟨1, 18, 17⟩⟩ ⟨"a", ⟨1, 18, 17⟩⟩) ⟨4, ⟨1, 20, 19⟩⟩ []
      [⟨⟨1, 21, 20⟩, 0, [.default ⟨1, 21, 20⟩], 0, 0⟩]
    let f : FunctionDef := ⟨⟨0, .start⟩, ⟨"f", .start⟩, [], some ⟨⟨1, ⟨1, 4, 3⟩⟩, [switch]⟩, false, 0⟩
    let g : Graph := .script { declarations := [.function f] }
    let tokens : List Token :=
      [⟨.identifier, "f", .start⟩, ⟨.symbol, "(", ⟨1, 2, 1⟩⟩, ⟨.symbol, ")", ⟨1, 3, 2⟩⟩, ⟨.symbol, "\x7b", ⟨1, 4, 3⟩⟩,
        ⟨.comment, "/* c*/", ⟨1, 5, 4⟩⟩, ⟨.identifier, "switch", ⟨1, 11, 10⟩⟩, ⟨.symbol, "(", ⟨1, 17, 16⟩⟩,
        ⟨.identifier, "a", ⟨1, 18, 17⟩⟩, ⟨.symbol, ")", ⟨1, 19, 18⟩⟩, ⟨.symbol, "\x7b", ⟨1, 20, 19⟩⟩,
        ⟨.identifier, "default", ⟨1, 21, 20⟩⟩, ⟨.symbol, ":", ⟨1, 28, 27⟩⟩, ⟨.symbol, ";", ⟨1, 29, 28⟩⟩,
        ⟨.symbol, "\x7d", ⟨1, 30, 29⟩⟩, ⟨.symbol, "\x7d", ⟨1, 31, 30⟩⟩, Token.endAt ⟨1, 32, 31⟩]
    (∃ e, tokens.getLast? = some e ∧ e.isEof = true) ∧ (parse tokens {}).graph = some g ∧
      (∀ loc ∈ g.locations, Token.Marks tokens loc) ∧
      (parse tokens {}).warnings = [Problem.straySemicolon.diagnose ⟨1, 29, 28⟩] ∧
      Token.Marks tokens ⟨1, 29, 28⟩ := by
  intro switch f g tokens
  have hend : ∃ e, tokens.getLast? = some e ∧ e.isEof = true := ⟨Token.endAt ⟨1, 32, 31⟩, rfl, rfl⟩
  have hg : (parse tokens {}).graph = some g := by
    subst tokens g f switch
    rfl
  have hw : (parse tokens {}).warnings = [Problem.straySemicolon.diagnose ⟨1, 29, 28⟩] := by decide +kernel
  obtain ⟨hgraph, hcomplaint⟩ := parse_locations {} hend
  refine ⟨hend, hg, hgraph g hg, hw, hcomplaint (Problem.straySemicolon.diagnose ⟨1, 29, 28⟩) ?_⟩
  rw [hw]
  exact List.mem_append_left _ List.mem_cons_self

end GameScript
