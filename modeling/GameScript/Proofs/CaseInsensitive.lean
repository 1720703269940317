import GameScript.Proofs.Beside
import GameScript.Proofs.Recased

namespace GameScript

theorem lowerWord_lowerWord (word : String) : lowerWord (lowerWord word) = lowerWord word := by
  have hc : Char.toLower ∘ Char.toLower = Char.toLower := funext Char.toLower_toLower_eq_toLower
  simp [lowerWord, hc]

def Guise.lowered : Guise where
  word := lowerWord
  exact := False
  lower := lowerWord_lowerWord
  words he := he.elim
  filler := by decide

theorem Guise.fresh_lowered : lowered.Fresh :=
  ⟨rfl, rfl, rfl, rfl, rfl⟩

theorem Token.Spelled.lowered {t : Token} {text : String} (h : t.Spelled text) :
    Guise.lowered.token (t.respell text) = Guise.lowered.token t := by
  unfold Spelled at h
  split at h
  · next hk =>
    have hword : lowerWord text = lowerWord t.text := ((sameWord_iff ..).1 h).symm
    simp [Recast.token, Guise.lowered, respell, hk, hword]
  · rw [h]
    rfl

theorem Token.lowered_respell {ts : List Token} {texts : List String} (h : List.Forall₂ Token.Spelled ts texts) :
    (ts.zipWith Token.respell texts).map Guise.lowered.token = ts.map Guise.lowered.token := by
  induction h with
  | nil => rfl
  | cons ht _ ih => rw [List.zipWith_cons_cons, List.map_cons, List.map_cons, ht.lowered, ih]

def Diagnostic.place (d : Diagnostic) : Severity × Location :=
  (d.severity, d.loc)

theorem Complaint.place_diagnostic (c : Complaint) : c.diagnostic.place = (c.severity, c.loc) := by
  obtain ⟨problem, loc, raised⟩ := c
  cases problem <;> rfl

structure ParseOutput.Places where
  graph : Option Graph
  warnings : List (Severity × Location)
  errors : List (Severity × Location)
  halted : Bool

def ParseOutput.places (o : ParseOutput) : Places :=
  ⟨o.graph, o.warnings.map Diagnostic.place, o.errors.map Diagnostic.place, o.halted⟩

def ParseOutput.uncased (o : ParseOutput) : Places :=
  { o.places with graph := o.graph.map Guise.lowered.graph }

theorem uncased_parse (ts : List Token) (loc : Location) (config : ParserConfig) :
    (parse (ts ++ [Token.endAt loc]) config).uncased =
      (parse ((ts ++ [Token.endAt loc]).map Guise.lowered.token) config).places := by
  have hl := Session.run_recast Guise.fresh_lowered ts loc config
  obtain ⟨hg, hw, he, hh⟩ := hl.finish Guise.fresh_lowered (Session.run_finished _ config) Complaint.place_diagnostic
    fun c c' h => by rw [h.loc, h.severity]; rfl
  rw [ParseOutput.uncased, ParseOutput.places, ParseOutput.places, parse, parse, hg, hw, he, hh]

/-- Another spelling of a source is lexed to the same tokens in the other spelling, and is parsed to the same graph
up to the case of words, with the same complaints at the same places. -/
theorem parse_respell {source : String} {d : Dialect} {tokens : List Token} {texts : List String}
    (h : lex source d = .ok tokens) (hw : List.Forall₂ Token.Spelled tokens texts) (config : ParserConfig) :
    lex (String.join texts) d = .ok (tokens.zipWith Token.respell texts) ∧
      (parse (tokens.zipWith Token.respell texts) config).uncased = (parse tokens config).uncased := by
  have hlex := lex_respell h hw
  refine ⟨hlex, ?_⟩
  obtain ⟨ts, loc, hts, -⟩ := lexed_of_lex h
  obtain ⟨ts', loc', hts', -⟩ := lexed_of_lex hlex
  have hlowered := Token.lowered_respell hw
  rw [hts'] at hlowered ⊢
  subst hts
  rw [uncased_parse, uncased_parse, hlowered]

theorem parse_respell_modulo :
    let literal : Token := ⟨.identifier, "true", .start⟩
    let percent : Token := ⟨.symbol, "%", ⟨1, 6, 5⟩⟩
    let name : Token := ⟨.identifier, "x", ⟨1, 7, 6⟩⟩
    let tokens := [literal, ⟨.whitespace, " ", ⟨1, 5, 4⟩⟩, percent, name, Token.endAt ⟨1, 8, 7⟩]
    let config : ParserConfig := { target := .expression }
    lex "true %x" {} = .ok tokens ∧ List.Forall₂ Token.Spelled tokens ["TRUE", " ", "%", "X", ""] ∧
      ∃ tokens', lex "TRUE %X" {} = .ok tokens' ∧ (parse tokens' config).uncased = (parse tokens config).uncased := by
  intro literal percent name tokens config
  have hl : lex "true %x" {} = .ok tokens := by decide +kernel
  have hw : List.Forall₂ Token.Spelled tokens ["TRUE", " ", "%", "X", ""] :=
    .cons (by decide +kernel) (.cons rfl (.cons rfl (.cons (by decide +kernel) (.cons rfl .nil))))
  obtain ⟨hlexed, hparsed⟩ := parse_respell hl hw config
  have hjoin : String.join ["TRUE", " ", "%", "X", ""] = "TRUE %X" := by decide
  rw [hjoin] at hlexed
  exact ⟨hl, hw, _, hlexed, hparsed⟩

end GameScript
