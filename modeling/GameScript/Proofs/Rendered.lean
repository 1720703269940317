import GameScript.Proofs.Completeness
import GameScript.Proofs.Composed
import GameScript.Proofs.Reread

namespace GameScript

namespace Session

theorem Reaches.of_dispatch {s b s' : Session} {apart : Bool} {u : Token} {ps : List Piece} (h : b.Reaches s')
    (hx : s'.expr ≠ b.expr) (hb : b.stream = s.stream ∧ b.isFinished = s.isFinished)
    (hshows : s.stream.Shows ((apart, u) :: ps)) (hd : ∀ (stream : TokenStream) (t : Token), t.Same u →
      { s with stream := stream }.dispatch t = { b with stream := stream }.dispatch t) : s.Reaches s' := by
  obtain ⟨n, rfl⟩ := h
  obtain ⟨apart', hshown⟩ := hshows
  induction n generalizing s b apart' with
  | zero => exact absurd rfl hx
  | succ n ih =>
    cases hf : s.isFinished with
    | true =>
      rw [steps_of_isFinished (hb.2.trans hf)] at hx
      exact absurd rfl hx
    | false =>
      have hfb : b.isFinished = false := hb.2.trans hf
      rw [steps, if_neg (by simp [hfb])] at hx ⊢
      generalize htoks : s.stream.tokens.toList.drop s.stream.cursor = ts at hshown
      cases hshown with
      | @trivia _ t ts _ ht hrest =>
        obtain ⟨hat, hlt, hnext⟩ := TokenStream.drop_eq_tokenAt htoks
        have hread : s.stream.read.1.isTrivia = true := by rwa [TokenStream.read, hat]
        have hskip : s.step = { s with stream := s.stream.read.2 } := by simp [Session.step, hf, hread]
        have hskip' : b.step = { b with stream := s.stream.read.2 } := by simp [Session.step, hfb, hb.1, hread]
        have hcursor : s.stream.read.2.cursor = s.stream.cursor + 1 := by
          simp only [TokenStream.read]
          omega
        have hreach : s.Reaches { s with stream := s.stream.read.2 } := hskip ▸ Reaches.step hf
        rw [hskip'] at hx ⊢
        refine hreach.trans (ih ⟨rfl, hb.2⟩ hd hx true ?_)
        rw [hcursor]
        exact hnext.symm ▸ hrest
      | @token _ t _ ts _ hs hu hrest =>
        obtain ⟨hat, -, -⟩ := TokenStream.drop_eq_tokenAt htoks
        have hread : s.stream.read.1 = t := hat
        have hsame : s.step = b.step := by
          simp only [Session.step, hf, hfb, hb.1, hread, hs.isTrivia.trans hu, Bool.false_eq_true, if_false]
          exact hd _ t hs
        rw [← hsame]
        exact (Reaches.step hf).trans ⟨n, rfl⟩

def Ending (t : Token) (ps : List Piece) : Prop :=
  t.isEof = true ∨ (∃ c ∈ [';', ')', ','], t.isSymbol c = true) ∨
    t.isSymbol ':' = true ∧ (joined ps).head? ≠ some ':'

theorem feedExpr_ending {s : Session} {z : ExprState} {c : ExprContext} {e : Expr} {t : Token} {ps : List Piece}
    (hx : s.expr = some z) (hz : Leaves c [] e z) (hc : s.stream.Closed)
    (hs : Shown false (s.stream.tokens.toList.drop s.stream.cursor) ps) (ht : Ending t ps) :
    ∃ stream id e', s.stream.Takes [] stream ∧ e'.Alike e ∧
      s.feedExpr t = { s with stream := stream, nextId := id, expr := none }.exprDone c (.value e') t := by
  have hopen : ∀ top ∈ z.stack.head?, top.refusesCallee = false := by
    obtain ⟨above, operand, rfl, hy, -⟩ := hz
    rw [List.append_nil]
    intro top htop
    have := hy.isOperator top (List.mem_of_mem_head? htop)
    cases top with
    | binary | unary | assign => rfl
    | _ => cases this
  obtain ⟨id, _, hf, e', rfl, ha⟩ := hz.folds (by simp) s.nextId
  have hcontext : z.context = c := hf.context.symm
  -- Either the operators are joined by the token itself, or when the expression is finished.
  suffices h : ∃ stream, s.stream.Takes [] stream ∧
      (s.exprToken z t = ({ s with stream := stream, expr := some z }, .terminated) ∨
        s.exprToken z t = ({ s with stream := stream, nextId := id, expr := some ⟨c, true, [], some e'⟩ }, .terminated)) by
    obtain ⟨stream, htakes, h | h⟩ := h
    · refine ⟨stream, id, e', htakes, ha, ?_⟩
      have hfold := foldWhile_of_folds (s := { s with stream := stream, expr := none }) hf t
      simp only [feedExpr, hx, h, Option.getD_some, finishExpr, clearExpr, hfold, hcontext]
    · refine ⟨stream, id, e', htakes, ha, ?_⟩
      simp only [feedExpr, hx, h, Option.getD_some, finishExpr, clearExpr, foldWhile, hcontext]
  obtain ht | ⟨d, hd, ht⟩ | ⟨ht, hj⟩ := ht
  · refine ⟨s.stream, .refl _, .inl ?_⟩
    have hk : t.kind = .eof := by simpa [Token.isEof] using ht
    simp only [exprToken, hk]
    rfl
  · refine ⟨s.stream, .refl _, ?_⟩
    rw [exprToken_of_open ht hopen]
    simp only [List.mem_cons, List.not_mem_nil, or_false] at hd
    obtain rfl | rfl | rfl := hd
    · exact .inl rfl
    · refine .inr ?_
      show started (s.closeParen z t) = _
      rw [closeParen, folded_of_folds hf]
      rfl
    · refine .inr ?_
      show started (s.comma z t) = _
      rw [comma, folded_of_folds hf]
      rfl
  · obtain ⟨stream, hl, htakes⟩ := s.lookahead_takes [':'] 1
    refine ⟨stream, htakes, .inl ?_⟩
    rw [exprToken_of_open ht hopen]
    show started (s.colon z t) = _
    simp only [colon, lookahead_bracket hc hs hj, hl]
    rfl

theorem Ending.same {t u : Token} {ps : List Piece} (h : Ending u ps) (hs : t.Same u) : Ending t ps := by
  simpa only [Ending, hs.isEof, Token.isSymbol, hs.symbol?] using h

theorem delivers_of_takes_nil {s s' : TokenStream} {t : Token} {ps : List Piece} (h : s.Delivers t ps)
    (hs : s.Takes [] s') : s'.Delivers t ps := by
  have hcursor : s'.cursor = s.cursor := hs.cursor
  refine ⟨hs.closed h.closed, ?_, ?_⟩
  · rw [hs.tokens, hcursor]
    exact h.behind
  · rw [hs.tokens, hcursor, hs.last]
    exact h.here

theorem Comes.completes {b s : Session} {c : ExprContext} {e : Expr} {apart : Bool} {u : Token} {ps : List Piece}
    (h : b.Comes s ((apart, u) :: ps) (Leaves c [] e)) (hb : b.Active) (hu : Ending u ps) :
    ∃ stream id e' t, t.Same u ∧ stream.Delivers t ps ∧ e'.Alike e ∧
      s.Reaches ({ b with stream := stream, nextId := id, expr := none }.exprDone c (.value e') t) := by
  obtain ⟨s', z, hreach, hin, hz⟩ := h
  have hactive : s'.isFinished = false ∧ s'.recovery = none ∧ s'.expr = some z := by
    rw [hin.same]
    exact ⟨hb.finished, hb.recovery, rfl⟩
  obtain ⟨t, stream, hsame, hdel, hdispatch⟩ := reaches_dispatch hactive.1 hin.closed hin.shows
  rw [dispatch_of_expr (s := { s' with stream := stream }) hactive.2.1 hactive.2.2] at hdispatch
  obtain ⟨stream', id, e', htakes, ha, hfeed⟩ :=
    feedExpr_ending (s := { s' with stream := stream }) hactive.2.2 hz hdel.closed hdel.behind (hu.same hsame)
  refine ⟨stream', id, e', t, hsame, delivers_of_takes_nil hdel htakes, ha, hreach.trans ?_⟩
  have hbase : ({ s' with stream := stream', nextId := id, expr := none } : Session) =
      { b with stream := stream', nextId := id, expr := none } := by rw [hin.same]
  rw [← hbase, ← hfeed]
  exact hdispatch

end Session

open Session

theorem Parses.begins {s : Session} {c : ExprContext} {e : Expr} {apart : Bool} {u : Token} {qs : List Piece}
    (ps : List Piece) (h : Parses s e) (hc : s.stream.Closed) (hu : e.pieces apart = (apart, u) :: qs)
    (hplace : e.isAssign = true → s.config.allowAssignmentExpressions = true ∨ c.takesAssignment = true)
    (hp : Calm ps) (hshows : s.stream.Shows (e.pieces apart ++ ps))
    (hd : ∀ (stream : TokenStream) (t : Token), t.Same u →
      { s with stream := stream }.dispatch t = { s with stream := stream, expr := some (fresh c) }.dispatch t) :
    s.Comes s ps (Leaves c [] e) := by
  have hin : s.Inside { s with expr := some (fresh c) } (fresh c) (e.pieces apart ++ ps) :=
    ⟨rfl, hc, hshows, ExprState.settled_fresh c⟩
  obtain ⟨s', z, hreach, hin', hz⟩ :=
    h rfl (by simp [fresh]) (fun ha => (hplace ha).imp_right fun ht => ⟨rfl, ht⟩) (.inr hp) hin
  refine ⟨s', z, hreach.of_dispatch ?_ ⟨rfl, rfl⟩ (by rwa [hu] at hshows) hd, hin', hz⟩
  obtain ⟨above, operand, rfl, -⟩ := hz
  rw [hin'.same]
  simp [fresh]

namespace Spells

variable {config : ParserConfig} {e : Expr} {ts : List Token}

theorem spaced_text (h : Spells config.dialect.mode e ts) (hl : ∀ t ∈ ts, t.Lexed config.dialect) :
    Spaced config.dialect false false e.text.toList (e.pieces false) := by
  have hread : ∀ t ∈ ts, t.Readable config.dialect false := fun t hm => (hl t hm).readable
  have : Spaced config.dialect false false (e.text.toList ++ []) (e.pieces false ++ []) :=
    h.prints hread (fun t hm => hread t (List.mem_of_mem_head? hm)) clear_nil fun _ => .nil
  simpa using this

theorem first (h : Spells config.dialect.mode e ts) (hl : ∀ t ∈ ts, t.Lexed config.dialect) (apart : Bool) :
    ∃ u qs, e.pieces apart = (apart, u) :: qs ∧ u.isEof = false := by
  obtain ⟨u, qs, hu, -⟩ := h.heads apart
  refine ⟨u, qs, hu, ?_⟩
  have hm := h.matches (fun t hm => (hl t hm).oneChar) apart
  refine hm.not_eof (fun t hm => (hl t hm).isEof) u ?_
  rw [hu]
  simp

end Spells

theorem Expr.Composed.parse_text {config : ParserConfig} {e : Expr} (h : e.Composed config .topLevel)
    (ht : config.target = .expression) (ha : (View.expr e).Exprs Expr.SetsApart) :
    ∃ toks e', lex e.text config.dialect = .ok toks ∧ (parse toks config).isSuccess = true ∧
      (parse toks config).graph = some (.expression e') ∧ e'.Alike e := by
  obtain ⟨ts, hspells, hlexed⟩ := h.spells
  obtain ⟨toks, apart, hok, hshown⟩ := (hspells.spaced_text hlexed).shows
  have hmode : (ofTokens toks config).mode = .expression := by simp [ofTokens, ht]
  have hb : (ofTokens toks config).Active := ⟨by rw [isFinished, hmode]; rfl, rfl⟩
  obtain ⟨u, qs, hu, hend⟩ := hspells.first hlexed false
  have hcomes := Parses.begins (c := .topLevel) [(apart, Token.endAt .zero)]
    (hspells.parses hb ⟨h.binds, h.formed, ha⟩) (closed_ofList toks) hu h.place
    (by cases apart <;> simp [Calm, joined, Token.symbol?, Token.endAt]) ⟨false, hshown⟩
    fun stream t hsame => by
      simp only [dispatch, hmode, expressionStart, hsame.isEof.trans hend]
      rfl
  obtain ⟨stream, id, e', t, hsame, -, halike, hreach⟩ := hcomes.completes hb (.inl rfl)
  have heof : t.isEof = true := hsame.isEof
  have hsemi : t.isSymbol ';' = false := by
    rw [Token.isSymbol, hsame.symbol?]
    rfl
  simp only [exprDone, topLevelDone, hsemi, heof, Bool.false_eq_true, if_true, if_false] at hreach
  have hrun := hreach.run_eq (by simp [isFinished])
  refine ⟨toks, e', hok, ?_⟩
  simp only [parse, finish, hrun]
  simp [isFinished, ofTokens, ParseOutput.isSuccess, errors]
  exact halike

/-- A lone expression is read again from its text, up to numbers and locations, if no array in it has a first
item that begins with a bracket and is not itself an array. -/
theorem parse_rendered {source : String} {config : ParserConfig} {tokens : List Token}
    (ht : config.target = .expression) (hl : lex source config.dialect = .ok tokens)
    (hs : (parse tokens config).isSuccess = true) :
    ∃ root, (parse tokens config).graph = some (.expression root) ∧
      ((View.expr root).Exprs Expr.SetsApart → ∃ toks root', lex root.text config.dialect = .ok toks ∧
        (parse toks config).isSuccess = true ∧ (parse toks config).graph = some (.expression root') ∧
        Relabel.blank.expr root' = Relabel.blank.expr root) := by
  obtain ⟨ts, loc, rfl, hlexed⟩ := lexed_of_lex hl
  have hstream : (TokenStream.ofList (ts ++ [Token.endAt loc])).Lexed config.dialect := by
    intro t hm he
    simp only [TokenStream.ofList, (endsOnce_ofList loc fun t ht => (hlexed t ht).isEof).1] at hm
    obtain hm | hm := List.mem_append.1 hm
    · exact hlexed t hm
    · obtain rfl := List.mem_singleton.1 hm
      cases he
  obtain ⟨root, hg, hroot⟩ := parse_composed ht hstream hs
  exact ⟨root, hg, hroot.parse_text ht⟩

theorem parse_rendered_index :
    let tokens : List Token := [⟨.identifier, "a", .start⟩, ⟨.symbol, "[", ⟨1, 2, 1⟩⟩, ⟨.whitespace, " ", ⟨1, 3, 2⟩⟩,
      ⟨.symbol, "[", ⟨1, 4, 3⟩⟩, ⟨.symbol, "[", ⟨1, 5, 4⟩⟩, ⟨.identifier, "f", ⟨1, 6, 5⟩⟩, ⟨.symbol, "]", ⟨1, 7, 6⟩⟩,
      ⟨.symbol, "]", ⟨1, 8, 7⟩⟩, ⟨.symbol, "(", ⟨1, 9, 8⟩⟩, ⟨.symbol, ")", ⟨1, 10, 9⟩⟩, ⟨.symbol, "]", ⟨1, 11, 10⟩⟩,
      Token.endAt ⟨1, 12, 11⟩]
    let config : ParserConfig := { target := .expression }
    let root : Expr := .index ⟨3, .start⟩ (.var ⟨0, .start⟩ ⟨"a", .start⟩)
      (.pointerCall ⟨2, ⟨1, 4, 3⟩⟩ none none (.var ⟨1, ⟨1, 6, 5⟩⟩ ⟨"f", ⟨1, 6, 5⟩⟩) [])
    lex "a[ [[f]]()]" config.dialect = .ok tokens ∧ (parse tokens config).graph = some (.expression root) ∧
      ∃ toks root', lex root.text config.dialect = .ok toks ∧
        (parse toks config).isSuccess = true ∧ (parse toks config).graph = some (.expression root') ∧
        Relabel.blank.expr root' = Relabel.blank.expr root := by
  intro tokens config root
  have hl : lex "a[ [[f]]()]" config.dialect = .ok tokens := by decide +kernel
  have hs : (parse tokens config).isSuccess = true := by decide +kernel
  have hg : (parse tokens config).graph = some (.expression root) := by
    subst tokens config root
    rfl
  obtain ⟨root₁, hg₁, hread⟩ := parse_rendered rfl hl hs
  obtain rfl : root₁ = root := by simpa [hg₁] using hg
  refine ⟨hl, hg, hread ?_⟩
  have hleaf {e : Expr} (he : e.children = []) (ha : e.SetsApart) : (View.expr e).Exprs Expr.SetsApart :=
    View.exprs_node.2 ⟨ha, by simp [he]⟩
  refine View.exprs_node.2 ⟨trivial, List.forall_mem_cons.2 ⟨hleaf rfl trivial, List.forall_mem_singleton.2 ?_⟩⟩
  exact View.exprs_node.2 ⟨trivial, List.forall_mem_singleton.2 (hleaf rfl trivial)⟩

theorem array_runs_into_pointer :
    let tokens : List Token := [⟨.symbol, "[", .start⟩, ⟨.whitespace, " ", ⟨1, 2, 1⟩⟩,
      ⟨.symbol, "[", ⟨1, 3, 2⟩⟩, ⟨.symbol, "[", ⟨1, 4, 3⟩⟩, ⟨.identifier, "f", ⟨1, 5, 4⟩⟩, ⟨.symbol, "]", ⟨1, 6, 5⟩⟩,
      ⟨.symbol, "]", ⟨1, 7, 6⟩⟩, ⟨.symbol, "(", ⟨1, 8, 7⟩⟩, ⟨.symbol, ")", ⟨1, 9, 8⟩⟩, ⟨.whitespace, " ", ⟨1, 10, 9⟩⟩,
      ⟨.symbol, "]", ⟨1, 11, 10⟩⟩, Token.endAt ⟨1, 12, 11⟩]
    let toks : List Token := [⟨.symbol, "[", .start⟩, ⟨.symbol, "[", ⟨1, 2, 1⟩⟩, ⟨.symbol, "[", ⟨1, 3, 2⟩⟩,
      ⟨.identifier, "f", ⟨1, 4, 3⟩⟩, ⟨.symbol, "]", ⟨1, 5, 4⟩⟩, ⟨.symbol, "]", ⟨1, 6, 5⟩⟩, ⟨.symbol, "(", ⟨1, 7, 6⟩⟩,
      ⟨.symbol, ")", ⟨1, 8, 7⟩⟩, ⟨.symbol, "]", ⟨1, 9, 8⟩⟩, Token.endAt ⟨1, 10, 9⟩]
    let config : ParserConfig := { target := .expression }
    let root : Expr := .array ⟨2, .start⟩
      [.pointerCall ⟨1, ⟨1, 3, 2⟩⟩ none none (.var ⟨0, ⟨1, 5, 4⟩⟩ ⟨"f", ⟨1, 5, 4⟩⟩) []]
    lex "[ [[f]]() ]" config.dialect = .ok tokens ∧ (parse tokens config).isSuccess = true ∧
      (parse tokens config).graph = some (.expression root) ∧ lex root.text config.dialect = .ok toks ∧
      (parse toks config).isSuccess = false :=
  ⟨by decide +kernel, by decide +kernel, rfl, by decide +kernel, by decide +kernel⟩

end GameScript
