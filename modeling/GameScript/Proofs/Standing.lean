import GameScript.Proofs.Advance
import GameScript.Proofs.Laid
import GameScript.Proofs.Rendered
import GameScript.Proofs.Unlabelled

namespace GameScript

open Session

structure Token.StartsExpr (mode : GameMode) (t : Token) : Prop where
  eof : t.isEof = false
  symbol : ∀ c ∈ ['\x7b', '\x7d', ';'], t.isSymbol c = false
  keyword : ∀ k ∈ t.keyword? mode, k.category = .literal ∨ k.category = .callModifier

section Heads

variable {mode : GameMode} {ts : List Token} {apart : Bool}

def Opens (mode : GameMode) (apart : Bool) (qs : List Piece) : Prop :=
  ∃ t rest, qs = (apart, t) :: rest ∧ t.StartsExpr mode

theorem Opens.append {qs rs : List Piece} (h : Opens mode apart qs) : Opens mode apart (qs ++ rs) := by
  obtain ⟨t, rest, rfl, ht⟩ := h
  exact ⟨t, rest ++ rs, rfl, ht⟩

theorem opens_symbol {c : Char} {qs : List Piece} (hc : c ≠ '\x7b' ∧ c ≠ '\x7d' ∧ c ≠ ';') :
    Opens mode apart (symbolPiece apart c :: qs) := by
  refine ⟨_, qs, rfl, rfl, ?_, by simp [Token.keyword?]⟩
  intro d hd
  refine Bool.eq_false_iff.2 fun h => ?_
  obtain rfl : c = d := (isSymbol_piece apart).1 h
  simp [hc] at hd

theorem opens_operator {op : Operator} {qs : List Piece} :
    Opens mode apart (symbolPieces apart op.spelling.toList ++ qs) := by
  obtain ⟨c, cs, hop⟩ := List.exists_cons_of_ne_nil op.spelling_chars.2.2
  have hc := spelling_chars op c (by simp [hop])
  rw [hop, symbolPieces, List.cons_append]
  refine opens_symbol ⟨?_, ?_, ?_⟩ <;> rintro rfl <;> simp [Operator.spellingChars] at hc

theorem opens_word {w : String} {loc : Location} {kind : TokenKind} {qs : List Piece}
    (hk : kind ≠ .symbol ∧ kind ≠ .eof)
    (hw : ∀ k ∈ (⟨kind, w, loc⟩ : Token).keyword? mode, k.category = .literal ∨ k.category = .callModifier) :
    Opens mode apart ((apart, ⟨kind, w, loc⟩) :: qs) :=
  ⟨_, qs, rfl, by simpa [Token.isEof] using hk.2, fun c _ => by simp [Token.isSymbol, Token.symbol?, hk.1], hw⟩

theorem opens_plain {t : Token} {qs : List Piece} (ht : t.IsPlain mode) : Opens mode apart (wordPiece apart t.text :: qs) := by
  have hplain := (isPlain_of_text (u := ⟨.identifier, t.text, .zero⟩) ht rfl rfl).keyword
  exact opens_word (by simp) (by simp [hplain])

theorem SpellsPath.opens {path : ModulePath} (h : SpellsPath mode path ts) : Opens mode apart (pathPieces apart path) := by
  induction h with
  | one ht => exact opens_plain ht
  | more h _ _ ih =>
    rw [pathPieces_snoc _ _ h.ne_nil]
    exact ih.append

theorem SpellsTarget.opens {target : FunctionRef} (h : SpellsTarget mode target ts) : Opens mode apart (target.pieces apart) := by
  cases h with
  | plain ht => exact opens_plain ht
  | qualified hq =>
    cases hq with
    | own => exact opens_symbol (by decide)
    | path hp =>
      simp only [FunctionRef.pieces, List.append_assoc]
      exact hp.opens.append

theorem opens_front {receiver : Option Expr} {modifier : Option CallModifier} {ms : List Token} {qs : List Piece}
    (hr : ∀ e ∈ receiver, ∀ apart, Opens mode apart (e.pieces apart)) (hm : SpellsModifier mode modifier ms)
    (h : Opens mode (apart || receiver.isSome || modifier.isSome) qs) :
    Opens mode apart (receiverPieces apart receiver ++ (modifierPieces (apart || receiver.isSome) modifier ++ qs)) := by
  cases receiver with
  | some e => exact (hr e rfl apart).append
  | none =>
    cases modifier with
    | some m =>
      obtain ⟨t, -, ht⟩ := hm
      have hkeyword := modifier_keyword (u := ⟨.identifier, m.keyword.spelling, .zero⟩) ht rfl rfl
      have hword : Opens mode apart (wordPiece apart m.keyword.spelling :: qs) := by
        refine opens_word (by simp) fun k hk => .inr ?_
        obtain rfl : m.keyword = k := by simpa [hkeyword] using hk
        cases m <;> rfl
      simpa [receiverPieces, modifierPieces] using hword
    | none => simpa [receiverPieces, modifierPieces] using h

theorem category_of_literalKind {t : Token} {kind : LiteralKind} {k : Keyword} (h : t.literalKind? mode = some kind)
    (hk : t.keyword? mode = some k) : k.category = .literal := by
  unfold Token.literalKind? at h
  rw [Token.kind_of_keyword hk, hk] at h
  cases k with
  | trueKw | falseKw | undefinedKw => rfl
  | _ => cases h

theorem Spells.opens {e : Expr} (h : Spells mode e ts) (apart : Bool) : Opens mode apart (e.pieces apart) := by
  induction h generalizing apart with
  | var ht => exact opens_plain ht
  | func _ hq ht => exact (SpellsTarget.qualified hq ht).opens
  | @literal _ kind _ t ht =>
    have hkind : kind.tokenKind ≠ .symbol ∧ kind.tokenKind ≠ .eof := by cases kind <;> decide
    have hsame : (⟨kind.tokenKind, t.text, .zero⟩ : Token).keyword? mode = t.keyword? mode := by
      simp only [Token.keyword?, Token.kind_of_literalKind ht]
    refine opens_word hkind fun k hk => .inl ?_
    rw [hsame] at hk
    exact category_of_literalKind ht hk
  | index _ _ _ _ _ iht | member _ _ _ _ iht | suffix _ _ _ _ iht =>
    simp only [Expr.pieces, List.append_assoc]
    exact (iht apart).append
  | binary _ _ _ _ _ ihl | assign _ _ _ _ _ ihl =>
    simp only [Expr.pieces, List.append_assoc]
    exact (ihl apart).append
  | unary => exact opens_operator
  | group | truple | array => exact opens_symbol (by decide)
  | call _ _ _ hm ht _ _ _ _ ihr =>
    simp only [Expr.pieces, List.append_assoc]
    exact opens_front ihr hm ht.opens.append
  | pointerCall _ _ _ hm _ _ _ _ _ _ _ ihr =>
    simp only [Expr.pieces, List.append_assoc]
    exact opens_front ihr hm (opens_symbol (by decide))

end Heads

theorem symbol_of_same {t : Token} {c : Char} (h : t.Same (symbolPiece true c).2) :
    t.isSymbol c = true := by
  rw [Token.isSymbol_iff, h.symbol?, symbol?_piece]

theorem keyword_of_same {t : Token} {k : Keyword} {mode : GameMode} (hk : k.reservedIn mode = true)
    (h : t.Same (keywordPiece true k).2) : t.keyword? mode = some k := by
  have hkind : t.kind = .identifier := h.1
  have htext : t.text = k.spelling := h.2
  rw [Token.keyword?, if_pos hkind, htext]
  exact Keyword.ofWord?_spelling k mode hk

theorem Keyword.reservedIn_of_both {k : Keyword} (mode : GameMode) (h : k.availability = .both) :
    k.reservedIn mode = true := by
  rw [reservedIn, h]
  cases mode <;> rfl

structure Expr.Told (config : ParserConfig) (context : ExprContext) (e : Expr) : Prop where
  composed : e.Composed config context
  apart : (View.expr e).Exprs Expr.SetsApart

namespace Session

variable {b s : Session} {stmts rest : List PendingStmt} {top : PendingStmt} {ps : List Piece} {t u : Token}
  {P Q : List PendingStmt → Prop}

structure AtRest (b : Session) : Prop where
  active : b.Active
  expr : b.expr = none
  mode : ∃ header, b.mode = .body header

structure Standing (b s : Session) (stmts : List PendingStmt) (ps : List Piece) : Prop where
  same : s = { b with stream := s.stream, nextId := s.nextId, warned := s.warned, stmts := stmts }
  closed : s.stream.Closed
  shows : s.stream.Shows ps

structure Meets (b s : Session) (stmts : List PendingStmt) (t : Token) (ps : List Piece) : Prop where
  same : s = { b with stream := s.stream, nextId := s.nextId, warned := s.warned, stmts := stmts }
  delivers : s.stream.Delivers t ps

def Gets (b s : Session) (ps : List Piece) (P : List PendingStmt → Prop) : Prop :=
  ∃ s' stmts, s.Reaches s' ∧ b.Standing s' stmts ps ∧ P stmts

theorem Standing.gets (h : b.Standing s stmts ps) (hp : P stmts) : b.Gets s ps P :=
  ⟨s, stmts, .refl s, h, hp⟩

theorem Gets.trans {qs : List Piece} (h : b.Gets s ps P)
    (hs : ∀ s' stmts, P stmts → b.Standing s' stmts ps → b.Gets s' qs Q) : b.Gets s qs Q := by
  obtain ⟨s', stmts, hr, hst, hp⟩ := h
  obtain ⟨s'', stmts', hr', hst', hq⟩ := hs s' stmts hp hst
  exact ⟨s'', stmts', hr.trans hr', hst', hq⟩

theorem Gets.of_reaches {s' : Session} (hr : s.Reaches s') (h : b.Gets s' ps P) : b.Gets s ps P := by
  obtain ⟨s'', stmts, hr', hst, hp⟩ := h
  exact ⟨s'', stmts, hr.trans hr', hst, hp⟩

namespace Meets

theorem stmts_eq (h : b.Meets s stmts t ps) : s.stmts = stmts := by rw [h.same]

theorem config_eq (h : b.Meets s stmts t ps) : s.config = b.config := by rw [h.same]

theorem gameMode_eq (h : b.Meets s stmts t ps) : s.gameMode = b.gameMode := by rw [gameMode, h.config_eq]; rfl

theorem constants_eq (h : b.Meets s stmts t ps) : s.constants = b.constants := by rw [h.same]

theorem expr_eq (h : b.Meets s stmts t ps) : s.expr = b.expr := by rw [h.same]

theorem standing {stmts' : List PendingStmt} {id : Nat} {warned : Array Complaint} (h : b.Meets s stmts t ps) :
    b.Standing { s with nextId := id, warned := warned, stmts := stmts' } stmts' ps :=
  ⟨by rw [h.same], h.delivers.closed, h.delivers.shows⟩

end Meets

theorem Standing.meets {apart : Bool} (hb : b.AtRest) (h : b.Standing s stmts ((apart, u) :: ps)) :
    ∃ t s', t.Same u ∧ b.Meets s' stmts t ps ∧ s.Reaches (s'.bodyToken t) := by
  have hrest : s.isFinished = false ∧ s.recovery = none ∧ s.expr = none ∧ s.mode = b.mode := by
    rw [h.same]
    exact ⟨hb.active.finished, hb.active.recovery, hb.expr, rfl⟩
  obtain ⟨hf, hrec, hx, hm⟩ := hrest
  obtain ⟨header, hheader⟩ := hb.mode
  obtain ⟨t, stream, hsame, hdel, hreach⟩ := reaches_dispatch hf h.closed h.shows
  refine ⟨t, { s with stream := stream }, hsame, ⟨by rw [h.same], hdel⟩, ?_⟩
  have hdispatch : { s with stream := stream }.dispatch t = { s with stream := stream }.bodyToken t := by
    simp [dispatch, hrec, hx, hm.trans hheader]
  rwa [hdispatch] at hreach

theorem Standing.step {apart : Bool} (hb : b.AtRest) (h : b.Standing s stmts ((apart, u) :: ps))
    (hd : ∀ s' t, t.Same u → b.Meets s' stmts t ps → ∃ id warned stmts',
      s'.bodyToken t = { s' with nextId := id, warned := warned, stmts := stmts' } ∧ P stmts') : b.Gets s ps P := by
  obtain ⟨t, s', hsame, hmeets, hreach⟩ := h.meets hb
  obtain ⟨id, warned, stmts', hd, hp⟩ := hd s' t hsame hmeets
  rw [hd] at hreach
  exact .of_reaches hreach (hmeets.standing.gets hp)

theorem bodyToken_open (hs : s.stmts = top :: rest) (ho : top.isOpen = true) (t : Token) :
    s.bodyToken t = s.startStmt t := by
  cases top with
  | block b => simp [bodyToken, headerToken?, hs]
  | ifStmt _ phase =>
    cases phase with
    | thenBranch | elseBranch => simp [bodyToken, headerToken?, hs]
    | _ => cases ho
  | whileLoop _ phase | forLoop _ phase | foreachLoop _ phase =>
    cases phase with
    | body => simp [bodyToken, headerToken?, hs]
    | _ => cases ho
  | _ => cases ho

theorem startStmt_keyword {k : Keyword} (hk : t.keyword? s.gameMode = some k) :
    s.startStmt t = (s.startKeyword? k t.loc).getD (s.startExprStmt t) := by
  have hkind := Token.kind_of_keyword hk
  have hsymbol (c : Char) : t.isSymbol c = false := by simp [Token.isSymbol, Token.symbol?, hkind]
  have heof : t.isEof = false := by simp [Token.isEof, hkind]
  simp only [startStmt, hsymbol, heof, hk, Bool.false_eq_true, if_false]
  cases s.startKeyword? k t.loc <;> rfl

theorem startKeyword?_begun {k : Keyword} {loc : Location} {new : PendingStmt}
    (h : PendingStmt.begun? ⟨s.nextId, loc⟩ k = some new) :
    s.startKeyword? k loc = some { s with nextId := s.nextId + 1, stmts := new :: s.stmts } := by
  cases k <;> cases h <;> rfl

theorem bodyToken_opened {top' : PendingStmt} {context : Option ExprContext} (hs : s.stmts = top :: rest)
    (hx : s.expr = none) (ho : top.opened? = some (top', context)) (ht : t.isSymbol '(' = true) :
    s.bodyToken t = { s with stmts := top' :: rest, expr := context.map fresh } := by
  cases top with
  | ifStmt _ phase | whileLoop _ phase | forLoop _ phase | foreachLoop _ phase | switch _ phase =>
    cases phase with
    | start =>
      obtain ⟨rfl, rfl⟩ := Prod.mk.inj (Option.some.inj ho)
      simp [bodyToken, headerToken?, hs, expect, ht, openHeader, replaceStmt, beginExpr, fresh, hx]
    | _ => cases ho
  | _ => cases ho

theorem ending_symbol {d : Char} (hd : d ∈ [';', ')', ',']) : Ending (symbolPiece false d).2 ps :=
  .inr (.inl ⟨d, hd, (isSymbol_piece false).2 rfl⟩)

theorem ending_colon (h : joined ps = []) : Ending (symbolPiece false ':').2 ps :=
  .inr (.inr ⟨(isSymbol_piece false).2 rfl, by simp [h]⟩)

theorem Inside.value {x : ExprState} {c : ExprContext} {e : Expr} {apart : Bool} {d : Char} (hb : b.Active)
    (he : e.Told b.config c) (hx : x = fresh c) (h : b.Inside s x (e.pieces apart ++ symbolPiece false d :: ps))
    (hd : d ∉ Operator.spellingChars) (hu : Ending (symbolPiece false d).2 ps) :
    ∃ stream id e' t, t.Same (symbolPiece false d).2 ∧ stream.Delivers t ps ∧ e'.Alike e ∧
      s.Reaches ({ b with stream := stream, nextId := id, expr := none }.exprDone c (.value e') t) := by
  subst hx
  obtain ⟨ts, hspells, -⟩ := he.composed.spells
  have hparses : Parses b e := hspells.parses hb ⟨he.composed.binds, he.composed.formed, he.apart⟩
  have hcomes := hparses rfl (by simp [fresh]) (fun ha => (he.composed.place ha).imp_right fun ht => ⟨rfl, ht⟩)
    (.inr (calm_symbol hd false)) h
  exact hcomes.completes hb hu

theorem feedExpr_empty {c : ExprContext} (hx : s.expr = some (fresh c))
    (h : s.exprToken (fresh c) t = ({ s with expr := some (fresh c) }, .terminated)) :
    s.feedExpr t = { s with expr := none }.exprDone c .empty t := by
  simp only [feedExpr, hx, h, Option.getD_some, finishExpr, clearExpr]
  rfl

theorem Inside.clause {c : ExprContext} {clause : Option Expr} {apart : Bool} {d : Char} (hb : b.Active)
    (he : ∀ e ∈ clause, e.Told b.config c) (h : b.Inside s (fresh c) (clausePieces apart clause ++ symbolPiece false d :: ps))
    (hd : d = ';' ∨ d = ')') :
    ∃ stream id completed t, t.Same (symbolPiece false d).2 ∧ stream.Delivers t ps ∧ completed.isFailed = false ∧
      completed.value?.map Relabel.blank.expr = clause.map Relabel.blank.expr ∧
      s.Reaches ({ b with stream := stream, nextId := id, expr := none }.exprDone c completed t) := by
  cases clause with
  | some e =>
    have hplain : d ∉ Operator.spellingChars := by obtain rfl | rfl := hd <;> decide
    have hend : Ending (symbolPiece false d).2 ps := ending_symbol (by obtain rfl | rfl := hd <;> simp)
    obtain ⟨stream, id, e', t, ht, hdel, ha, hr⟩ := h.value hb (he e rfl) rfl hplain hend
    exact ⟨stream, id, .value e', t, ht, hdel, rfl, congrArg some ha, hr⟩
  | none =>
    have hstate : s.isFinished = false ∧ s.recovery = none ∧ s.expr = some (fresh c) := by
      rw [h.same]
      exact ⟨hb.finished, hb.recovery, rfl⟩
    obtain ⟨hf, hrec, hx⟩ := hstate
    obtain ⟨t, stream, ht, hdel, hreach⟩ := reaches_dispatch hf h.closed h.shows
    refine ⟨stream, s.nextId, .empty, t, ht, hdel, rfl, rfl, ?_⟩
    have hdone : { s with stream := stream }.dispatch t =
        { b with stream := stream, nextId := s.nextId, expr := none }.exprDone c .empty t := by
      have hsymbol : t.isSymbol d = true := symbol_of_same ht
      have hcleared : ({ s with stream := stream, expr := none } : Session) =
          { b with stream := stream, nextId := s.nextId, expr := none } := by rw [h.same]
      rw [dispatch_of_expr (s := { s with stream := stream }) hrec hx, ← hcleared]
      refine feedExpr_empty (s := { s with stream := stream }) hx ?_
      rw [exprToken_of_open hsymbol (by simp [fresh])]
      obtain rfl | rfl := hd <;> rfl
    rwa [hdone] at hreach

section Expressions

variable {apart : Bool} {c : ExprContext} {d : Char} (id : Nat) (stmts' : List PendingStmt)

theorem Meets.inside (hb : b.AtRest) (h : b.Meets s stmts t ps) :
    { s with nextId := id, stmts := stmts' }.Active ∧
      { s with nextId := id, stmts := stmts' }.Inside
        { s with nextId := id, stmts := stmts', expr := some (fresh c) } (fresh c) ps := by
  refine ⟨?_, rfl, h.delivers.closed, h.delivers.shows, ExprState.settled_fresh c⟩
  rw [h.same]
  exact ⟨hb.active.finished, hb.active.recovery⟩

theorem Meets.value {e : Expr} (hb : b.AtRest) (h : b.Meets s stmts t (e.pieces apart ++ symbolPiece false d :: ps))
    (he : e.Told b.config c) (hd : d ∉ Operator.spellingChars) (hu : Ending (symbolPiece false d).2 ps) :
    ∃ s' e' u, u.isSymbol d = true ∧ b.Meets s' stmts' u ps ∧ e'.Alike e ∧
      { s with nextId := id, stmts := stmts', expr := some (fresh c) }.Reaches (s'.exprDone c (.value e') u) := by
  obtain ⟨hactive, hinside⟩ := h.inside id stmts' hb
  have he' : e.Told s.config c := h.config_eq ▸ he
  obtain ⟨stream, id', e', u, hsame, hdel, ha, hreach⟩ := hinside.value hactive he' rfl hd hu
  refine ⟨_, e', u, symbol_of_same hsame, ⟨?_, hdel⟩, ha, hreach⟩
  rw [h.same]
  simp only [hb.expr]

theorem Meets.clause {clause : Option Expr} (hb : b.AtRest)
    (h : b.Meets s stmts t (clausePieces apart clause ++ symbolPiece false d :: ps))
    (he : ∀ e ∈ clause, e.Told b.config c) (hd : d = ';' ∨ d = ')') :
    ∃ s' completed u, u.isSymbol d = true ∧ b.Meets s' stmts' u ps ∧ completed.isFailed = false ∧
      completed.value?.map Relabel.blank.expr = clause.map Relabel.blank.expr ∧
      { s with nextId := id, stmts := stmts', expr := some (fresh c) }.Reaches (s'.exprDone c completed u) := by
  obtain ⟨hactive, hinside⟩ := h.inside id stmts' hb
  have he' : ∀ e ∈ clause, e.Told s.config c := h.config_eq ▸ he
  obtain ⟨stream, id', completed, u, hsame, hdel, hf, ha, hreach⟩ := hinside.clause hactive he' hd
  refine ⟨_, completed, u, symbol_of_same hsame, ⟨?_, hdel⟩, hf, ha, hreach⟩
  rw [h.same]
  simp only [hb.expr]

theorem Standing.stepValue {a : Bool} {e : Expr} (hb : b.AtRest)
    (h : b.Standing s stmts ((a, u) :: (e.pieces apart ++ symbolPiece false d :: ps)))
    (he : e.Told b.config c) (hd : d ∉ Operator.spellingChars) (hu : Ending (symbolPiece false d).2 ps)
    (hopen : ∀ (s' : Session) (t : Token), t.Same u → s'.gameMode = b.gameMode → s'.stmts = stmts → s'.expr = none →
      ∃ id stmts', s'.bodyToken t = { s' with nextId := id, stmts := stmts', expr := some (fresh c) } ∧ P stmts')
    (hdone : ∀ (s' : Session) (e' : Expr) (t : Token), P s'.stmts → t.isSymbol d = true → e'.Alike e → s'.config = b.config →
      s'.constants = b.constants → ∃ id warned stmts',
        s'.exprDone c (.value e') t = { s' with nextId := id, warned := warned, stmts := stmts' } ∧ Q stmts') :
    b.Gets s ps Q := by
  obtain ⟨t, s', hsame, hmeets, hreach⟩ := h.meets hb
  obtain ⟨id, stmts', hd', hp⟩ := hopen s' t hsame hmeets.gameMode_eq hmeets.stmts_eq (hmeets.expr_eq.trans hb.expr)
  rw [hd'] at hreach
  obtain ⟨s'', e', t', ht', hmeets', ha, hreach'⟩ := hmeets.value id stmts' hb he hd hu
  obtain ⟨id', warned, stmts'', hd'', hq⟩ := hdone s'' e' t' (hmeets'.stmts_eq ▸ hp) ht' ha hmeets'.config_eq
    hmeets'.constants_eq
  rw [hd''] at hreach'
  exact .of_reaches (hreach.trans hreach') (hmeets'.standing.gets hq)

end Expressions

end Session

end GameScript
