import GameScript.Layout.Pack
import GameScript.Proofs.Clean
import GameScript.Proofs.Spelling
import Mathlib.Tactic.ByContra

namespace GameScript

namespace Token

theorem significant_of_symbol {t : Token} {c : Char} (h : t.symbol? = some c) : Pack.isSignificant t = true := by
  unfold symbol? at h
  split at h
  · next hk => simp [Pack.isSignificant, isTrivia, isEof, hk]
  · cases h

theorem significant_of_isSymbol {t : Token} {c : Char} (h : t.isSymbol c = true) : Pack.isSignificant t = true :=
  significant_of_symbol (isSymbol_iff.1 h)

theorem significant_of_isPlain {t : Token} {mode : GameMode} (h : t.IsPlain mode) :
    Pack.isSignificant t = true := by
  simp [Pack.isSignificant, isTrivia, isEof, h.kind]

theorem significant_of_keyword {t : Token} {mode : GameMode} {k : Keyword} (h : t.keyword? mode = some k) :
    Pack.isSignificant t = true := by
  unfold keyword? at h
  split at h
  · next hk => simp [Pack.isSignificant, isTrivia, isEof, hk]
  · cases h

theorem significant_of_literalKind {t : Token} {mode : GameMode} {kind : LiteralKind}
    (h : t.literalKind? mode = some kind) : Pack.isSignificant t = true := by
  cases hk : t.kind <;> simp [literalKind?, Pack.isSignificant, isTrivia, isEof, hk] at h ⊢

theorem significant_of_spell {ts : List Token} {text : String} (h : Spell ts text) :
    ∀ t ∈ ts, Pack.isSignificant t = true := by
  intro t ht
  have hm : t.symbol? ∈ text.toList.map some := h ▸ List.mem_map_of_mem ht
  obtain ⟨c, -, hc⟩ := List.mem_map.1 hm
  exact significant_of_symbol hc.symm

end Token

theorem Shift.significant {config : ParserConfig} {id id' : Nat} {x y : ExprState} {ts : List Token}
    (h : Shift config id x ts id' y) : ∀ t ∈ ts, Pack.isSignificant t = true := by
  cases h with
  | literal _ ht => exact List.forall_mem_singleton.2 (Token.significant_of_literalKind ht)
  | plainName _ ht | receiver _ _ ht | segment _ ht | functionName _ ht =>
    exact List.forall_mem_singleton.2 (Token.significant_of_isPlain ht)
  | memberName _ ht =>
    exact List.forall_mem_singleton.2 (by simp [Pack.isSignificant, Token.isTrivia, Token.isEof, ht])
  | modifierBehind _ _ _ ht | modifierInLead _ _ _ ht | modifier _ ht =>
    exact List.forall_mem_singleton.2 (Token.significant_of_keyword ht)
  | pointerBehind _ _ ht | pointerInLead _ _ ht | openPointer _ ht | closePointer _ _ _ ht
  | qualifyPath _ _ ht | qualifyName _ ht | qualifyOwn _ ht | unary _ _ ht | suffix _ _ _ _ ht
  | assign _ _ _ _ _ ht | binary _ _ _ _ ht => exact Token.significant_of_spell ht
  | openPointerArgs _ ht | openGroup _ ht | openArgs _ _ _ ht | closeGroup _ _ _ ht | closeTruple _ _ _ ht
  | closeArgs _ _ _ ht | nextItem _ _ _ _ ht | nextArg _ _ _ ht | nextElement _ _ _ ht
  | openIndex _ _ ht | openArray _ ht | closeIndex _ _ _ ht | closeArray _ _ _ ht | point _ _ ht
  | backslash _ _ ht | firstBackslash _ ht =>
    exact List.forall_mem_singleton.2 (Token.significant_of_isSymbol ht)

namespace TokenStream

def taken (s : TokenStream) : List Token :=
  (s.tokens.toList.take s.cursor).filter Pack.isSignificant

theorem Takes.taken {s s' : TokenStream} {more : List Token} (h : s.Takes more s') (hs : s.Closed)
    (hm : ∀ t ∈ more, Pack.isSignificant t = true) : s'.taken = s.taken ++ more := by
  have hle := h.within hs.cursor
  have hmore := List.filter_eq_self.2 hm
  rw [h.cursor] at hle
  rw [TokenStream.taken, TokenStream.taken, h.tokens, h.cursor, take_upcoming hle, ← h.read, List.filter_append, hmore]

theorem Closed.taken_read {s : TokenStream} (hs : s.Closed) :
    s.read.2.taken = s.taken ++ [s.read.1].filter Pack.isSignificant := by
  by_cases hc : s.cursor < s.size
  · have hm : min (s.cursor + 1) s.size = s.cursor + 1 := by omega
    simp only [taken, TokenStream.read, hm]
    rw [take_succ hc, List.filter_append]
  · have hcursor := hs.cursor
    have hm : min (s.cursor + 1) s.size = s.cursor := by omega
    have he : Pack.isSignificant (s.tokenAt s.cursor) = false := by
      have := hs.eof
      rw [show s.cursor = s.size by omega]
      simp [Pack.isSignificant, this]
    simp [taken, TokenStream.read, hm, he]

def EndsOnce (s : TokenStream) : Prop :=
  ∀ i, i + 1 < s.size → (s.tokenAt i).isEof = false

theorem EndsOnce.taken_eof {s : TokenStream} (h : s.EndsOnce) (hs : s.Closed) (he : s.read.1.isEof = true) :
    s.tokens.toList.filter Pack.isSignificant = s.read.2.taken := by
  have hcursor : s.read.2.cursor = s.size := by
    have hc := hs.cursor
    by_cases hi : s.cursor + 1 < s.size
    · have hf := h s.cursor hi
      simp only [TokenStream.read] at he
      rw [hf] at he
      cases he
    · simp only [TokenStream.read]
      omega
  have htake : s.tokens.toList.take s.size = s.tokens.toList := List.take_of_length_le (by simp [size])
  rw [taken, hcursor, TokenStream.read, htake]

end TokenStream

theorem ExprState.spells_fresh (mode : GameMode) (context : ExprContext) :
    (Session.fresh context).Spells mode [] :=
  spells_none .nil rfl

theorem ExprState.settled_fresh (context : ExprContext) : (Session.fresh context).Settled :=
  ⟨fun _ _ _ => rfl, by simp [Session.fresh]⟩

theorem Ends.spells {s s' : Session} {x : ExprState} {e : Expr} {mode : GameMode} {ts : List Token}
    (h : Ends s x s' (.value e)) (hx : x.Spells mode ts) : Spells mode e ts := by
  cases h with
  | value _ hf hy he =>
    obtain ⟨us, vs, rfl, hstack, hslot⟩ := (hf.spells hx).of_some he
    rw [hy] at hstack
    cases hstack
    exact hslot

inductive LoneTurn (s : Session) (t : Token) : Session → Prop
  | shift {x y : ExprState} {more : List Token} {stream : TokenStream} {id : Nat}
      (hm : s.mode = .expression) (hx : s.Reading t x) (hs : s.stream.Takes more stream)
      (h : Shift s.config s.nextId x (t :: more) id y) :
      LoneTurn s t { s with stream := stream, nextId := id, expr := some { y with started := true } }
  | whole {s' : Session} {x : ExprState} {e : Expr} (hm : s.mode = .expression) (hx : s.Reading t x)
      (he : Ends s x s' (.value e)) (ht : t.isSymbol ';' = true ∨ t.isEof = true) :
      LoneTurn s t { s' with
        output := some (.expression e), mode := if t.isSymbol ';' then .expressionEnd else .done }
  | closed (hm : s.mode = .expressionEnd) (ht : t.isEof = true) : LoneTurn s t { s with mode := .done }

theorem Turn.lone {s s' : Session} {t : Token} (h : Turn s t s') (hs : s.Shaped)
    (hm : s.mode = .expression ∨ s.mode = .expressionEnd) (hf : s'.failed.size = 0) : LoneTurn s t s' := by
  have hother {m : Mode} (h : s.mode = m) (hne : m ≠ .expression ∧ m ≠ .expressionEnd) : False := by
    subst h
    exact hm.elim hne.1 hne.2
  have hempty : s.stmts = [] ∧ s.recovery = none ∧ (s.mode ≠ .expression → s.expr = none) := by
    cases hs with
    | expression hm' hs hr => exact ⟨hs, hr, fun hne => (hne hm').elim⟩
    | closed _ hs hr he => exact ⟨hs, hr, fun _ => he⟩
    | root hm' | rootRecovery hm' | body hm' | statement hm' | bodyRecovery hm' =>
      exact (hother hm' (by simp)).elim
  have hstmts {top : PendingStmt} {rest : List PendingStmt} (h : s.stmts = top :: rest) : False := by
    rw [hempty.1] at h
    cases h
  have hroot {phase : RootPhase} (h : s.mode = .root phase) : False := hother h (by simp)
  have hreading {x : ExprState} (hx : s.Reading t x) : s.mode = .expression := by
    cases hx with
    | further _ hx =>
      by_contra hne
      rw [hempty.2.2 hne] at hx
      cases hx
    | statement h => exact (hstmts h.stmts).elim
    | whole _ _ hm => exact hm
  have hfails {b b' : Session} (hb : Fails b b') (h : b'.failed.size = 0) : False :=
    Nat.not_lt_zero _ (h ▸ hb.grows)
  cases h with
  | shift hx hs h => exact .shift (hreading hx) hx hs h
  | whole hx _ hm he ht => exact .whole hm hx he ht
  | expressionEnd _ _ hm hb =>
    obtain ⟨rfl, ht⟩ | hb := hb
    · exact .closed hm ht
    · exact (hfails hb hf).elim
  | skip hr =>
    rw [hempty.2.1] at hr
    cases hr
  | reject _ _ _ hb =>
    rw [Session.failed_resync] at hf
    exact (hfails hb hf).elim
  | misplace h => exact (hstmts h.stmts).elim
  | truncate _ _ hb | halt _ _ _ hb | dropStmt _ _ _ _ hb | dropHeader _ _ _ _ _ _ hb
  | dropConstant _ _ _ _ hb | spoilWhole _ _ _ _ _ _ hb | unbalanced _ _ hb | spoil _ _ hb
  | noExpression _ _ _ hb => exact (hfails hb hf).elim
  | exprStmt _ _ hm' =>
    obtain ⟨_, hm'⟩ := hm'
    exact (hother hm' (by simp)).elim
  | supply _ h | clause _ h | keywordCall _ h | caseValue _ h => exact (hstmts h).elim
  | constant _ h | nextArg _ h | closeArgs _ h => exact (hroot h).elim
  | openHeader h | iterator h | nextIterator h | iterators h | openSwitch h | flow h | defaultLabel h
  | elseBranch h | noElse h | openBlock h | openStmt h | openCall h | openFlow h | openCase h
  | openDefault h | straySemicolon h | emptyBody h | missBody h | closeBlock h | closeSwitch h
  | closeFunction h => exact (hstmts h.stmts).elim
  | pass h | rootSemicolon h | dots h | importScript h | declarative h | bareDirective h | directive h
  | openArgs h | openConstant h | globals h | openParams h | openBody h | declare h | scriptEnd h
  | functionEnd h => exact (hroot h.mode).elim

/-- What the expression of an error-free session accounts for. -/
inductive Session.Whole (s : Session) : Prop
  | start (hm : s.mode = .expression) (hx : s.expr = none) (ht : s.stream.taken = [])
  | inside {x : ExprState} (hm : s.mode = .expression) (hx : s.expr = some x) (hs : x.Settled)
      (ht : x.Spells s.gameMode s.stream.taken)
  | behind {e : Expr} {ts : List Token} {c : Token} (hm : s.mode = .expressionEnd)
      (ho : s.output = some (.expression e)) (he : Spells s.gameMode e ts) (hc : c.isSymbol ';' = true)
      (ht : s.stream.taken = ts ++ [c])
  | closed {e : Expr} {ts tail : List Token} (hm : s.mode = .done) (ho : s.output = some (.expression e))
      (he : Spells s.gameMode e ts) (hc : tail = [] ∨ ∃ c, c.isSymbol ';' = true ∧ tail = [c])
      (ht : s.stream.tokens.toList.filter Pack.isSignificant = ts ++ tail)

namespace Session.Whole

variable {s s' : Session}

theorem skip (h : s.Whole) (hs : s.Sound) (ht : s.stream.read.1.isTrivia = true) :
    { s with stream := s.stream.read.2 }.Whole := by
  have htaken : s.stream.read.2.taken = s.stream.taken := by
    rw [hs.closed.taken_read]
    simp [Pack.isSignificant, ht]
  cases h with
  | start hm hx hts => exact .start hm hx (htaken.trans hts)
  | inside hm hx hset hts =>
    refine .inside hm hx hset ?_
    rw [htaken]
    exact hts
  | behind hm ho he hc hts => exact .behind hm ho he hc (htaken.trans hts)
  | closed hm ho he hc hts => exact .closed hm ho he hc hts

theorem reading {t : Token} {stream : TokenStream} {x : ExprState} (h : s.Whole) (hm : s.mode = .expression)
    (hx : { s with stream := stream }.Reading t x) : x.Settled ∧ x.Spells s.gameMode s.stream.taken := by
  have hother {m : Mode} (h : s.mode = m) (hne : m ≠ .expression) : False := hne (h ▸ hm)
  cases hx with
  | statement h' =>
    obtain ⟨_, hm'⟩ := h'.mode
    exact (hother hm' (by simp)).elim
  | further _ hx =>
    cases h with
    | start _ hn => rw [hn] at hx; cases hx
    | inside _ hx' hset hts =>
      rw [hx'] at hx
      cases hx
      exact ⟨hset, hts⟩
    | behind hm' | closed hm' => exact (hother hm' (by simp)).elim
  | whole _ hn =>
    cases h with
    | start _ _ hts =>
      rw [hts]
      exact ⟨ExprState.settled_fresh _, ExprState.spells_fresh _ _⟩
    | inside _ hx' => rw [hx'] at hn; cases hn
    | behind hm' | closed hm' => exact (hother hm' (by simp)).elim

theorem turn (h : s.Whole) (hs : s.Sound) (honce : s.stream.EndsOnce) (hf : s.isFinished = false)
    (ht : Turn { s with stream := s.stream.read.2 } s.stream.read.1 s') (hs' : s'.failed.size = 0) :
    s'.Whole := by
  have htaken := hs.closed.taken_read
  have hmode : s.mode = .expression ∨ s.mode = .expressionEnd := by
    cases h with
    | start hm | inside hm => exact .inl hm
    | behind hm => exact .inr hm
    | closed hm => simp [isFinished, hm] at hf
  have heof (h : s.stream.read.1.isEof = true) : s.stream.tokens.toList.filter Pack.isSignificant =
      s.stream.taken := by
    rw [honce.taken_eof hs.closed h, htaken]
    simp [Pack.isSignificant, h]
  cases ht.lone (hs.read.shaped (halted_of_isFinished hf)) hmode hs' with
  | @shift x y more stream id hm hx hstream hshift =>
    obtain ⟨hset, hspells⟩ := h.reading hm hx
    have hall := hshift.significant
    simp only [List.mem_cons, forall_eq_or_imp] at hall
    have hy : ExprState.Spells s.gameMode y stream.taken := by
      rw [hstream.taken hs.read.closed hall.2, htaken, List.filter_cons_of_pos hall.1, List.filter_nil,
        List.append_assoc]
      exact hshift.spells hspells hset
    have hsettled : ExprState.Settled { y with started := true } :=
      ⟨(hshift.settled hset).vacant, (hshift.settled hset).below⟩
    exact .inside hm rfl hsettled hy
  | @whole s₁ x e hm hx he hterm =>
    obtain ⟨-, hspells⟩ := h.reading hm hx
    have hsp := he.spells hspells
    obtain ⟨stream, id, _, _, _, hstream, -, rfl⟩ := he.same
    have hst : stream.taken = s.stream.read.2.taken := by
      simpa using hstream.taken hs.read.closed (by simp)
    by_cases hc : s.stream.read.1.isSymbol ';' = true
    · refine .behind (if_pos hc) rfl hsp hc ?_
      rw [hst, htaken, List.filter_cons_of_pos (Token.significant_of_isSymbol hc), List.filter_nil]
    · refine .closed (if_neg hc) rfl hsp (.inl rfl) ?_
      rw [hstream.tokens, List.append_nil]
      exact heof (hterm.resolve_left hc)
  | closed hm hend =>
    cases h with
    | behind _ ho he hc hts => exact .closed rfl ho he (.inr ⟨_, hc, rfl⟩) ((heof hend).trans hts)
    | start hm' | inside hm' | closed hm' =>
      rw [hm'] at hm
      cases hm

end Session.Whole

namespace Session

theorem run_whole {tokens : List Token} {config : ParserConfig} (ht : config.target = .expression)
    (honce : (TokenStream.ofList tokens).EndsOnce) (hf : (ofTokens tokens config).run.failed.size = 0) :
    (ofTokens tokens config).run.Whole ∧ (ofTokens tokens config).run.config = config ∧
      (ofTokens tokens config).run.stream.tokens = (TokenStream.ofList tokens).tokens := by
  suffices h : ((ofTokens tokens config).run.failed.size = 0 → (ofTokens tokens config).run.Whole) ∧
      (ofTokens tokens config).run.config = config ∧
      (ofTokens tokens config).run.stream.tokens = (TokenStream.ofList tokens).tokens from ⟨h.1 hf, h.2⟩
  refine run_induction (P := fun s => (s.failed.size = 0 → s.Whole) ∧ s.config = config ∧
    s.stream.tokens = (TokenStream.ofList tokens).tokens) (sound_ofTokens tokens config) ?_ ?_ ?_
  · exact ⟨fun _ => .start (by simp [ofTokens, ht]) rfl rfl, rfl, rfl⟩
  · rintro s hs ⟨hw, hc, hst⟩ htrivia
    exact ⟨fun hf => (hw hf).skip hs htrivia, hc, hst⟩
  · rintro s s' hs hfin ⟨hw, hc, hst⟩ - hturn
    have hframe := hturn.frame
    refine ⟨fun hf => ?_, hframe.config.trans hc, hframe.tokens.trans hst⟩
    have hzero : s.failed.size = 0 := Nat.eq_zero_of_le_zero (hf ▸ hturn.le_failed)
    have hs' : s.stream.EndsOnce := by
      unfold TokenStream.EndsOnce TokenStream.tokenAt TokenStream.size at honce ⊢
      simp only [hst]
      exact honce
    exact (hw hzero).turn hs hs' hfin hturn hf

end Session

theorem parse_whole {tokens : List Token} {config : ParserConfig} (ht : config.target = .expression)
    (honce : (TokenStream.ofList tokens).EndsOnce) (hs : (parse tokens config).isSuccess = true) :
    ∃ e ts tail, (parse tokens config).graph = some (.expression e) ∧ Spells config.dialect.mode e ts ∧
      (tail = [] ∨ ∃ c, c.isSymbol ';' = true ∧ tail = [c]) ∧
      (TokenStream.closed tokens).filter Pack.isSignificant = ts ++ tail := by
  simp only [ParseOutput.isSuccess, Bool.and_eq_true, Option.isSome_iff_exists, List.isEmpty_iff] at hs
  obtain ⟨⟨g, hg⟩, he⟩ := hs
  have ho := Session.finish_graph hg
  have hfinish : (Session.ofTokens tokens config).run.isFinished = true ∧
      (Session.ofTokens tokens config).run.halted = false ∧
      (Session.ofTokens tokens config).run.failed.size = 0 := by
    unfold parse Session.finish at hg he
    split at hg
    · cases hg
    next hh =>
    rw [if_neg hh] at he
    split at hg
    · next hfin =>
      rw [if_pos hfin] at he
      exact ⟨hfin, by simpa using hh, by simpa [Session.errors] using he⟩
    · cases hg
  obtain ⟨hw, hc, hst⟩ := Session.run_whole ht honce hfinish.2.2
  have hmode := hfinish.1
  simp only [Session.isFinished, hfinish.2.1, Bool.false_or] at hmode
  cases hw with
  | start hm | inside hm | behind hm => simp [hm] at hmode
  | @closed e ts tail hm ho' hsp htail hts =>
    rw [ho] at ho'
    rw [hst] at hts
    refine ⟨e, ts, tail, hg.trans ho', ?_, htail, hts⟩
    rw [Session.gameMode, hc] at hsp
    exact hsp

end GameScript
