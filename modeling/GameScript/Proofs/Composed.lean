import GameScript.Proofs.Formed
import GameScript.Proofs.Spacing
import GameScript.Proofs.Whole

namespace GameScript

/-- What is unfinished has been read from tokens of the dialect, and nothing in it is out of place. -/
structure ExprState.Composed (config : ParserConfig) (x : ExprState) : Prop where
  settled : x.Settled
  binds : x.Binds
  formed : x.Formed config.allowAssignmentExpressions
  spells : ∃ ts, x.Spells config.dialect.mode ts ∧ ∀ t ∈ ts, t.Lexed config.dialect

structure Expr.Composed (config : ParserConfig) (context : ExprContext) (e : Expr) : Prop where
  binds : e.BindsThroughout
  formed : e.FormedThroughout config.allowAssignmentExpressions
  place : e.isAssign = true → config.allowAssignmentExpressions = true ∨ context.takesAssignment = true
  spells : ∃ ts, Spells config.dialect.mode e ts ∧ ∀ t ∈ ts, t.Lexed config.dialect

namespace ExprState

variable {config : ParserConfig} {x y : ExprState}

theorem composed_fresh (config : ParserConfig) (context : ExprContext) : (Session.fresh context).Composed config :=
  ⟨settled_fresh context, .of_none rfl .nil, .fresh _ context, [], spells_fresh _ context, by simp⟩

theorem Composed.shift {id id' : Nat} {ts : List Token} (h : x.Composed config) (hs : Shift config id x ts id' y)
    (ht : ∀ t ∈ ts, t.Lexed config.dialect) :
    ExprState.Composed config { y with started := true } ∧ y.context = x.context := by
  obtain ⟨us, hsp, hl⟩ := h.spells
  obtain ⟨hf, hc⟩ := hs.formed h.binds h.formed
  have hset := hs.settled h.settled
  have hb := hs.binds h.binds
  refine ⟨⟨⟨hset.vacant, hset.below⟩, ⟨hb.stack, hb.slot⟩, ⟨hf.stack, hf.slot, hf.receiver⟩, us ++ ts,
    hs.spells hsp h.settled, fun t hm => ?_⟩, hc⟩
  exact (List.mem_append.1 hm).elim (hl t) (ht t)

theorem Composed.ends {s s' : Session} {e : Expr} (h : x.Composed config) (he : Ends s x s' (.value e)) :
    e.Composed config x.context := by
  obtain ⟨ts, hsp, hl⟩ := h.spells
  have hspells := he.spells hsp
  cases he with
  | @value _ _ y _ hs hf hy hslot =>
    obtain ⟨hform, hctx⟩ := hf.formed h.formed
    have hval := hform.slot e hslot
    rw [hctx] at hval
    exact ⟨((hf.binds h.binds.stack h.binds.fits).2 e hslot).1, hval.1, fun ha => (hval.2 ha).imp_right And.right,
      ts, hspells, hl⟩

end ExprState

def TokenStream.Lexed (d : Dialect) (s : TokenStream) : Prop :=
  ∀ t ∈ s.tokens.toList, t.isEof = false → t.Lexed d

theorem Shift.lexed {config : ParserConfig} {id id' : Nat} {x y : ExprState} {t : Token} {more : List Token}
    {s s' : TokenStream} {d : Dialect} (h : Shift config id x (t :: more) id' y) (hs : s.Takes more s')
    (hl : s.Lexed d) (ht : t ∈ s.tokens.toList) : ∀ u ∈ t :: more, u.Lexed d := by
  intro u hu
  have hsig := h.significant u hu
  simp only [Pack.isSignificant, Bool.and_eq_true, Bool.not_eq_true'] at hsig
  refine hl u ?_ hsig.2
  obtain rfl | hu := List.mem_cons.1 hu
  · exact ht
  · exact hs.mem u hu

namespace Session

/-- The expression of an error-free session that reads nothing else. -/
inductive Lone (s : Session) : Prop
  | start (hm : s.mode = .expression) (hx : s.expr = none)
  | inside {x : ExprState} (hm : s.mode = .expression) (hx : s.expr = some x) (hc : x.context = .topLevel)
      (h : x.Composed s.config)
  | behind {e : Expr} (hm : s.mode = .expressionEnd ∨ s.mode = .done) (ho : s.output = some (.expression e))
      (h : e.Composed s.config .topLevel)

theorem Lone.reading {s : Session} {t : Token} {x : ExprState} (h : s.Lone) (hm : s.mode = .expression)
    (hx : s.Reading t x) : x.Composed s.config ∧ x.context = .topLevel := by
  have hother {m : Mode} (h : s.mode = m) (hne : m ≠ .expression) : False := hne (h ▸ hm)
  cases hx with
  | statement h' =>
    obtain ⟨_, hm'⟩ := h'.mode
    exact (hother hm' (by simp)).elim
  | further _ hx =>
    cases h with
    | start _ hn => rw [hn] at hx; cases hx
    | inside _ hx' hc h =>
      rw [hx'] at hx
      cases hx
      exact ⟨h, hc⟩
    | behind hm' => exact (hm'.elim (hother · (by simp)) (hother · (by simp))).elim
  | whole => exact ⟨ExprState.composed_fresh _ _, rfl⟩

theorem Lone.turn {s s' : Session} {t : Token} (h : s.Lone) (hs : s.Shaped) (hf : s.isFinished = false)
    (hl : s.stream.Lexed s.config.dialect) (hmem : t ∈ s.stream.tokens.toList) (ht : Turn s t s')
    (hs' : s'.failed.size = 0) : s'.Lone := by
  have hmode : s.mode = .expression ∨ s.mode = .expressionEnd := by
    cases h with
    | start hm | inside hm => exact .inl hm
    | behind hm => exact .inr (hm.resolve_right fun hd => by simp [isFinished, hd] at hf)
  cases ht.lone hs hmode hs' with
  | @shift x y more stream id hm hx hstream hshift =>
    obtain ⟨hcomp, hctx⟩ := h.reading hm hx
    obtain ⟨hy, hc⟩ := hcomp.shift hshift (hshift.lexed hstream hl hmem)
    exact .inside hm rfl (hc.trans hctx) hy
  | @whole s₁ x e hm hx he hterm =>
    obtain ⟨hcomp, hctx⟩ := h.reading hm hx
    have hval := hcomp.ends he
    rw [hctx] at hval
    obtain ⟨stream, id, _, _, _, -, -, rfl⟩ := he.same
    refine .behind ?_ rfl hval
    simp only
    split
    · exact .inl rfl
    · exact .inr rfl
  | closed hm hend =>
    cases h with
    | behind _ ho he => exact .behind (.inr rfl) ho he
    | start hm' | inside hm' =>
      rw [hm'] at hm
      cases hm

theorem run_lone {tokens : List Token} {config : ParserConfig} (ht : config.target = .expression)
    (hl : (TokenStream.ofList tokens).Lexed config.dialect) (hf : (ofTokens tokens config).run.failed.size = 0) :
    (ofTokens tokens config).run.Lone ∧ (ofTokens tokens config).run.config = config := by
  suffices h : ((ofTokens tokens config).run.failed.size = 0 → (ofTokens tokens config).run.Lone) ∧
      (ofTokens tokens config).run.config = config ∧
      (ofTokens tokens config).run.stream.tokens = (TokenStream.ofList tokens).tokens from ⟨h.1 hf, h.2.1⟩
  refine run_induction (P := fun s => (s.failed.size = 0 → s.Lone) ∧ s.config = config ∧
    s.stream.tokens = (TokenStream.ofList tokens).tokens) (sound_ofTokens tokens config) ?_ ?_ ?_
  · exact ⟨fun _ => .start (by simp [ofTokens, ht]) rfl, rfl, rfl⟩
  · rintro s hs ⟨hw, hc, hst⟩ htrivia
    refine ⟨fun hf => ?_, hc, hst⟩
    cases hw hf with
    | start hm hx => exact .start hm hx
    | inside hm hx hc h => exact .inside hm hx hc h
    | behind hm ho h => exact .behind hm ho h
  · rintro s s' hs hfin ⟨hw, hc, hst⟩ - hturn
    have hframe := hturn.frame
    refine ⟨fun hf => ?_, hframe.config.trans hc, hframe.tokens.trans hst⟩
    have hzero : s.failed.size = 0 := Nat.eq_zero_of_le_zero (hf ▸ hturn.le_failed)
    have hlone : Lone { s with stream := s.stream.read.2 } := by
      cases hw hzero with
      | start hm hx => exact .start hm hx
      | inside hm hx hc h => exact .inside hm hx hc h
      | behind hm ho h => exact .behind hm ho h
    refine hlone.turn (hs.read.shaped (halted_of_isFinished hfin)) hfin ?_ (s.stream.tokenAt_mem _) hturn hf
    show TokenStream.Lexed s.config.dialect s.stream.read.2
    unfold TokenStream.Lexed at hl ⊢
    rw [hc, show s.stream.read.2.tokens = s.stream.tokens from rfl, hst]
    exact hl

end Session

theorem parseSource_ok {source : String} {config : ParserConfig} {o : ParseOutput}
    (h : parseSource source config = .ok o) :
    ∃ tokens, lex source config.dialect = .ok tokens ∧ o = parse tokens config := by
  unfold parseSource at h
  cases hl : lex source config.dialect with
  | error => simp [hl, Except.map] at h
  | ok tokens => exact ⟨tokens, rfl, by simpa [hl, Except.map] using h.symm⟩

theorem parse_finished {tokens : List Token} {config : ParserConfig} (hs : (parse tokens config).isSuccess = true) :
    ∃ g, (parse tokens config).graph = some g ∧ (Session.ofTokens tokens config).run.output = some g ∧
      (Session.ofTokens tokens config).run.isFinished = true ∧
      (Session.ofTokens tokens config).run.halted = false ∧
      (Session.ofTokens tokens config).run.failed.size = 0 := by
  simp only [ParseOutput.isSuccess, Bool.and_eq_true, Option.isSome_iff_exists, List.isEmpty_iff] at hs
  obtain ⟨⟨g, hg⟩, he⟩ := hs
  refine ⟨g, hg, Session.finish_graph hg, ?_⟩
  unfold parse Session.finish at hg he
  split at hg
  · cases hg
  next hh =>
  rw [if_neg hh] at he
  split at hg
  · next hfin =>
    rw [if_pos hfin] at he
    exact ⟨hfin, by simpa using hh, by simpa [Session.errors] using he⟩
  · cases hg

theorem parse_composed {tokens : List Token} {config : ParserConfig} (ht : config.target = .expression)
    (hl : (TokenStream.ofList tokens).Lexed config.dialect) (hs : (parse tokens config).isSuccess = true) :
    ∃ e, (parse tokens config).graph = some (.expression e) ∧ e.Composed config .topLevel := by
  obtain ⟨g, hg, ho, hfin, hh, hf⟩ := parse_finished hs
  obtain ⟨hlone, hc⟩ := Session.run_lone ht hl hf
  cases hlone with
  | start hm | inside hm => simp [Session.isFinished, hh, hm] at hfin
  | @behind e _ ho' h =>
    rw [ho] at ho'
    exact ⟨e, hg.trans ho', hc ▸ h⟩

end GameScript
