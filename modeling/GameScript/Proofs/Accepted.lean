import GameScript.Proofs.Rendered
import GameScript.Proofs.Registered

namespace GameScript

structure Session.InOrder (s : Session) : Prop where
  phrased : s.Phrased
  stmts : ∀ p ∈ s.stmts, p.Composed s.config s.constants
  goesOn : s.GoesOn
  registered : s.Registered
  ordered : s.Ordered

namespace Session

variable {s s' : Session}

theorem Shaped.expr_none {top : PendingStmt} (hs : s.Shaped) (ht : s.stmts.head? = some top)
    (ho : top.isOpen = false) (hr : top.atRest = true) : s.expr = none := by
  have hreads : top.reads = none := by
    unfold PendingStmt.atRest at hr
    split at hr
    · rfl
    · rw [ho] at hr
      cases hr
  cases hs with
  | body _ hst _ _ he =>
    rw [hst] at ht
    obtain rfl := Option.some.inj ht
    rw [hreads] at he
    exact Option.map_eq_none_iff.1 he
  | statement _ hst _ ht' | bodyRecovery _ hst _ ht' =>
    rw [hst] at ht
    obtain rfl := Option.some.inj ht
    rw [ho] at ht'
    cases ht'
  | root _ hst | rootRecovery _ hst | expression _ hst | closed _ hst => simp [hst] at ht

theorem Ordered.withStream (h : s.Ordered) (stream : TokenStream) : Ordered { s with stream := stream } :=
  ⟨h.constants, h.constantIds, h.functionIds, h.header, h.inConstant, h.function⟩

theorem Phrased.withStream (h : s.Phrased) (stream : TokenStream) : Phrased { s with stream := stream } :=
  ⟨h.composed, h.leads⟩

namespace InOrder

theorem skip (h : s.InOrder) (hs : s.Sound) (ht : s.stream.read.1.isTrivia = true) :
    InOrder { s with stream := s.stream.read.2 } where
  phrased := h.phrased.withStream _
  stmts := h.stmts
  goesOn top htop hx hr := (h.goesOn top htop hx hr).trivia hs.closed ht
  registered := h.registered.within rfl rfl rfl rfl
  ordered := h.ordered.withStream _

theorem turn {afterValue : Bool} (h : s.InOrder) (hs : s.Sound) (hfin : s.isFinished = false)
    (hgo : s.stream.GoesOn s.config.dialect afterValue) (hl : s.stream.Lexed s.config.dialect)
    (hc : s.config.target ≠ .expression) (ht : s.stream.read.1.isTrivia = false)
    (hturn : Turn { s with stream := s.stream.read.2 } s.stream.read.1 s')
    (hadvance : Advance { s with stream := s.stream.read.2 } s.stream.read.1 s') : s'.InOrder := by
  have hshaped := hs.read.shaped (halted_of_isFinished hfin)
  have hdeclares := hturn.declares hshaped
  have hconfig := hturn.frame.config
  have hphrased := h.phrased.withStream s.stream.read.2
  have hordered := h.ordered.withStream s.stream.read.2
  have hlexed : s.stream.read.1.isEof = false → s.stream.read.1.Lexed s.config.dialect :=
    hl _ (s.stream.tokenAt_mem _)
  have hfits : Fits { s with stream := s.stream.read.2 } s.stream.read.1 := fun top htop hx ho he =>
    (((h.goesOn top htop hx (PendingStmt.atRest_of_isOpen ho)).token hs.closed ht).1 he).2
  refine ⟨hadvance.phrased hphrased hl (s.stream.tokenAt_mem _) hfits, ?_, ?_, ?_,
    hdeclares.ordered hordered hconfig (mode_of_isFinished hfin)⟩
  · have hstacked := hadvance.stacked hphrased h.stmts hlexed
    rw [hconfig]
    obtain hnil | hcs := hdeclares.adds.stmts_constants hshaped
    · simp [hnil]
    · rw [hcs]
      exact hstacked
  · -- An `if` without an `else` puts the token back, and before the token was read all was in order.
    refine hadvance.goesOn hshaped (hgo.token hs.closed ht).2 fun top htop ho hrest => ?_
    have hbefore := h.goesOn top htop (hshaped.expr_none htop ho hrest) hrest
    rwa [PendingStmt.behind_of_awaitsBody (PendingStmt.awaitsBody_of_isOpen ho)] at hbefore
  · exact hadvance.registered (h.registered.within rfl rfl rfl rfl) hshaped hordered hphrased h.stmts hlexed hc

end InOrder

theorem mode_ofTokens (tokens : List Token) {config : ParserConfig} (ht : config.target ≠ .expression) :
    (ofTokens tokens config).mode = .root .idle := by
  cases htarget : config.target with
  | expression => exact (ht htarget).elim
  | script | function => simp [ofTokens, htarget]

theorem inOrder_ofTokens {tokens : List Token} {config : ParserConfig} (ht : config.target ≠ .expression) :
    (ofTokens tokens config).InOrder where
  phrased := .none rfl
  stmts := by simp [ofTokens]
  goesOn := by simp [GoesOn, ofTokens]
  registered := by
    have hm := mode_ofTokens tokens ht
    refine ⟨?_, by simp [hm], fun _ => .empty _, by simp [ofTokens]⟩
    rw [hm]
    trivial
  ordered := by
    have hm := mode_ofTokens tokens ht
    refine ⟨fun _ => rfl, ?_, ?_, ?_, ?_, fun _ => rfl⟩
    · simp [ofTokens]
    · simp [ofTokens, Script.functions]
    · simp [hm, Mode.header?, RootPhase.header?]
    · simp [hm, Mode.inConstant]

theorem run_inOrder {tokens : List Token} {config : ParserConfig} {P : Session → Prop} (ht : config.target ≠ .expression)
    (hgo : (TokenStream.ofList tokens).GoesOn config.dialect false)
    (hl : (TokenStream.ofList tokens).Lexed config.dialect) (hp : P (ofTokens tokens config))
    (hskip : ∀ s, P s → P { s with stream := s.stream.read.2 })
    (hturn : ∀ s s', s.isFinished = false → s.InOrder → P s → Declares { s with stream := s.stream.read.2 } s' →
      s'.config = s.config → P s')
    (hf : (ofTokens tokens config).run.failed.size = 0) :
    (ofTokens tokens config).run.InOrder ∧ (ofTokens tokens config).run.config = config ∧
      P (ofTokens tokens config).run := by
  suffices h : (ofTokens tokens config).run.recovery = none ∧ (ofTokens tokens config).run.InOrder ∧
      (ofTokens tokens config).run.config = config ∧
      (ofTokens tokens config).run.stream.tokens = (TokenStream.ofList tokens).tokens ∧ P (ofTokens tokens config).run
    from ⟨h.2.1, h.2.2.1, h.2.2.2.2⟩
  refine steps_advances (P := fun s => s.InOrder ∧ s.config = config ∧
    s.stream.tokens = (TokenStream.ofList tokens).tokens ∧ P s) (sound_ofTokens tokens config) rfl
    ⟨inOrder_ofTokens ht, rfl, rfl, hp⟩ ?_ ?_ _ hf
  · rintro s hs ⟨hw, hc, hst, hp⟩ htrivia
    exact ⟨hw.skip hs htrivia, hc, hst, hskip s hp⟩
  · rintro s s' hs hfin ⟨hw, hc, hst, hp⟩ htrivia hturns hadvance
    have hframe := hturns.frame
    have hdeclares := hturns.declares (hs.read.shaped (halted_of_isFinished hfin))
    obtain ⟨afterValue, hgo⟩ := hgo.within hst (Nat.zero_le _)
    have hlexed : s.stream.Lexed s.config.dialect := by
      unfold TokenStream.Lexed at hl ⊢
      rwa [hc, hst]
    refine ⟨?_, hframe.config.trans hc, hframe.tokens.trans hst, hturn s s' hfin hw hp hdeclares hframe.config⟩
    subst hc
    exact hw.turn hs hfin hgo hlexed ht htrivia hturns hadvance

end Session

theorem lexed_ofList_of_lex {source : String} {d : Dialect} {tokens : List Token} (hl : lex source d = .ok tokens) :
    (TokenStream.ofList tokens).Lexed d := by
  obtain ⟨ts, loc, rfl, hlexed⟩ := lexed_of_lex hl
  intro t hm he
  simp only [TokenStream.ofList, (endsOnce_ofList loc fun t ht => (hlexed t ht).isEof).1] at hm
  obtain hm | hm := List.mem_append.1 hm
  · exact hlexed t hm
  · obtain rfl := List.mem_singleton.1 hm
    cases he

theorem parse_inOrder {source : String} {config : ParserConfig} {tokens : List Token} {g : Graph}
    (ht : config.target ≠ .expression) (hl : lex source config.dialect = .ok tokens)
    (hs : (parse tokens config).isSuccess = true) (hg : (parse tokens config).graph = some g) : g.Composed config := by
  obtain ⟨g', hg', ho, -, -, hf⟩ := parse_finished hs
  obtain rfl : g' = g := Option.some.inj (hg'.symm.trans hg)
  obtain ⟨hrun, hc, -⟩ := Session.run_inOrder (P := fun _ => True) ht (TokenStream.goesOn_ofList hl)
    (lexed_ofList_of_lex hl) trivial (fun _ _ => trivial) (fun _ _ _ _ _ _ _ => trivial) hf
  exact hc ▸ hrun.registered.output g' ho

end GameScript
