import GameScript.Proofs.Beside
import GameScript.Proofs.Faultless

namespace GameScript

structure Script.Within (a b : Script) : Prop where
  constants : a.constants <+: b.constants
  functions : a.functions <+: b.functions
  plain : b.declarative = false → a.declarative = false

namespace Script.Within

theorem refl (a : Script) : a.Within a :=
  ⟨List.prefix_rfl, List.prefix_rfl, id⟩

theorem trans {a b c : Script} (h : a.Within b) (h' : b.Within c) : a.Within c :=
  ⟨h.constants.trans h'.constants, h.functions.trans h'.functions, fun hc => h.plain (h'.plain hc)⟩

theorem declaration (a : Script) (d : Declaration) : a.Within { a with declarations := a.declarations ++ [d] } := by
  refine ⟨List.prefix_rfl, ?_, id⟩
  simp only [Script.functions, List.filterMap_append]
  exact List.prefix_append ..

end Script.Within

def Token.Ends (t : Token) : Prop :=
  t.isSymbol ';' = true ∨ t.isSymbol '\x7d' = true

theorem Token.Ends.isEof {t : Token} (h : t.Ends) : t.isEof = false :=
  h.elim isEof_of_isSymbol isEof_of_isSymbol

theorem Token.Ends.closing {t : Token} (h : t.Ends) {c : Char} (hc : t.symbol? = some c) : c = ';' ∨ c = '\x7d' :=
  h.imp (fun h => Option.some.inj (hc.symm.trans (isSymbol_iff.1 h))) fun h => Option.some.inj (hc.symm.trans (isSymbol_iff.1 h))

/-- Where a token leads that is in order: on inside a declaration, to the end of one, or to the end of the script. -/
inductive Leads (s : Session) (t : Token) (s' : Session) : Prop
  | inside (hm : s'.mode ≠ .done) (hi : ¬ s'.AtRoot .idle) (hs : s'.script = s.script) (ho : s'.output = s.output)
      (he : t.isEof = true → s'.stream = s.stream.defer)
  | declared (hm : s'.mode = .root .idle) (hs : s.script.Within s'.script) (ho : s'.output = s.output) (ht : t.Ends)
      (hst : s.stream.Takes [] s'.stream)
  | finished (hm : s'.mode = .done) (h : s.AtRoot .idle) (ht : t.isEof = true)

namespace Leads

variable {s s' : Session} {t : Token}

theorem body {header : FunctionHeader} (hm : s'.mode = .body header) (hs : s'.script = s.script)
    (ho : s'.output = s.output) (he : t.isEof = false) : Leads s t s' :=
  .inside (by simp [hm]) (fun h => by cases hm.symm.trans h.mode) hs ho fun h => by rw [he] at h; cases h

theorem phase {phase : RootPhase} (hm : s'.mode = .root phase) (hp : phase ≠ .idle ∨ s'.expr.isSome = true)
    (hs : s'.script = s.script) (ho : s'.output = s.output) (he : t.isEof = false) : Leads s t s' := by
  refine .inside (by simp [hm]) (fun h => ?_) hs ho fun h => by rw [he] at h; cases h
  obtain hp | hp := hp
  · exact hp (Mode.root.inj (hm.symm.trans h.mode))
  · rw [h.expr] at hp
    cases hp

end Leads

theorem Token.isEof_of_keyword {t : Token} {mode : GameMode} {k : Keyword} (h : t.keyword? mode = some k) : t.isEof = false :=
  isEof_of_isEdge (isEdge_of_keyword h)

theorem Passes.phase_ne {s : Session} {t : Token} {phase phase' : RootPhase} (h : Passes s t phase phase') : phase' ≠ .idle := by
  cases h <;> exact RootPhase.noConfusion

theorem Advance.leads {s s' : Session} {t : Token} (h : Advance s t s') (hs : s.Shaped) (ho : s.OnTarget)
    (hc : s.config.target = .script) (hout : s.output = none) : Leads s t s' := by
  have hfits := ho.mode
  rw [hc, hout] at hfits
  -- Statements are put away in function bodies only.
  have hstowed {stmts : List PendingStmt} {stmt : Stmt} (hk : Stowed s.stmts stmt stmts) : ∃ header, s.mode = .body header := by
    cases hst : s.stmts with
    | nil => rw [hst] at hk; cases hk
    | cons => exact (hs.stack hst).1
  cases h with
  | shift hx _ h =>
    have he : t.isEof = false := Token.isEof_of_isEdge h.isEdge
    cases hm : s.mode with
    | root phase => exact .phase rfl (.inr rfl) rfl rfl he
    | body header => exact .body rfl rfl rfl he
    | expression | expressionEnd | done => rw [hm] at hfits; cases hfits
  | exprStmt _ _ he _ ht hk =>
    obtain ⟨_, _, -, rfl⟩ := he.of_value
    obtain ⟨header, hm⟩ := hstowed hk
    exact .body hm rfl rfl (Token.isEof_of_isSymbol ht)
  | supply _ hst _ ht he =>
    obtain ⟨_, _, -, rfl⟩ := he.of_value
    obtain ⟨⟨header, hm⟩, -⟩ := hs.stack hst
    exact .body hm rfl rfl (Token.isEof_of_isSymbol ht)
  | clause _ hst _ he hf ht =>
    obtain ⟨_, _, -, rfl⟩ := he.of_not_failed hf
    obtain ⟨⟨header, hm⟩, -⟩ := hs.stack hst
    exact .body hm rfl rfl (Token.isEof_of_isSymbol ht)
  | keywordCall _ hst _ he hf _ ht =>
    obtain ⟨_, _, -, rfl⟩ := he.of_not_failed hf
    obtain ⟨⟨header, hm⟩, -⟩ := hs.stack hst
    exact .body hm rfl rfl (Token.isEof_of_isSymbol ht)
  | caseValue _ hst _ he _ _ ht =>
    obtain ⟨_, _, -, rfl⟩ := he.of_value
    obtain ⟨⟨header, hm⟩, -⟩ := hs.stack hst
    exact .body hm rfl rfl (Token.isEof_of_isSymbol ht)
  | constant _ hm he _ _ ht =>
    obtain ⟨_, _, hst, rfl⟩ := he.of_value
    exact .declared rfl ⟨List.prefix_append .., List.prefix_rfl, id⟩ rfl (.inl ht) hst
  | nextArg _ hm he ht =>
    obtain ⟨_, _, -, rfl⟩ := he.of_value
    exact .phase rfl (.inr rfl) rfl rfl (Token.isEof_of_isSymbol ht)
  | closeArgs _ hm he hf _ ht =>
    obtain ⟨_, _, -, rfl⟩ := he.of_not_failed hf
    exact .phase rfl (.inl RootPhase.noConfusion) rfl rfl (Token.isEof_of_isSymbol ht)
  | whole _ _ hm => rw [hm] at hfits; cases hfits
  | openHeader h _ ht | nextIterator h ht | openSwitch h ht | flow h ht =>
    obtain ⟨header, hm⟩ := h.mode
    exact .body hm rfl rfl (Token.isEof_of_isSymbol ht)
  | iterator h _ ht =>
    obtain ⟨header, hm⟩ := h.mode
    obtain ⟨_, _, he⟩ := Session.iteratorName_warned (s := s) _ _ _
    rw [he]
    exact .body hm rfl rfl (Token.isEof_of_isEdge (Session.plainName?_isEdge ht))
  | iterators h _ ht | elseBranch h ht =>
    obtain ⟨header, hm⟩ := h.mode
    exact .body hm rfl rfl (Token.isEof_of_keyword (by simpa [Token.isKeyword] using ht))
  | defaultLabel h _ ht =>
    obtain ⟨header, hm⟩ := h.mode
    exact .body hm rfl rfl (Token.isEof_of_isSymbol ht)
  | noElse h =>
    obtain ⟨header, hm⟩ := h.mode
    -- The token is left for later, whatever it is.
    exact .inside (by simp [Session.defer, hm]) (fun h' => by cases hm.symm.trans h'.mode) rfl rfl fun _ => rfl
  | openBlock h ht | closeBlock h ht =>
    obtain ⟨⟨header, hm⟩, -⟩ := hs.stack h.stmts
    exact .body hm rfl rfl (Token.isEof_of_isSymbol ht)
  | openStmt h ht | openCall h ht | openFlow h ht | openCase h ht | openDefault h ht =>
    obtain ⟨⟨header, hm⟩, -⟩ := hs.stack h.stmts
    exact .body hm rfl rfl (Token.isEof_of_keyword ht)
  | straySemicolon h _ ht | emptyBody h _ ht =>
    obtain ⟨⟨header, hm⟩, -⟩ := hs.stack h.stmts
    obtain ⟨_, hw⟩ := Session.report_warning (s := s) (p := .straySemicolon) t.loc rfl
    rw [hw]
    exact .body hm rfl rfl (Token.isEof_of_isSymbol ht)
  | @closeSwitch _ labels statements switch _ rest _ h ht =>
    obtain ⟨⟨header, hm⟩, -⟩ := hs.stack h.stmts
    obtain ⟨_, hw⟩ := Session.noteSwitch_warned (s := { s with stmts := rest }) switch labels statements t
    rw [hw]
    exact .body hm rfl rfl (Token.isEof_of_isSymbol ht)
  | @closeFunction node statements header _ _ hd ht =>
    obtain ⟨hf, -⟩ | ⟨-, he⟩ := Session.defineFunction_new (s := { s with stmts := [], mode := .root .idle })
      (f := header.define (some ⟨node, statements.reverse⟩)) hd
    · rw [hc] at hf; cases hf
    · rw [he]
      exact .declared rfl (.declaration _ _) rfl (.inr ht) (.refl _)
  | @declare header _ _ hn ht =>
    obtain ⟨hf, -⟩ | ⟨-, he⟩ := Session.defineFunction_new (s := s.inRoot .idle) (f := header.define none) (.inr hn)
    · rw [show (s.inRoot .idle).config.target = .script from hc] at hf; cases hf
    · rw [he]
      exact .declared rfl (.declaration _ _) rfl (.inl ht) (.refl _)
  | pass h hp => exact .phase rfl (.inl hp.phase_ne) rfl rfl (Token.isEof_of_isEdge hp.isEdge)
  | rootSemicolon h ht =>
    obtain ⟨_, hw⟩ := Session.report_warning (s := s) (p := .straySemicolon) t.loc rfl
    rw [hw]
    exact .declared h.mode (.refl _) rfl (.inl ht) (.refl _)
  | dots _ _ _ _ ht =>
    exact .phase rfl (.inl RootPhase.noConfusion) rfl rfl (Token.isEof_of_isEdge (Token.isEdge_of_spell ht (by simp)))
  | importScript _ ht => exact .declared rfl ⟨List.prefix_rfl, List.prefix_rfl, id⟩ rfl (.inl ht) (.refl _)
  | declarative _ _ _ ht =>
    have hscript : s.script.Within { s.script with declarative := true } :=
      ⟨List.prefix_rfl, List.prefix_rfl, fun h => by cases h⟩
    exact .declared rfl (hscript.trans (.declaration _ _)) rfl (.inl ht) (.refl _)
  | bareDirective _ _ ht | directive _ ht =>
    exact .declared rfl (.declaration _ _) rfl (.inl ht) (.refl _)
  | openArgs _ ht | openConstant _ ht => exact .phase rfl (.inr rfl) rfl rfl (Token.isEof_of_isSymbol ht)
  | globals _ ht => exact .declared rfl ⟨List.prefix_rfl, List.prefix_rfl, id⟩ rfl (.inl ht) (.refl _)
  | openParams _ ht => exact .phase rfl (.inl RootPhase.noConfusion) rfl rfl (Token.isEof_of_isSymbol ht)
  | openBody _ _ ht => exact .body rfl rfl rfl (Token.isEof_of_isSymbol ht)
  | scriptEnd h _ ht => exact .finished rfl h ht
  | functionEnd _ hc' =>
    rw [hc] at hc'
    cases hc'
  | expressionEnd _ _ hm => rw [hm] at hfits; cases hfits

namespace TokenStream

def passed (s : TokenStream) : List Token :=
  (s.tokens.toList.take s.cursor).filter fun t => !t.isTrivia

theorem passed_congr {a b : TokenStream} (ht : b.tokens = a.tokens) (hc : b.cursor = a.cursor) : b.passed = a.passed := by
  rw [passed, passed, ht, hc]

theorem passed_read {s : TokenStream} (h : s.cursor < s.size) :
    s.read.2.passed = if s.read.1.isTrivia then s.passed else s.passed ++ [s.read.1] := by
  have hcursor : s.read.2.cursor = s.cursor + 1 := Nat.min_eq_left h
  rw [passed, hcursor, show s.read.2.tokens = s.tokens from rfl, take_succ h, List.filter_append]
  cases ht : (s.tokenAt s.cursor).isTrivia <;> simp [passed, read, ht]

theorem Closed.passed_all {s : TokenStream} (h : s.Closed) (hc : s.cursor = s.size) :
    ∃ t ∈ s.passed.getLast?, t.isEof = true := by
  have hsplit : s.tokens.toList = s.tokens.toList.take (s.size - 1) ++ [s.tokenAt (s.size - 1)] := by
    rw [← take_succ (Nat.sub_lt s.tokens_pos Nat.one_pos), Nat.sub_add_cancel (show 1 ≤ s.size from s.tokens_pos),
      List.take_of_length_le (by simp [size])]
  have heof := h.eof
  rw [tokenAt_size] at heof
  refine ⟨s.tokenAt (s.size - 1), ?_, heof⟩
  rw [passed, hc, List.take_of_length_le (by simp [size]), hsplit, List.filter_append]
  simp [h.last_significant]

end TokenStream

namespace Session

/-- A script is being read in which no error has been, or will be, found. -/
structure Unerring (s : Session) : Prop where
  sound : s.Sound
  unfinished : s.isFinished = false
  recovery : s.recovery = none
  onTarget : s.OnTarget
  target : s.config.target = .script
  output : s.output = none
  quiet : ∀ n, (steps n s).failed = #[]
  ends : ∃ n, (steps n s).isFinished = true
  single : ∀ i < s.stream.size - 1, (s.stream.tokenAt i).isEof = false
  settled : s.AtRoot .idle → ∀ t ∈ s.stream.passed.getLast?, t.Ends

namespace Unerring

variable {s : Session}

theorem leads (h : s.Unerring) {stream : TokenStream} (hc : stream.Closed) {t : Token} {s' : Session}
    (ht : Turn { s with stream := stream } t s') (hq : s'.failed = #[]) : Leads { s with stream := stream } t s' := by
  have hsound := h.sound.withStream hc
  have hshaped := hsound.shaped (halted_of_isFinished h.unfinished)
  have hadvance := ht.advance hshaped h.recovery (by rw [hq]; exact Nat.zero_le _)
  exact hadvance.leads hshaped ⟨h.onTarget.output, h.onTarget.mode⟩ h.target h.output

theorem steps_unerring (h : s.Unerring) (n : Nat) : (steps n s).recovery = none ∧ (steps n s).halted = false ∧
    (steps n s).config = s.config ∧ (steps n s).OnTarget := by
  obtain ⟨hr, hh, hc, ho⟩ := h.sound.steps_quiet h.recovery h.onTarget n (by simp [h.quiet n])
  exact ⟨hr, hh.trans (halted_of_isFinished h.unfinished), hc, ho⟩

theorem unfinished_of_mode (h : s.Unerring) {n : Nat} (hm : (steps n s).mode ≠ .done) : (steps n s).isFinished = false := by
  simp only [isFinished, (h.steps_unerring n).2.1, Bool.false_or]

theorem step (h : s.Unerring) (hf : s.step.isFinished = false) : s.step.Unerring := by
  have hone : steps 1 s = s.step := steps_succ 0 s
  obtain ⟨hr, -, hc, ho⟩ := h.steps_unerring 1
  have hquiet (n : Nat) : steps n s.step = steps (n + 1) s := by rw [← hone, ← steps_add, Nat.add_comm]
  rw [hone] at hr hc ho
  have ht : s.step.config.target = .script := hc ▸ h.target
  have hstep := h.sound.step_tokens
  obtain ⟨n, hn⟩ := h.ends
  have hends : (steps n s.step).isFinished = true := by
    rw [hquiet, steps_succ, step_of_isFinished hn]
    exact hn
  have hsingle : ∀ i < s.step.stream.size - 1, (s.step.stream.tokenAt i).isEof = false := by
    intro i hi
    simp only [TokenStream.size, TokenStream.tokenAt, hstep] at hi ⊢
    exact h.single i hi
  have hsound := h.sound.step
  have hq (n : Nat) : (steps n s.step).failed = #[] := by rw [hquiet, h.quiet]
  obtain ⟨htrivia, he⟩ | ⟨htrivia, hturn⟩ := step_cases h.sound h.unfinished
  · have hout : s.step.output = none := by rw [he]; exact h.output
    refine ⟨hsound, hf, hr, ho, ht, hout, hq, ⟨n, hends⟩, hsingle, fun hroot => ?_⟩
    rw [he] at hroot ⊢
    have hlt := h.sound.closed.cursor_lt (Token.isEof_of_isEdge (Token.isEdge_of_isTrivia htrivia))
    show ∀ t ∈ s.stream.read.2.passed.getLast?, t.Ends
    rw [TokenStream.passed_read hlt, if_pos htrivia]
    exact h.settled ⟨hroot.recovery, hroot.expr, hroot.mode⟩
  · cases h.leads h.sound.closed.read hturn (hq 0) with
    | inside _ hi _ hout =>
      exact ⟨hsound, hf, hr, ho, ht, hout.trans h.output, hq, ⟨n, hends⟩, hsingle, fun hroot => (hi hroot).elim⟩
    | declared _ _ hout he htakes =>
      refine ⟨hsound, hf, hr, ho, ht, hout.trans h.output, hq, ⟨n, hends⟩, hsingle, fun _ => ?_⟩
      have hlt := h.sound.closed.cursor_lt he.isEof
      rw [TokenStream.passed_congr htakes.tokens htakes.cursor]
      show ∀ t ∈ s.stream.read.2.passed.getLast?, t.Ends
      rw [TokenStream.passed_read hlt, htrivia, if_neg Bool.false_ne_true, List.getLast?_append]
      rintro t' ht'
      obtain rfl : s.stream.read.1 = t' := by simpa using ht'
      exact he
    | finished hm =>
      rw [isFinished, hm, Bool.or_true] at hf
      cases hf

theorem after (h : s.Unerring) {n : Nat} (hf : (steps n s).isFinished = false) : (steps n s).Unerring := by
  induction n with
  | zero => exact h
  | succ n ih =>
    rw [steps_succ] at hf ⊢
    cases hn : (steps n s).isFinished with
    | true =>
      rw [step_of_isFinished hn, hn] at hf
      cases hf
    | false => exact (ih hn).step hf

theorem not_stuck (h : s.Unerring) (hroot : ¬ s.AtRoot .idle) (he : (s.stream.tokenAt s.stream.cursor).isEof = true) : False := by
  -- The end is delivered again and again, and the session never finishes.
  obtain ⟨n, hn⟩ := h.ends
  induction n generalizing s with
  | zero =>
    rw [steps, h.unfinished] at hn
    cases hn
  | succ n ih =>
    have hone : steps 1 s = s.step := steps_succ 0 s
    obtain ⟨htrivia, -⟩ | ⟨-, hturn⟩ := step_cases h.sound h.unfinished
    · rw [Token.isEof_of_isEdge (Token.isEdge_of_isTrivia (t := s.stream.tokenAt s.stream.cursor) htrivia)] at he
      cases he
    · rw [← hone] at hturn
      cases h.leads h.sound.closed.read hturn (h.quiet 1) with
      | inside hm hi _ _ hst =>
        refine ih (h.after (h.unfinished_of_mode hm)) hi ?_ ?_
        · rw [hst he]
          exact he
        · rwa [← steps_add, Nat.add_comm]
      | declared _ _ _ ht =>
        rw [show (s.stream.tokenAt s.stream.cursor).isEof = false from ht.isEof] at he
        cases he
      | finished _ h' => exact hroot ⟨h'.recovery, h'.expr, h'.mode⟩

theorem passed_of_eof (h : s.Unerring) (hroot : s.AtRoot .idle) {stream : TokenStream} {i : Nat} (hd : TokenStream.Delivery s.stream stream i)
    (he : (s.stream.tokenAt i).isEof = true) : s.stream.passed.length + 1 = s.stream.significantBefore s.stream.size := by
  have hclosed := h.sound.closed
  have hsize := hclosed.significantBefore_size
  have hskipped : s.stream.significantBefore i = s.stream.passed.length := hd.skipped
  have hlt : s.stream.cursor < s.stream.size := by
    refine Nat.lt_of_le_of_ne hclosed.cursor fun hc => ?_
    obtain ⟨t, ht, heof⟩ := hclosed.passed_all hc
    rw [(h.settled hroot t ht).isEof] at heof
    cases heof
  have hle : s.stream.passed.length ≤ s.stream.significantBefore (s.stream.size - 1) :=
    TokenStream.significantBefore_le (show s.stream.cursor ≤ s.stream.size - 1 by omega)
  obtain hi | hi := Nat.lt_or_ge i (s.stream.size - 1)
  · rw [h.single i hi] at he
    cases he
  · have := TokenStream.significantBefore_le (a := s.stream) hi
    omega

end Unerring

structure AtEnd (s : Session) : Prop where
  root : s.AtRoot .idle
  passed : s.stream.passed.length + 1 = s.stream.significantBefore s.stream.size

namespace Unerring

variable {s : Session}

theorem reaches_end {P : Session → Prop} (h : s.Unerring) (hp : P s)
    (hnext : ∀ s m i stream, Unerring s → P s → s.Fetches m i stream → (s.stream.tokenAt i).isEof = false →
      Unerring (steps (m + 1) s) → P (steps (m + 1) s)) :
    ∃ n, (steps n s).Unerring ∧ P (steps n s) ∧ (steps n s).AtEnd := by
  obtain ⟨n, hn⟩ := h.ends
  induction n using Nat.strongRecOn generalizing s with
  | ind n ih =>
    obtain ⟨m, i, stream, hc⟩ := exists_fetches h.unfinished h.sound.closed
    have hturn := dispatch_turn (t := s.stream.tokenAt i) (h.sound.withStream hc.closed) h.unfinished
    rw [← hc.steps] at hturn
    have hgo (he : (s.stream.tokenAt i).isEof = false) (hm : (steps (m + 1) s).mode ≠ .done) :
        ∃ n, (steps n s).Unerring ∧ P (steps n s) ∧ (steps n s).AtEnd := by
      have hf := h.unfinished_of_mode hm
      have hunerring := h.after hf
      have hlt : m + 1 < n := by
        refine Nat.lt_of_not_le fun hle => ?_
        obtain ⟨k, hk⟩ := Nat.exists_eq_add_of_le hle
        rw [hk, steps_add, steps_of_isFinished hn, hn] at hf
        cases hf
      obtain ⟨k, hk⟩ := ih (n - (m + 1)) (by omega) hunerring (hnext s m i stream h hp hc he hunerring) (by
        rwa [← steps_add, Nat.add_sub_cancel' (Nat.le_of_lt hlt)])
      rw [← steps_add] at hk
      exact ⟨m + 1 + k, hk⟩
    cases h.leads hc.closed hturn (h.quiet (m + 1)) with
    | finished _ hroot he =>
      have hroot : s.AtRoot .idle := ⟨hroot.recovery, hroot.expr, hroot.mode⟩
      exact ⟨0, h, hp, ⟨hroot, h.passed_of_eof hroot hc.delivery he⟩⟩
    | inside hm hi _ _ hst =>
      cases he : (s.stream.tokenAt i).isEof with
      | false => exact hgo he hm
      | true =>
        refine ((h.after (h.unfinished_of_mode hm)).not_stuck hi ?_).elim
        rw [hst he]
        simp only [TokenStream.defer, TokenStream.tokenAt, hc.delivery.last, hc.delivery.tokens] at he ⊢
        exact he
    | declared hm _ _ he => exact hgo he.isEof (by simp [hm])

theorem within_end (h : s.Unerring) : ∃ n, (steps n s).Unerring ∧ s.script.Within (steps n s).script ∧ (steps n s).AtEnd := by
  refine h.reaches_end (P := fun s' => s.script.Within s'.script) (.refl _) fun s' m i stream h' hp hc he _ => ?_
  have hturn := dispatch_turn (t := s'.stream.tokenAt i) (h'.sound.withStream hc.closed) h'.unfinished
  rw [← hc.steps] at hturn
  cases h'.leads hc.closed hturn (h'.quiet (m + 1)) with
  | inside _ _ hs => exact hs ▸ hp
  | declared _ hs => exact hp.trans hs
  | finished _ _ heof =>
    rw [he] at heof
    cases heof

end Unerring

theorem AtEnd.delivers {s : Session} (h : s.AtEnd) (hs : s.Sound) (hf : s.isFinished = false) (ht : s.config.target = .script) :
    ∃ n stream, steps (n + 1) s = { s with stream := stream, script := {}, output := some (.script s.script), mode := .done } := by
  obtain ⟨m, i, stream, hc⟩ := exists_fetches hf hs.closed
  have hsize := hs.closed.significantBefore_size
  have hskipped : s.stream.significantBefore i = s.stream.passed.length := hc.delivery.skipped
  have hpassed := h.passed
  have he : (s.stream.tokenAt i).isEof = true := by
    obtain hi | hi := Nat.lt_or_ge i (s.stream.size - 1)
    · have hsucc := TokenStream.significantBefore_succ (show i < s.stream.size by omega)
      rw [hc.delivery.significant, if_neg Bool.false_ne_true] at hsucc
      have := TokenStream.significantBefore_le (a := s.stream) (show i + 1 ≤ s.stream.size - 1 by omega)
      omega
    · have hlast : s.stream.tokenAt i = s.stream.tokenAt s.stream.size := by
        have hsize : s.stream.size = s.stream.tokens.size := rfl
        simp only [TokenStream.tokenAt]
        congr 1
        omega
      rw [hlast]
      exact hs.closed.eof
  refine ⟨m, stream, ?_⟩
  have hne : s.config.target ≠ .function := by simp [ht]
  simp [hc.steps, dispatch, h.root.recovery, h.root.expr, h.root.mode, rootToken, rootIdle, inRoot, isIdle, hne, he]

end Session

open Session

theorem Session.AtEnd.parse_eq {tokens : List Token} {config : ParserConfig} {s : Session} (h : s.AtEnd) (hs : s.Sound)
    (hf : s.isFinished = false) (ht : s.config.target = .script)
    (hr : ∀ n, ∃ m, steps m (ofTokens tokens config) = steps (n + 1) s) :
    parse tokens config = ⟨some (.script s.script), s.warned.toList.map Complaint.diagnostic,
      s.failed.toList.map Complaint.diagnostic, false⟩ := by
  obtain ⟨n, stream, hn⟩ := h.delivers hs hf ht
  obtain ⟨m, hm⟩ := hr n
  rw [hn] at hm
  have hfinished : (steps m (ofTokens tokens config)).isFinished = true := by rw [hm, isFinished, Bool.or_true]
  rw [parse, Reaches.run_eq ⟨m, rfl⟩ hfinished, finish_of_isFinished hfinished, hm, halted_of_isFinished hf,
    if_neg Bool.false_ne_true]

theorem closed_plain {tokens : List Token} (h : ∀ t ∈ tokens, t.isEof = false) :
    ∃ loc, TokenStream.closed tokens = tokens ++ [Token.endAt loc] := by
  unfold TokenStream.closed
  split
  · next hn =>
    rw [List.getLast?_eq_none_iff.1 hn]
    exact ⟨_, rfl⟩
  · next t ht =>
    rw [if_neg (by simp [h t (List.mem_of_getLast? ht)])]
    exact ⟨_, rfl⟩

theorem unerring_ofTokens {tokens : List Token} {config : ParserConfig} (h : (parse tokens config).errors = [])
    (ht : config.target = .script) (hp : ∀ t ∈ tokens, t.isEof = false) : (ofTokens tokens config).Unerring := by
  obtain ⟨loc, hclosed⟩ := closed_plain hp
  have hunfinished : (ofTokens tokens config).isFinished = false := by simp [ofTokens, isFinished, ht]
  refine ⟨sound_ofTokens tokens config, hunfinished, rfl, onTarget_ofTokens tokens config, ht, rfl, failed_of_errors h,
    ⟨_, run_finished tokens config⟩, fun i hi => ?_, fun _ t ht => by simp [ofTokens, TokenStream.passed, TokenStream.ofList] at ht⟩
  have htokens : (ofTokens tokens config).stream.tokens = (tokens ++ [Token.endAt loc]).toArray := congrArg List.toArray hclosed
  have hlt : i < tokens.length := by simpa [TokenStream.size, htokens] using hi
  simp only [TokenStream.tokenAt, htokens, List.size_toArray, List.length_append, List.length_singleton, Nat.add_sub_cancel,
    Nat.min_eq_left (Nat.le_of_lt hlt), List.getElem_toArray, List.getElem_append_left hlt]
  exact hp _ (List.getElem_mem hlt)

end GameScript
