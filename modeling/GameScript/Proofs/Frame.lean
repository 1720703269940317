import GameScript.Proofs.Sound

namespace GameScript

namespace Session

theorem bind_eq (s : Session) (stmts : List PendingStmt) (stmt : Stmt) :
    ∃ stmts' warned failed halted, s.bind stmts stmt =
      { s with stmts := stmts', warned := warned, failed := failed, halted := halted } := by
  induction stmts generalizing stmt with
  | nil => exact ⟨_, _, _, _, rfl⟩
  | cons top rest ih =>
    unfold bind
    split
    · simp only [addToBlock]
      split
      · split
        · rw [report_eq]
          exact ⟨_, _, _, _, rfl⟩
        · exact ⟨_, _, _, _, rfl⟩
      · exact ⟨_, _, _, _, rfl⟩
    · exact ⟨_, _, _, _, rfl⟩
    · next hp =>
      split
      · next ha =>
        obtain ⟨whole, hw⟩ := Option.isSome_iff_exists.1 (PendingStmt.complete?_isSome stmt ha hp)
        rw [hw]
        exact ih _
      · exact ⟨_, _, _, _, rfl⟩

theorem finishStmt_eq (s : Session) (stmt : Stmt) : ∃ stmts warned failed halted, s.finishStmt stmt =
    { s with stmts := stmts, warned := warned, failed := failed, halted := halted } :=
  bind_eq s s.stmts stmt

theorem addLabel_eq (s : Session) (label : CaseLabel) (value : Option Value) (loc : Location) :
    ∃ stmts warned failed halted, s.addLabel label value loc =
      { s with stmts := stmts, warned := warned, failed := failed, halted := halted } := by
  unfold addLabel
  split
  · simp only
    split
    · rw [report_eq]
      exact ⟨_, _, _, _, rfl⟩
    · exact ⟨_, _, _, _, rfl⟩
  · exact ⟨_, _, _, _, rfl⟩

theorem caseValue_eq (s : Session) (e : Expr) (loc : Location) :
    ∃ stmts warned failed halted, s.caseValue e loc =
      { s with stmts := stmts, warned := warned, failed := failed, halted := halted } := by
  unfold caseValue
  simp only
  split
  · exact addLabel_eq _ _ _ _
  · rw [report_eq]
    exact addLabel_eq _ _ _ _

theorem iteratorName_eq (s : Session) (node : Node) (names : IteratorNames) (name : Ident) :
    ∃ stmts warned failed halted, s.iteratorName node names name =
      { s with stmts := stmts, warned := warned, failed := failed, halted := halted } := by
  unfold iteratorName
  simp only
  split
  · rw [report_eq]
    exact ⟨_, _, _, _, rfl⟩
  · exact ⟨_, _, _, _, rfl⟩

theorem addConstant_eq (s : Session) (loc : Location) (name : Ident) (value : Expr) :
    ∃ script constants nextId warned failed halted, s.addConstant loc name value =
      { s with
        script := script, constants := constants, nextId := nextId, warned := warned,
        failed := failed, halted := halted } := by
  unfold addConstant
  split
  · rw [report_eq]
    exact ⟨_, _, _, _, _, _, rfl⟩
  · simp only
    split
    · exact ⟨_, _, _, _, _, _, rfl⟩
    · rw [report_eq]
      exact ⟨_, _, _, _, _, _, rfl⟩

theorem defineFunction_eq (s : Session) (f : FunctionDef) :
    ∃ script output warned failed halted, s.defineFunction f =
      { s with
        script := script, output := output, warned := warned, failed := failed, halted := halted } := by
  unfold defineFunction
  split
  · exact ⟨_, _, _, _, _, rfl⟩
  split
  · rw [report_eq]
    exact ⟨_, _, _, _, _, rfl⟩
  · exact ⟨_, _, _, _, _, rfl⟩

theorem recoverToken_eq (s : Session) (r : Recovery) (t : Token) :
    ∃ stream recovery, (stream = s.stream ∨ stream = s.stream.defer) ∧
      s.recoverToken r t = { s with stream := stream, recovery := recovery } := by
  unfold recoverToken
  split
  · split
    · exact ⟨_, _, .inl rfl, rfl⟩
    split
    · exact ⟨_, _, .inr rfl, rfl⟩
    · exact ⟨_, _, .inl rfl, rfl⟩
  · split
    · exact ⟨_, _, .inr rfl, rfl⟩
    split
    · exact ⟨_, _, .inl rfl, rfl⟩
    split
    · exact ⟨_, _, .inl rfl, rfl⟩
    split
    · exact ⟨_, _, .inl rfl, rfl⟩
    · exact ⟨_, _, .inl rfl, rfl⟩

theorem enterRecovery_eq (s : Session) : ∃ mode recovery stmts, s.enterRecovery =
    { s with mode := mode, recovery := recovery, stmts := stmts, expr := none } := by
  unfold enterRecovery
  simp only [clearExpr]
  split <;> exact ⟨_, _, _, rfl⟩

theorem resync_eq (s : Session) (t : Token) : ∃ stream mode recovery stmts,
    (stream = s.stream ∨ stream = s.stream.defer) ∧ s.resync t =
      { s with
        stream := stream, mode := mode, recovery := recovery, stmts := stmts, expr := none } := by
  obtain ⟨mode, recovery, stmts, he⟩ := s.enterRecovery_eq
  unfold resync
  simp only
  split
  · next r hr =>
    obtain ⟨stream, recovery', hs, ht⟩ := s.enterRecovery.recoverToken_eq r t
    rw [ht, he]
    rw [he] at hs
    exact ⟨_, _, _, _, hs, rfl⟩
  · rw [he]
    exact ⟨_, _, _, _, .inl rfl, rfl⟩

theorem enterRecovery_stmts (s : Session) : s.enterRecovery.stmts <:+ s.stmts := by
  unfold enterRecovery
  simp only [clearExpr]
  split
  · exact List.dropWhile_suffix _
  all_goals exact List.suffix_rfl

theorem resync_stmts (s : Session) (t : Token) : (s.resync t).stmts <:+ s.stmts := by
  unfold resync
  simp only
  split
  · obtain ⟨_, _, -, he⟩ := s.enterRecovery.recoverToken_eq _ t
    rw [he]
    exact s.enterRecovery_stmts
  · exact s.enterRecovery_stmts

end Session

inductive NextExpr (s : Session) (t : Token) : Option ExprState → Prop
  | none : NextExpr s t none
  | same : NextExpr s t s.expr
  | fresh (context : ExprContext) : NextExpr s t (some (Session.fresh context))
  | shift {x y : ExprState} {more : List Token} {stream : TokenStream} {id : Nat} (hx : s.Reading t x)
      (hs : s.stream.Takes more stream) (h : Shift s.config s.nextId x (t :: more) id y) :
      NextExpr s t (some { y with started := true })
  | truncate {x y : ExprState} {id : Nat} (hx : s.Reading t x) (h : Truncates s.nextId x id y) :
      NextExpr s t (some { y with started := true })

theorem NextExpr.map {s : Session} {t : Token} (context : Option ExprContext) :
    NextExpr s t (context.map Session.fresh) := by
  cases context with
  | none => exact .none
  | some c => exact .fresh c

/-- What every turn has in common: it may take further tokens, and it may leave the current one. -/
structure Frame (s : Session) (t : Token) (s' : Session) : Prop where
  stream : ∃ more stream, s.stream.Takes more stream ∧ (s'.stream = stream ∨ s'.stream = stream.defer)
  config : s'.config = s.config
  panicked : s'.panicked = s.panicked
  expr : NextExpr s t s'.expr

theorem Turn.frame {s s' : Session} {t : Token} (h : Turn s t s') : Frame s t s' := by
  have hstay : ∃ more stream, s.stream.Takes more stream ∧ (s.stream = stream ∨ s.stream = stream.defer) :=
    ⟨[], s.stream, .refl _, .inl rfl⟩
  have hdefer : ∃ more stream, s.stream.Takes more stream ∧
      (s.stream.defer = stream ∨ s.stream.defer = stream.defer) :=
    ⟨[], s.stream, .refl _, .inr rfl⟩
  cases h with
  | skip hr =>
    obtain ⟨stream, recovery, hs, he⟩ := s.recoverToken_eq _ t
    rw [he]
    exact ⟨⟨[], s.stream, .refl _, hs⟩, rfl, rfl, .same⟩
  | shift hx hs h => exact ⟨⟨_, _, hs, .inl rfl⟩, rfl, rfl, .shift hx hs h⟩
  | truncate hx h hf =>
    obtain ⟨⟨_, _, _, rfl⟩, -⟩ := hf
    exact ⟨hstay, rfl, rfl, .truncate hx h⟩
  | halt _ hs _ hf =>
    obtain ⟨⟨_, _, _, rfl⟩, -⟩ := hf
    exact ⟨hs.imp fun _ h => ⟨_, h, .inl rfl⟩, rfl, rfl, .none⟩
  | dropStmt _ _ hs _ hf | dropHeader _ _ _ _ hs _ hf | dropConstant _ _ hs _ hf =>
    obtain ⟨⟨_, _, _, rfl⟩, -⟩ := hf
    exact ⟨⟨_, _, hs, .inl rfl⟩, rfl, rfl, .none⟩
  | reject _ hs _ hf =>
    obtain ⟨⟨_, _, _, rfl⟩, -⟩ := hf
    obtain ⟨more, hs⟩ := hs
    obtain ⟨stream, mode, recovery, stmts, hst, he⟩ := Session.resync_eq _ t
    rw [he]
    exact ⟨⟨_, _, hs, hst⟩, rfl, rfl, .none⟩
  | exprStmt _ _ _ he | keywordCall _ _ _ he =>
    obtain ⟨_, _, _, _, _, hs, -, rfl⟩ := he.same
    obtain ⟨_, _, _, _, hb⟩ := Session.finishStmt_eq _ _
    rw [hb]
    exact ⟨⟨_, _, hs, .inl rfl⟩, rfl, rfl, .none⟩
  | supply _ _ _ _ he =>
    obtain ⟨_, _, _, _, _, hs, -, rfl⟩ := he.same
    exact ⟨⟨_, _, hs, .inl rfl⟩, rfl, rfl, .none⟩
  | @clause _ _ _ _ clause _ _ _ _ _ _ he =>
    obtain ⟨_, _, _, _, _, hs, -, rfl⟩ := he.same
    refine ⟨⟨_, _, hs, .inl rfl⟩, rfl, rfl, ?_⟩
    cases clause with
    | step => exact .none
    | first | condition => exact .fresh _
  | caseValue _ _ _ he =>
    obtain ⟨_, _, _, _, _, hs, -, rfl⟩ := he.same
    obtain ⟨_, _, _, _, hb⟩ := Session.caseValue_eq _ _ _
    rw [hb]
    exact ⟨⟨_, _, hs, .inl rfl⟩, rfl, rfl, .none⟩
  | constant _ _ he =>
    obtain ⟨_, _, _, _, _, hs, -, rfl⟩ := he.same
    obtain ⟨_, _, _, _, _, _, hb⟩ := Session.addConstant_eq _ _ _ _
    rw [hb]
    exact ⟨⟨_, _, hs, .inl rfl⟩, rfl, rfl, .none⟩
  | nextArg _ _ he =>
    obtain ⟨_, _, _, _, _, hs, -, rfl⟩ := he.same
    exact ⟨⟨_, _, hs, .inl rfl⟩, rfl, rfl, .fresh _⟩
  | closeArgs _ _ he | whole _ _ _ he =>
    obtain ⟨_, _, _, _, _, hs, -, rfl⟩ := he.same
    exact ⟨⟨_, _, hs, .inl rfl⟩, rfl, rfl, .none⟩
  | spoilWhole _ _ _ _ hs _ hf =>
    obtain ⟨⟨_, _, _, rfl⟩, -⟩ := hf
    exact ⟨⟨_, _, hs, .inl rfl⟩, rfl, rfl, .none⟩
  | openHeader => exact ⟨hstay, rfl, rfl, .map _⟩
  | iterator =>
    obtain ⟨_, _, _, _, hb⟩ := Session.iteratorName_eq s _ _ _
    rw [hb]
    exact ⟨hstay, rfl, rfl, .same⟩
  | iterators | openCall | openCase | openArgs | openConstant => exact ⟨hstay, rfl, rfl, .fresh _⟩
  | nextIterator | openSwitch | elseBranch | openBlock | openStmt | openFlow | openDefault | pass
  | importScript | declarative | bareDirective | directive | globals | openParams | openBody =>
    exact ⟨hstay, rfl, rfl, .same⟩
  | flow | closeBlock =>
    obtain ⟨_, _, _, _, hb⟩ := Session.finishStmt_eq _ _
    rw [hb]
    exact ⟨hstay, rfl, rfl, .same⟩
  | noElse =>
    obtain ⟨_, _, _, _, hb⟩ := Session.finishStmt_eq _ _
    rw [hb]
    exact ⟨hdefer, rfl, rfl, .same⟩
  | defaultLabel =>
    obtain ⟨_, _, _, _, hb⟩ := Session.addLabel_eq _ _ _ _
    rw [hb]
    exact ⟨hstay, rfl, rfl, .same⟩
  | misplace _ hf =>
    obtain ⟨⟨_, _, _, rfl⟩, -⟩ := hf
    obtain ⟨_, _, _, he⟩ := Session.enterRecovery_eq _
    rw [he]
    exact ⟨hstay, rfl, rfl, .none⟩
  | straySemicolon | rootSemicolon =>
    rw [Session.report_eq]
    exact ⟨hstay, rfl, rfl, .same⟩
  | emptyBody =>
    rw [Session.report_eq, Session.bindEmptyBody]
    obtain ⟨_, _, _, _, hb⟩ := Session.finishStmt_eq _ _
    simp only
    rw [hb]
    exact ⟨hstay, rfl, rfl, .same⟩
  | missBody _ _ _ hf =>
    obtain ⟨⟨_, _, _, rfl⟩, -⟩ := hf
    rw [Session.bindEmptyBody]
    obtain ⟨_, _, _, _, hb⟩ := Session.finishStmt_eq _ _
    simp only
    rw [hb]
    exact ⟨hdefer, rfl, rfl, .same⟩
  | @closeSwitch _ labels statements switch _ rest =>
    obtain ⟨_, _, _, hn⟩ := Session.noteSwitch_eq { s with stmts := rest } switch labels statements t
    obtain ⟨_, _, _, _, hb⟩ := Session.finishStmt_eq _ _
    rw [hb, hn]
    exact ⟨hstay, rfl, rfl, .same⟩
  | closeFunction | declare =>
    obtain ⟨_, _, _, _, _, hd⟩ := Session.defineFunction_eq _ _
    rw [hd]
    exact ⟨hstay, rfl, rfl, .same⟩
  | unbalanced _ _ hf | noExpression _ _ _ hf =>
    obtain ⟨⟨_, _, _, rfl⟩, -⟩ := hf
    exact ⟨hstay, rfl, rfl, .same⟩
  | spoil _ hs hf =>
    obtain ⟨⟨_, _, _, rfl⟩, -⟩ := hf
    exact ⟨hs.imp fun _ h => ⟨_, h, .inl rfl⟩, rfl, rfl, .same⟩
  | dots _ _ _ hs => exact ⟨⟨_, _, hs, .inl rfl⟩, rfl, rfl, .same⟩
  | scriptEnd _ _ hf =>
    obtain ⟨-, rfl⟩ | ⟨⟨_, _, _, rfl⟩, -⟩ := hf <;> exact ⟨hstay, rfl, rfl, .same⟩
  | functionEnd _ _ hf =>
    obtain ⟨-, rfl, -⟩ | ⟨⟨_, _, _, rfl⟩, -⟩ := hf <;> exact ⟨hstay, rfl, rfl, .same⟩
  | expressionEnd _ _ _ hf =>
    obtain ⟨rfl, -⟩ | ⟨⟨_, _, _, rfl⟩, -⟩ := hf <;> exact ⟨hstay, rfl, rfl, .same⟩

theorem Frame.tokens {s s' : Session} {t : Token} (h : Frame s t s') : s'.stream.tokens = s.stream.tokens := by
  obtain ⟨more, stream, hs, he⟩ := h.stream
  rw [← hs.tokens]
  obtain he | he := he <;> rw [he]
  unfold TokenStream.defer
  split <;> rfl

/-! Soundness along a run -/

theorem Shift.begun {config : ParserConfig} {id id' : Nat} {x y : ExprState} {ts : List Token}
    (h : Shift config id x ts id' y) : y.stack ≠ [] ∨ y.slot.isSome = true := by
  cases h with
  | openArgs =>
    unfold Session.openCall
    split <;> simp
  | _ => simp [ExprState.push, ExprState.close]

theorem Truncates.begun {id id' : Nat} {x y : ExprState} (h : Truncates id x id' y) :
    y.stack ≠ [] ∨ y.slot.isSome = true := by
  obtain ⟨_, _, _, _, _, _, -, -, -, -, rfl⟩ := h.folds
  exact .inr rfl

namespace TokenStream

theorem tokenAt_mem (s : TokenStream) (i : Nat) : s.tokenAt i ∈ s.tokens.toList := by
  simp [tokenAt]

theorem Takes.mem {s s' : TokenStream} {more : List Token} (h : s.Takes more s') : ∀ t ∈ more, t ∈ s.tokens.toList := by
  intro t ht
  rw [h.read] at ht
  obtain ⟨i, -, rfl⟩ := List.mem_map.1 ht
  exact s.tokenAt_mem _

theorem take_succ {s : TokenStream} {i : Nat} (h : i < s.size) :
    s.tokens.toList.take (i + 1) = s.tokens.toList.take i ++ [s.tokenAt i] := by
  have hi : i < s.tokens.toList.length := by simpa [size] using h
  rw [List.take_succ_eq_append_getElem hi]
  simp only [tokenAt, Array.getElem_toList, size] at *
  congr
  omega

theorem drop_eq_cons {s : TokenStream} {i : Nat} (h : i < s.size) :
    s.tokens.toList.drop i = s.tokenAt i :: s.tokens.toList.drop (i + 1) := by
  have hi : i < s.tokens.toList.length := by simpa [size] using h
  rw [List.drop_eq_getElem_cons hi]
  congr 1
  simp only [tokenAt, Array.getElem_toList, size] at *
  congr
  omega

theorem upcoming_succ (s : TokenStream) (n : Nat) :
    s.upcoming (n + 1) = s.upcoming n ++ [s.tokenAt (s.cursor + n)] := by
  simp [upcoming, List.range_succ]

theorem take_upcoming {s : TokenStream} {n : Nat} (h : s.cursor + n ≤ s.size) :
    s.tokens.toList.take (s.cursor + n) = s.tokens.toList.take s.cursor ++ s.upcoming n := by
  induction n with
  | zero => simp [upcoming]
  | succ n ih =>
    rw [upcoming_succ, ← List.append_assoc, ← ih (by omega), ← Nat.add_assoc, take_succ (by omega)]

theorem Takes.closed {s s' : TokenStream} {more : List Token} (h : s.Takes more s') (hc : s.Closed) :
    s'.Closed := by
  have hsize : s'.size = s.size := by simp [size, h.tokens]
  refine ⟨?_, ?_, ?_⟩
  · rw [hsize]
    exact h.within hc.cursor
  · rw [hsize]
    have := hc.eof
    simp only [tokenAt, h.tokens] at this ⊢
    exact this
  · rw [hsize, h.last]
    exact hc.last

theorem Closed.defer {s : TokenStream} (hc : s.Closed) : s.defer.Closed := by
  unfold TokenStream.defer
  split
  · next i hi => exact ⟨hc.last i hi, hc.eof, by simp⟩
  · exact hc

theorem Closed.read {s : TokenStream} (hc : s.Closed) : s.read.2.Closed := by
  refine ⟨?_, hc.eof, ?_⟩
  · simp only [TokenStream.read, size]
    omega
  · simp only [TokenStream.read, Option.mem_some_iff, forall_eq']
    exact hc.cursor

end TokenStream

namespace Session

theorem closed_ofList (tokens : List Token) : (TokenStream.ofList tokens).Closed := by
  refine ⟨Nat.zero_le _, ?_, by simp [TokenStream.ofList]⟩
  have hlast : ∃ t, (TokenStream.closed tokens).getLast? = some t ∧ t.isEof = true := by
    unfold TokenStream.closed
    split
    · exact ⟨_, rfl, rfl⟩
    · next t ht =>
      split
      · next he => exact ⟨t, ht, he⟩
      · exact ⟨Token.endAt t.stop, by simp, rfl⟩
  obtain ⟨t, ht, he⟩ := hlast
  rw [List.getLast?_eq_getElem?] at ht
  have hlen := TokenStream.closed_length_pos tokens
  have hget : (TokenStream.ofList tokens).tokenAt (TokenStream.ofList tokens).size = t := by
    obtain ⟨hi, hv⟩ := List.getElem?_eq_some_iff.1 ht
    simp only [TokenStream.tokenAt, TokenStream.ofList, TokenStream.size, List.size_toArray,
      List.getElem_toArray]
    rw [← hv]
    congr 1
    omega
  rw [hget]
  exact he

theorem sound_ofTokens (tokens : List Token) (config : ParserConfig) : (ofTokens tokens config).Sound := by
  refine ⟨fun _ => ?_, by simp [ofTokens], closed_ofList tokens⟩
  cases ht : config.target with
  | expression => exact .expression (by simp [ofTokens, ht]) rfl rfl (by simp [ofTokens])
  | _ => exact .root (show _ = Mode.root .idle by simp [ofTokens, ht]) rfl rfl rfl

theorem Sound.turn {s s' : Session} {t : Token} (hs : s.Sound) (hf : s.halted = false) (h : Turn s t s') :
    s'.Sound := by
  obtain ⟨⟨more, stream, htakes, hst⟩, -, -, hexpr⟩ := h.frame
  refine ⟨h.shaped (hs.shaped hf), ?_, ?_⟩
  · generalize s'.expr = expr at hexpr ⊢
    cases hexpr with
    | none => simp
    | same => exact hs.begun
    | fresh => simp [fresh]
    | shift _ _ h =>
      rintro _ ⟨⟩ -
      exact h.begun
    | truncate _ h =>
      rintro _ ⟨⟩ -
      exact h.begun
  · have hc := htakes.closed hs.closed
    obtain hst | hst := hst <;> rw [hst]
    · exact hc
    · exact hc.defer

theorem Sound.withStream {s : Session} (hs : s.Sound) {stream : TokenStream} (hc : stream.Closed) :
    { s with stream := stream }.Sound :=
  ⟨fun hh => (hs.shaped hh).congr rfl rfl rfl rfl, hs.begun, hc⟩

theorem Sound.read {s : Session} (hs : s.Sound) : { s with stream := s.stream.read.2 }.Sound :=
  hs.withStream hs.closed.read

theorem halted_of_isFinished {s : Session} (h : s.isFinished = false) : s.halted = false := by
  simp only [isFinished, Bool.or_eq_false_iff] at h
  exact h.1

theorem step_cases {s : Session} (hs : s.Sound) (hf : s.isFinished = false) :
    (s.stream.read.1.isTrivia = true ∧ s.step = { s with stream := s.stream.read.2 }) ∨
      (s.stream.read.1.isTrivia = false ∧
        Turn { s with stream := s.stream.read.2 } s.stream.read.1 s.step) := by
  unfold step
  simp only [hf, Bool.false_eq_true, if_false]
  split
  · next ht => exact .inl ⟨ht, rfl⟩
  · next ht => exact .inr ⟨by simpa using ht, dispatch_turn hs.read hf⟩

theorem step_of_isFinished {s : Session} (h : s.isFinished = true) : s.step = s :=
  if_pos h

theorem Sound.step {s : Session} (hs : s.Sound) : s.step.Sound := by
  cases hf : s.isFinished with
  | true => rwa [step_of_isFinished hf]
  | false =>
    obtain ⟨-, h⟩ | ⟨-, h⟩ := step_cases hs hf
    · rw [h]
      exact hs.read
    · exact hs.read.turn (halted_of_isFinished hf) h

theorem steps_succ (n : Nat) (s : Session) : steps (n + 1) s = (steps n s).step := by
  induction n generalizing s with
  | zero =>
    simp only [steps]
    split
    · next h => exact (step_of_isFinished h).symm
    · rfl
  | succ n ih =>
    rw [steps]
    split
    · next h => rw [steps, if_pos h, step_of_isFinished h]
    · next h => rw [ih s.step, steps, if_neg h]

theorem Sound.after {s : Session} (hs : s.Sound) (n : Nat) : (steps n s).Sound := by
  induction n with
  | zero => exact hs
  | succ n ih =>
    rw [steps_succ]
    exact ih.step

/-- What holds at the start and is kept by every step of a sound session holds after all steps. -/
theorem steps_induction {P : Session → Prop} {s : Session} (hs : s.Sound) (h : P s)
    (hskip : ∀ s, s.Sound → P s → s.stream.read.1.isTrivia = true → P { s with stream := s.stream.read.2 })
    (hturn : ∀ s s', s.Sound → s.isFinished = false → P s → s.stream.read.1.isTrivia = false →
      Turn { s with stream := s.stream.read.2 } s.stream.read.1 s' → P s') (n : Nat) : P (steps n s) := by
  induction n with
  | zero => exact h
  | succ n ih =>
    rw [steps_succ]
    cases hf : (steps n s).isFinished with
    | true => rwa [step_of_isFinished hf]
    | false =>
      obtain ⟨hr, he⟩ | ⟨hr, ht⟩ := step_cases (hs.after n) hf
      · rw [he]
        exact hskip _ (hs.after n) ih hr
      · exact hturn _ _ (hs.after n) hf ih hr ht

theorem run_induction {P : Session → Prop} {s : Session} (hs : s.Sound) (h : P s)
    (hskip : ∀ s, s.Sound → P s → s.stream.read.1.isTrivia = true → P { s with stream := s.stream.read.2 })
    (hturn : ∀ s s', s.Sound → s.isFinished = false → P s → s.stream.read.1.isTrivia = false →
      Turn { s with stream := s.stream.read.2 } s.stream.read.1 s' → P s') : P s.run :=
  steps_induction hs h hskip hturn s.stepBound

theorem finish_of_isFinished {s : Session} (hf : s.isFinished = true) : s.finish =
    ⟨if s.halted then none else s.output, s.warned.toList.map Complaint.diagnostic,
      s.failed.toList.map Complaint.diagnostic, s.halted⟩ := by
  unfold finish
  cases hh : s.halted with
  | true => simp [warnings, errors]
  | false => simp [hf, warnings, errors]

theorem finish_graph {s : Session} {g : Graph} (h : s.finish.graph = some g) : s.output = some g := by
  unfold finish at h
  split at h
  · cases h
  split at h
  · exact h
  · cases h

end Session

end GameScript
