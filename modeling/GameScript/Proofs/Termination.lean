import GameScript.Proofs.Moves

/-!
Every session finishes, and its cursor never goes back. The tokens that are left alone do not bound
the steps, because a token may be delivered again; what is pending makes up for it.
-/

namespace GameScript

namespace TokenStream

theorem Closed.cursor_le_read {s : TokenStream} (hs : s.Closed) : s.cursor ≤ s.read.2.cursor := by
  have := hs.cursor
  simp only [TokenStream.read]
  omega

theorem Closed.cursor_lt {s : TokenStream} (hs : s.Closed) (ht : s.read.1.isEof = false) :
    s.cursor < s.size := by
  apply Nat.lt_of_not_le
  intro hle
  have heof := hs.eof
  rw [← tokenAt_of_size_le hle] at heof
  simp only [TokenStream.read] at ht
  rw [heof] at ht
  cases ht

theorem Closed.cursor_read {s : TokenStream} (hs : s.Closed) (ht : s.read.1.isEof = false) :
    s.read.2.cursor = s.cursor + 1 := by
  have := hs.cursor_lt ht
  simp only [TokenStream.read]
  omega

theorem Takes.cursor_defer {s stream : TokenStream} {more : List Token} (h : s.read.2.Takes more stream) :
    stream.defer.cursor = s.cursor := by
  have hlast : stream.last = some s.cursor := h.last
  simp [TokenStream.defer, hlast]

theorem Takes.size {s s' : TokenStream} {more : List Token} (h : s.Takes more s') : s'.size = s.size := by
  rw [TokenStream.size, h.tokens, TokenStream.size]

theorem size_defer (s : TokenStream) : s.defer.size = s.size := by
  unfold TokenStream.defer
  split <;> rfl

end TokenStream

namespace Session

/-- An upper bound for the steps to come. -/
def pending (s : Session) : Nat :=
  4 * (s.stream.size - s.stream.cursor) + s.load

theorem load_le (s : Session) : s.load ≤ 2 * s.stmts.length + 2 := by
  have hstack (stmts : List PendingStmt) : stackLoad stmts ≤ 2 * stmts.length := by
    induction stmts with
    | nil => exact Nat.le_refl _
    | cons top rest ih =>
      have := top.load_le
      rw [stackLoad_cons, List.length_cons]
      omega
  have := hstack s.stmts
  have hrecovery := s.recovery.isSome.toNat_le
  have hexpr := s.expr.isSome.toNat_le
  rw [load]
  omega

theorem cursor_le_turn {s s' : Session} {t : Token} (hc : s.stream.Closed)
    (h : Turn { s with stream := s.stream.read.2 } t s') : s.stream.cursor ≤ s'.stream.cursor := by
  obtain ⟨more, stream, htakes, hst | hst⟩ := h.frame.stream
  · rw [hst, htakes.cursor]
    exact Nat.le_trans hc.cursor_le_read (Nat.le_add_right _ _)
  · rw [hst]
    exact Nat.le_of_eq htakes.cursor_defer.symm

theorem Sound.cursor_le_step {s : Session} (hs : s.Sound) : s.stream.cursor ≤ s.step.stream.cursor := by
  cases hf : s.isFinished with
  | true => exact Nat.le_of_eq (congrArg (·.stream.cursor) (step_of_isFinished hf).symm)
  | false =>
    obtain ⟨-, he⟩ | ⟨-, hturn⟩ := step_cases hs hf
    · rw [he]
      exact hs.closed.cursor_le_read
    · exact cursor_le_turn hs.closed hturn

theorem Sound.cursor_le_steps {s : Session} (hs : s.Sound) {m n : Nat} (h : m ≤ n) :
    (steps m s).stream.cursor ≤ (steps n s).stream.cursor := by
  induction h with
  | refl => exact Nat.le_refl _
  | @step n _ ih =>
    rw [Nat.succ_eq_add_one, steps_succ]
    exact Nat.le_trans ih (hs.after n).cursor_le_step

theorem Sound.pending_step {s : Session} (hs : s.Sound) (hf : s.isFinished = false)
    (hf' : s.step.isFinished = false) : s.step.pending < s.pending := by
  have hadvance {s' : Session} {more : List Token} (ht : s.stream.read.1.isEof = false)
      (htakes : s.stream.read.2.Takes more s'.stream) (hl : s'.load ≤ s.load + 3) : s'.pending < s.pending := by
    have hlt := hs.closed.cursor_lt ht
    have hcursor := htakes.cursor
    have hsize : s'.stream.size = s.stream.size := htakes.size
    rw [hs.closed.cursor_read ht] at hcursor
    rw [pending, pending, hsize]
    omega
  obtain ⟨ht, he⟩ | ⟨-, hturn⟩ := step_cases hs hf
  · have heof : s.stream.read.1.isEof = false := by
      simp only [Token.isTrivia, Bool.or_eq_true, beq_iff_eq] at ht
      obtain ht | ht := ht <;> simp [Token.isEof, ht]
    rw [he]
    exact hadvance heof (.refl _) (Nat.le_add_right _ _)
  · cases hturn.moves (hs.read.shaped (halted_of_isFinished hf)) with
    | halts h =>
      rw [isFinished, h] at hf'
      cases hf'
    | ends _ h =>
      rw [h] at hf'
      cases hf'
    | back htakes hst hl =>
      have hsize : s.step.stream.size = s.stream.size := by
        rw [hst, TokenStream.size_defer, htakes.size]
        rfl
      rw [pending, pending, hsize, hst, htakes.cursor_defer]
      have : s.step.load < s.load := hl
      omega
    | plain htakes ht hl => exact hadvance (Token.isEof_of_isEdge ht) htakes hl
    | opens htakes ht hl => exact hadvance (Token.isEof_of_isSymbol ht) htakes hl
    | closes htakes ht hl => exact hadvance (Token.isEof_of_isSymbol ht) htakes hl

theorem Sound.pending_steps {s : Session} (hs : s.Sound) (n : Nat) (hf : (steps n s).isFinished = false) :
    (steps n s).pending + n ≤ s.pending := by
  induction n with
  | zero => exact Nat.le_refl _
  | succ n ih =>
    rw [steps_succ] at hf ⊢
    cases hn : (steps n s).isFinished with
    | true =>
      rw [step_of_isFinished hn, hn] at hf
      cases hf
    | false =>
      have hlt := (hs.after n).pending_step hn hf
      have := ih hn
      omega

theorem Sound.steps_isFinished {s : Session} (hs : s.Sound) {n : Nat} (hn : s.pending < n) :
    (steps n s).isFinished = true := by
  cases hf : (steps n s).isFinished with
  | true => rfl
  | false =>
    have := hs.pending_steps n hf
    omega

theorem pending_lt_stepBound (s : Session) : s.pending < s.stepBound := by
  have := s.load_le
  rw [pending, stepBound]
  omega

theorem steps_add (m n : Nat) (s : Session) : steps (m + n) s = steps n (steps m s) := by
  induction n with
  | zero => rfl
  | succ n ih => rw [← Nat.add_assoc, steps_succ, steps_succ, ih]

theorem steps_of_isFinished {s : Session} (h : s.isFinished = true) (n : Nat) : steps n s = s := by
  cases n with
  | zero => rfl
  | succ n => rw [steps, if_pos h]

theorem run_finished (tokens : List Token) (config : ParserConfig) : (ofTokens tokens config).run.isFinished = true :=
  (sound_ofTokens tokens config).steps_isFinished (pending_lt_stepBound _)

theorem steps_eq_run {tokens : List Token} {config : ParserConfig} {n : Nat} (hn : (ofTokens tokens config).stepBound ≤ n) :
    steps n (ofTokens tokens config) = (ofTokens tokens config).run := by
  obtain ⟨k, rfl⟩ := Nat.exists_eq_add_of_le hn
  rw [steps_add, ← run, steps_of_isFinished (run_finished tokens config)]

theorem run_eq_steps {tokens : List Token} {config : ParserConfig} {n : Nat}
    (hf : (steps n (ofTokens tokens config)).isFinished = true) :
    (ofTokens tokens config).run = steps n (ofTokens tokens config) := by
  have hrun : steps (n + (ofTokens tokens config).stepBound) (ofTokens tokens config) = _ := steps_eq_run (Nat.le_add_left _ _)
  rw [← hrun, steps_add, steps_of_isFinished hf]

/-- Every session reaches its end, is not changed by further steps, and never goes back. -/
theorem run_isFinished (tokens : List Token) (config : ParserConfig) :
    (ofTokens tokens config).run.isFinished = true ∧
    (∀ n, (ofTokens tokens config).stepBound ≤ n →
      steps n (ofTokens tokens config) = (ofTokens tokens config).run) ∧
    ∀ n, (steps n (ofTokens tokens config)).stream.cursor ≤
      (steps n (ofTokens tokens config)).step.stream.cursor :=
  ⟨run_finished tokens config, fun _ hn => steps_eq_run hn, fun n => ((sound_ofTokens tokens config).after n).cursor_le_step⟩

end Session

end GameScript
