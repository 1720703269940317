import GameScript.Proofs.Faultless
import GameScript.Proofs.SwitchedBody

/-!
A parse that ends with its first error. It goes as the parse that does not, up to the first step that
reports an error; what that step reports is all that it has to show.
-/

namespace GameScript

namespace Session

variable {s : Session} {w : Switches} {prior : Array Complaint}

theorem isFinished_switched (h : w.breakOnFirstError = false ∨ s.failed = #[]) :
    (s.switched w prior).isFinished = s.isFinished := by
  have hh : (s.switched w prior).halted = s.halted := by
    obtain h | h := h <;> simp [switched, h]
  simp only [isFinished, hh, switched_mode]

theorem Sound.switched_step (hs : s.Sound) (h : w.breakOnFirstError = false ∨ s.failed = #[]) (hp : w.Permits s.step) :
    (s.switched w prior).step = s.step.switched w prior := by
  have hle := hs.le_failed_step
  unfold Session.step at hp hle ⊢
  rw [isFinished_switched h]
  cases hf : s.isFinished with
  | true => rfl
  | false =>
    simp only [hf, Bool.false_eq_true, if_false, switched_stream] at hp hle ⊢
    by_cases ht : s.stream.read.1.isTrivia = true
    · simp only [ht, if_true]
      rfl
    · simp only [ht, Bool.false_eq_true, if_false] at hp hle ⊢
      exact switched_dispatch { s with stream := s.stream.read.2 } w prior _ hs.closed.read (hp.of_le hle) hp

theorem Sound.switched_steps (hs : s.Sound) {n : Nat} (hf : (steps n s).failed = #[]) :
    steps n (s.switched w prior) = (steps n s).switched w prior := by
  induction n with
  | zero => rfl
  | succ n ih =>
    have hle := hs.le_failed_steps (Nat.le_succ n)
    rw [Nat.succ_eq_add_one, hf] at hle
    have hn : (steps n s).failed = #[] := Array.size_eq_zero_iff.1 (Nat.le_zero.1 hle)
    rw [steps_succ] at hf
    rw [steps_succ, steps_succ, ih hn]
    exact (hs.after n).switched_step (.inr hn) (.inr hf)

theorem Sound.failed_step (hs : s.Sound) : s.failed.toList <+: s.step.failed.toList := by
  cases hf : s.isFinished with
  | true => exact (step_of_isFinished hf).symm ▸ List.prefix_rfl
  | false =>
    -- A session without the errors so far takes the same step, and reports behind nothing.
    let bare : Session := { s with failed := #[] }
    have hsound : bare.Sound := ⟨fun h => (hs.shaped h).congr rfl rfl rfl rfl, hs.begun, hs.closed⟩
    have hself : s = bare.switched {} s.failed := by
      simp [bare, switched, ParserConfig.turnOn, Dialect.turnOn]
    have hstep : (bare.switched {} s.failed).step = bare.step.switched {} s.failed :=
      hsound.switched_step (.inl rfl) (.inl ⟨rfl, rfl⟩)
    rw [← hself] at hstep
    rw [hstep]
    simp [switched]

theorem Sound.failed_steps (hs : s.Sound) {m n : Nat} (h : m ≤ n) :
    (steps m s).failed.toList <+: (steps n s).failed.toList := by
  induction h with
  | refl => exact List.prefix_rfl
  | @step n _ ih =>
    rw [Nat.succ_eq_add_one, steps_succ]
    exact ih.trans (hs.after n).failed_step

theorem exists_first_error (h₀ : s.failed = #[]) {n : Nat} (h : (steps n s).failed ≠ #[]) :
    ∃ m < n, (steps m s).failed = #[] ∧ (steps (m + 1) s).failed ≠ #[] := by
  induction n with
  | zero => exact (h h₀).elim
  | succ n ih =>
    by_cases hn : (steps n s).failed = #[]
    · exact ⟨n, Nat.lt_succ_self n, hn, h⟩
    · obtain ⟨m, hm, h⟩ := ih hn
      exact ⟨m, Nat.lt_succ_of_lt hm, h⟩

end Session

def Diagnostic.raise (d : Diagnostic) : Diagnostic :=
  if d.severity = .error then { d with severity := .fatal } else d

theorem Switches.diagnostic_complaint {w : Switches} (hw : w.breakOnFirstError = true) (c : Complaint) :
    (w.complaint c).diagnostic = c.diagnostic.raise := by
  cases hr : c.raised <;> cases hs : c.problem.severity <;>
    simp [Switches.complaint, Complaint.diagnostic, Complaint.severity, Diagnostic.raise, hw, hr, hs]

namespace Session

theorem errors_switched {s : Session} {w : Switches} (hw : w.breakOnFirstError = true) :
    (s.switched w #[]).errors.toList = s.errors.toList.map Diagnostic.raise := by
  simp [errors, switched, Switches.diagnostic_complaint hw]

theorem ofTokens_switched (tokens : List Token) (config : ParserConfig) (w : Switches) :
    ofTokens tokens (config.turnOn w) = (ofTokens tokens config).switched w #[] := by
  simp [ofTokens, switched, ParserConfig.turnOn]

theorem errors_eq_empty {s : Session} : s.errors = #[] ↔ s.failed = #[] := by
  simp [errors]

end Session

open Session

theorem parse_turnOn {tokens : List Token} {config : ParserConfig} (w : Switches)
    (h : (parse tokens config).errors = []) : parse tokens (config.turnOn w) = parse tokens config := by
  have hfin := run_finished tokens config
  have hf : (ofTokens tokens config).run.failed = #[] := failed_of_errors h _
  have hrun : (ofTokens tokens (config.turnOn w)).run = (ofTokens tokens config).run.switched w #[] := by
    rw [ofTokens_switched]
    exact (sound_ofTokens tokens config).switched_steps hf
  rw [parse, parse, hrun, finish_of_isFinished hfin, finish_of_isFinished ((isFinished_switched (.inr hf)).trans hfin)]
  simp [switched, hf]

theorem run_breaks {tokens : List Token} {config : ParserConfig} {w : Switches} (hw : w.breakOnFirstError = true)
    (hallow : w.allowAssignmentExpressions = false ∧ w.allowDefaultWithCase = false) {n : Nat}
    (hn : (steps n (ofTokens tokens config)).failed = #[])
    (hn' : (steps (n + 1) (ofTokens tokens config)).failed ≠ #[]) :
    (ofTokens tokens (config.turnOn w)).run = (steps (n + 1) (ofTokens tokens config)).switched w #[] ∧
      ((steps (n + 1) (ofTokens tokens config)).switched w #[]).halted = true := by
  have hs := sound_ofTokens tokens config
  have hsteps : steps (n + 1) (ofTokens tokens (config.turnOn w)) =
      (steps (n + 1) (ofTokens tokens config)).switched w #[] := by
    rw [ofTokens_switched, steps_succ, steps_succ, hs.switched_steps hn]
    exact (hs.after n).switched_step (.inr hn) (.inl hallow)
  have hhalted : ((steps (n + 1) (ofTokens tokens config)).switched w #[]).halted = true := by
    simp [switched, hw, hn']
  refine ⟨?_, hhalted⟩
  rw [← hsteps]
  exact run_eq_steps (by rw [hsteps, isFinished, hhalted, Bool.true_or])

/-- If no error is met, it makes no difference that the first one would have ended the parse. Otherwise
the parse breaks behind the first step that reports errors, and what this step reports is all that it
shows, raised to fatal errors. -/
theorem parse_breaks (tokens : List Token) (config : ParserConfig) :
    let lasting := parse tokens { config with breakOnFirstError := false }
    let broken := parse tokens { config with breakOnFirstError := true }
    (lasting.errors = [] → broken = lasting) ∧
    (lasting.errors ≠ [] → broken.halted = true ∧ broken.graph = none ∧
      ∃ n, let before := steps n (ofTokens tokens { config with breakOnFirstError := false })
        before.errors = #[] ∧ before.step.errors ≠ #[] ∧
        before.step.errors.toList <+: lasting.errors ∧
        broken.errors = before.step.errors.toList.map Diagnostic.raise) := by
  have hconfig : { config with breakOnFirstError := true } =
      { config with breakOnFirstError := false }.turnOn { breakOnFirstError := true } := by
    simp [ParserConfig.turnOn, Dialect.turnOn]
  generalize { config with breakOnFirstError := false } = config at hconfig ⊢
  intro lasting broken
  have hbroken : broken = parse tokens (config.turnOn { breakOnFirstError := true }) := by rw [← hconfig]
  refine ⟨fun h => hbroken.trans (parse_turnOn _ h), fun h => ?_⟩
  have hfin := run_finished tokens config
  have herrors : lasting.errors = (ofTokens tokens config).run.errors.toList := errors_finish hfin
  have hrun : (ofTokens tokens config).run.failed ≠ #[] := by
    intro hf
    exact h (by rw [herrors, errors_eq_empty.2 hf])
  obtain ⟨n, hlt, hn, hn'⟩ := exists_first_error (s := ofTokens tokens config) rfl hrun
  obtain ⟨he, hhalted⟩ := run_breaks (w := { breakOnFirstError := true }) rfl ⟨rfl, rfl⟩ hn hn'
  have hfinish : broken = ((steps (n + 1) (ofTokens tokens config)).switched { breakOnFirstError := true } #[]).finish := by
    rw [hbroken, parse, he]
  have hfin' : ((steps (n + 1) (ofTokens tokens config)).switched { breakOnFirstError := true } #[]).isFinished = true := by
    rw [isFinished, hhalted, Bool.true_or]
  rw [finish_of_isFinished hfin'] at hfinish
  refine ⟨by rw [hfinish, hhalted], by rw [hfinish, hhalted]; rfl, n, errors_eq_empty.2 hn, ?_, ?_, ?_⟩
  · rw [← steps_succ]
    exact mt errors_eq_empty.1 hn'
  · rw [← steps_succ, herrors, errors, errors, Array.toList_map, Array.toList_map]
    exact ((sound_ofTokens tokens config).failed_steps hlt).map Complaint.diagnostic
  · rw [← steps_succ, hbroken, parse, he, errors_finish hfin', errors_switched rfl]

/-- One step can report more than one error: a statement without effect that has no semicolon, either. -/
theorem statement_breaks_twice :
    let tokens : List Token := [⟨.identifier, "f", .start⟩, ⟨.symbol, "(", ⟨1, 2, 1⟩⟩, ⟨.symbol, ")", ⟨1, 3, 2⟩⟩,
      ⟨.whitespace, " ", ⟨1, 4, 3⟩⟩, ⟨.symbol, "\x7b", ⟨1, 5, 4⟩⟩, ⟨.whitespace, " ", ⟨1, 6, 5⟩⟩,
      ⟨.identifier, "a", ⟨1, 7, 6⟩⟩, ⟨.whitespace, " ", ⟨1, 8, 7⟩⟩, ⟨.symbol, "\x7d", ⟨1, 9, 8⟩⟩,
      Token.endAt ⟨1, 10, 9⟩]
    let lasting := parse tokens { breakOnFirstError := false }
    let broken := parse tokens { breakOnFirstError := true }
    lasting.errors =
        [(Problem.noEffect "a").diagnose ⟨1, 7, 6⟩, Problem.missingSemicolon.diagnose ⟨1, 9, 8⟩] ∧
      broken.halted = true ∧ broken.errors = lasting.errors.map Diagnostic.raise ∧
      broken.errors ≠ (lasting.errors.take 1).map Diagnostic.raise := by
  intro tokens lasting broken
  have hlasting : lasting.errors =
      [(Problem.noEffect "a").diagnose ⟨1, 7, 6⟩, Problem.missingSemicolon.diagnose ⟨1, 9, 8⟩] := by decide +kernel
  have hbroken : broken.halted = true ∧ broken.errors = lasting.errors.map Diagnostic.raise := by decide +kernel
  refine ⟨hlasting, hbroken.1, hbroken.2, fun h => ?_⟩
  rw [h, hlasting] at hbroken
  cases hbroken.2

end GameScript
