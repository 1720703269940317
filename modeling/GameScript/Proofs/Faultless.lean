import GameScript.Proofs.Advance
import GameScript.Proofs.Termination

namespace GameScript

namespace Session

variable {s : Session}

theorem Sound.le_failed_step (hs : s.Sound) : s.failed.size ≤ s.step.failed.size := by
  cases hf : s.isFinished with
  | true => exact Nat.le_of_eq (by rw [step_of_isFinished hf])
  | false =>
    obtain ⟨-, he⟩ | ⟨-, hturn⟩ := step_cases hs hf
    · exact Nat.le_of_eq (by rw [he])
    · exact hturn.le_failed

theorem Sound.le_failed_steps (hs : s.Sound) {m n : Nat} (h : m ≤ n) :
    (steps m s).failed.size ≤ (steps n s).failed.size := by
  induction h with
  | refl => exact Nat.le_refl _
  | @step n _ ih =>
    rw [Nat.succ_eq_add_one, steps_succ]
    exact Nat.le_trans ih (hs.after n).le_failed_step

/-- The next token of the session is in its place, and an expression that it ends is not given up. -/
structure Faultless (s : Session) : Prop where
  recovery : s.recovery = none
  advance : s.isFinished = false → s.stream.read.1.isTrivia = false →
    Advance { s with stream := s.stream.read.2 } s.stream.read.1 s.step
  complete : s.isFinished = false → s.stream.read.1.isTrivia = false →
    ∀ x, Reading { s with stream := s.stream.read.2 } s.stream.read.1 x →
    ∀ completed ∈ completes? { s with stream := s.stream.read.2 } x s.stream.read.1, completed.isFailed = false

theorem Sound.faultless (hs : s.Sound) (hr : s.recovery = none) (hf : s.step.failed.size ≤ s.failed.size) :
    s.Faultless := by
  refine ⟨hr, fun hfin htrivia => ?_, fun hfin htrivia x hx completed hcompleted => ?_⟩
  · obtain ⟨ht, -⟩ | ⟨-, hturn⟩ := step_cases hs hfin
    · rw [htrivia] at ht
      cases ht
    · exact hturn.advance (hs.read.shaped (halted_of_isFinished hfin)) hr hf
  · have hclosed := hs.closed.read
    cases hx with
    | @further x _ hx =>
      refine completes?_feedExpr hclosed hx (hs.begun x (show s.expr = some x from hx)) ?_ hcompleted
      have hstep : s.step = feedExpr { s with stream := s.stream.read.2 } s.stream.read.1 := by
        have hx' : s.expr = some x := hx
        simp [Session.step, hfin, htrivia, dispatch, hr, hx']
      rwa [hstep] at hf
    | statement | whole => exact completes?_fresh hclosed hcompleted

theorem Sound.steps_quiet (hs : s.Sound) (hr : s.recovery = none) (ho : s.OnTarget) (n : Nat)
    (hf : (steps n s).failed.size = 0) :
    (steps n s).recovery = none ∧ (steps n s).halted = s.halted ∧ (steps n s).config = s.config ∧
      (steps n s).OnTarget := by
  refine steps_advances (P := fun b => b.halted = s.halted ∧ b.config = s.config ∧ b.OnTarget) hs hr ⟨rfl, rfl, ho⟩
    ?_ ?_ n hf
  · exact fun b _ ⟨hh, hc, ho⟩ _ => ⟨hh, hc, ho.output, ho.mode⟩
  · intro b b' _ _ ⟨hh, hc, ho⟩ _ hturn hadvance
    exact ⟨hadvance.calm.2.1.trans hh, hturn.frame.config.trans hc, hadvance.onTarget ⟨ho.output, ho.mode⟩⟩

theorem onTarget_ofTokens (tokens : List Token) (config : ParserConfig) : (ofTokens tokens config).OnTarget := by
  refine ⟨by simp [ofTokens], ?_⟩
  cases ht : config.target <;> simp [ofTokens, Mode.Fits, ht]

theorem errors_finish (hf : s.isFinished = true) : s.finish.errors = s.errors.toList := by
  unfold finish
  cases s.halted with
  | true => rfl
  | false => rw [if_neg Bool.false_ne_true, if_pos hf]

theorem failed_of_errors {tokens : List Token} {config : ParserConfig} (h : (parse tokens config).errors = []) (n : Nat) :
    (steps n (ofTokens tokens config)).failed = #[] := by
  have hfin := run_finished tokens config
  have hzero : (ofTokens tokens config).run.failed.size = 0 := by
    simpa [parse, errors_finish hfin, errors] using h
  have hle := (sound_ofTokens tokens config).le_failed_steps (Nat.le_max_left n (ofTokens tokens config).stepBound)
  rw [steps_eq_run (Nat.le_max_right ..), hzero] at hle
  exact Array.size_eq_zero_iff.1 (Nat.le_zero.1 hle)

end Session

open Session

/-- If there is no error to show, the parse has come to the end of the input with a tree of the right
kind, and nothing went wrong before. -/
theorem parse_without_errors {tokens : List Token} {config : ParserConfig}
    (h : (parse tokens config).errors = []) :
    (parse tokens config).halted = false ∧
    (∃ g, (parse tokens config).graph = some g ∧ g.target = config.target) ∧
    ∀ n, (steps n (ofTokens tokens config)).Faultless := by
  have hs := sound_ofTokens tokens config
  have hfin := run_finished tokens config
  have hquiet (n : Nat) : (steps n (ofTokens tokens config)).failed.size = 0 := by rw [failed_of_errors h, Array.size_empty]
  have hcalm (n : Nat) := hs.steps_quiet rfl (onTarget_ofTokens tokens config) n (hquiet n)
  obtain ⟨-, hhalted, hconfig, hon⟩ := hcalm (ofTokens tokens config).stepBound
  rw [← run] at hhalted hconfig hon
  have hh : (ofTokens tokens config).run.halted = false := hhalted
  refine ⟨?_, ?_, fun n => (hs.after n).faultless (hcalm n).1 ?_⟩
  · simp [parse, finish, hh, hfin]
  · have hmode := hon.mode
    simp only [isFinished, hh, Bool.false_or] at hfin
    split at hfin
    · next hdone =>
      rw [hdone] at hmode
      obtain ⟨g, hg⟩ := Option.isSome_iff_exists.1 hmode
      exact ⟨g, by simp [parse, finish, isFinished, hh, hdone, hg], (hon.output g hg).trans (by rw [hconfig]; rfl)⟩
    · cases hfin
  · rw [← steps_succ, hquiet]
    exact Nat.zero_le _

theorem parse_without_errors_return :
    let tokens : List Token :=
      [⟨.identifier, "f", .start⟩, ⟨.symbol, "(", ⟨1, 2, 1⟩⟩, ⟨.symbol, ")", ⟨1, 3, 2⟩⟩,
        ⟨.symbol, "\x7b", ⟨1, 4, 3⟩⟩, ⟨.identifier, "return", ⟨1, 5, 4⟩⟩, ⟨.symbol, ";", ⟨1, 11, 10⟩⟩,
        ⟨.symbol, "\x7d", ⟨1, 12, 11⟩⟩]
    (parse tokens {}).errors = [] ∧
      (∃ g, (parse tokens {}).graph = some g ∧ g.target = .script) ∧
      ∀ n, (steps n (ofTokens tokens {})).Faultless := by
  intro tokens
  have h : (parse tokens {}).errors = [] := by decide +kernel
  exact ⟨h, (parse_without_errors h).2⟩

end GameScript
