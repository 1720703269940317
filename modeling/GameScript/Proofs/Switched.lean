import GameScript.Proofs.Unseen

namespace GameScript

/-- What a configuration can have switched on besides its own. -/
structure Switches where
  singleQuoteStrings : Bool := false
  unknownAsLetters : Bool := false
  allowAssignmentExpressions : Bool := false
  allowDefaultWithCase : Bool := false
  breakOnFirstError : Bool := false
deriving DecidableEq, Repr

def Dialect.turnOn (d : Dialect) (w : Switches) : Dialect :=
  { d with
    singleQuoteStrings := d.singleQuoteStrings || w.singleQuoteStrings
    unknownAsLetters := d.unknownAsLetters || w.unknownAsLetters }

def ParserConfig.turnOn (config : ParserConfig) (w : Switches) : ParserConfig :=
  { config with
    dialect := config.dialect.turnOn w
    allowAssignmentExpressions := config.allowAssignmentExpressions || w.allowAssignmentExpressions
    allowDefaultWithCase := config.allowDefaultWithCase || w.allowDefaultWithCase
    breakOnFirstError := config.breakOnFirstError || w.breakOnFirstError }

namespace Switches

def complaint (w : Switches) (c : Complaint) : Complaint :=
  { c with raised := c.raised || (c.problem.severity = .error && w.breakOnFirstError) }

def Permits (w : Switches) (s : Session) : Prop :=
  (w.allowAssignmentExpressions = false ∧ w.allowDefaultWithCase = false) ∨ s.failed = #[]

theorem Permits.of_le {w : Switches} {s s' : Session} (h : w.Permits s') (hle : s.failed.size ≤ s'.failed.size) :
    w.Permits s := by
  obtain h | h := h
  · exact .inl h
  · exact .inr (Array.eq_empty_of_size_eq_zero (by simpa [h] using hle))

end Switches

namespace Session

/-- The session with further switches on, behind errors that it does not know of. -/
def switched (s : Session) (w : Switches) (prior : Array Complaint) : Session :=
  { s with
    config := s.config.turnOn w
    failed := prior ++ s.failed.map w.complaint
    halted := s.halted || (w.breakOnFirstError && !s.failed.isEmpty) }

section

variable (s : Session) (w : Switches) (prior : Array Complaint)

@[simp] theorem switched_stream : (s.switched w prior).stream = s.stream :=
  rfl

@[simp] theorem switched_mode : (s.switched w prior).mode = s.mode :=
  rfl

@[simp] theorem switched_recovery : (s.switched w prior).recovery = s.recovery :=
  rfl

@[simp] theorem switched_expr : (s.switched w prior).expr = s.expr :=
  rfl

@[simp] theorem switched_stmts : (s.switched w prior).stmts = s.stmts :=
  rfl

@[simp] theorem switched_script : (s.switched w prior).script = s.script :=
  rfl

@[simp] theorem switched_constants : (s.switched w prior).constants = s.constants :=
  rfl

@[simp] theorem switched_output : (s.switched w prior).output = s.output :=
  rfl

@[simp] theorem switched_nextId : (s.switched w prior).nextId = s.nextId :=
  rfl

@[simp] theorem switched_gameMode : (s.switched w prior).gameMode = s.gameMode :=
  rfl

@[simp] theorem switched_target : (s.switched w prior).config.target = s.config.target :=
  rfl

@[simp] theorem switched_plainName? (t : Token) : (s.switched w prior).plainName? t = s.plainName? t :=
  rfl

@[simp] theorem switched_ite {c : Prop} [Decidable c] (r : Session) :
    (if c then s else r).switched w prior = if c then s.switched w prior else r.switched w prior :=
  apply_ite (switched · w prior) c s r

@[simp] theorem switched_report (p : Problem) (loc : Location) :
    (s.switched w prior).report p loc = (s.report p loc).switched w prior := by
  cases hp : p.severity <;> cases hs : s.config.breakOnFirstError <;> cases hw : w.breakOnFirstError <;>
    simp [report, record, switched, raises, ParserConfig.turnOn, Complaint.severity, Switches.complaint, hp, hs, hw]

@[simp] theorem switched_reportUnexpected (t : Token) (expected : String) :
    (s.switched w prior).reportUnexpected t expected = (s.reportUnexpected t expected).switched w prior :=
  s.switched_report w prior _ _

@[simp] theorem switched_withNode (loc : Location) :
    (s.switched w prior).withNode loc = ((s.withNode loc).1, (s.withNode loc).2.switched w prior) :=
  rfl

@[simp] theorem switched_recoverToken (r : Recovery) (t : Token) :
    (s.switched w prior).recoverToken r t = (s.recoverToken r t).switched w prior := by
  have hsync : (s.switched w prior).isSyncKeyword t = s.isSyncKeyword t := rfl
  cases r <;> simp only [recoverToken, hsync] <;> repeat' split
  all_goals rfl

@[simp] theorem switched_enterRecovery : (s.switched w prior).enterRecovery = s.enterRecovery.switched w prior := by
  cases hm : s.mode <;> simp [enterRecovery, clearExpr, hm, switched]

@[simp] theorem switched_resync (t : Token) :
    (s.switched w prior).resync t = (s.resync t).switched w prior := by
  cases hr : s.enterRecovery.recovery <;> simp [resync, hr]

@[simp] theorem switched_rejectToken (t : Token) (expected : String) :
    (s.switched w prior).rejectToken t expected = (s.rejectToken t expected).switched w prior := by
  simp [rejectToken]

theorem switched_expect (t : Token) (expected : Char) (quiet : Bool) {next : Session → Session}
    (hnext : t.isSymbol expected = true → next (s.switched w prior) = (next s).switched w prior) :
    (s.switched w prior).expect t expected quiet next = (s.expect t expected quiet next).switched w prior := by
  unfold expect
  split
  · next ht => exact hnext ht
  · simp

@[simp] theorem switched_clearExpr : (s.switched w prior).clearExpr = s.clearExpr.switched w prior :=
  rfl

theorem failed_ne_of_report {s : Session} {p : Problem} {loc : Location} (hp : p.severity ≠ .warning) :
    (s.report p loc).failed ≠ #[] := by
  have hlt : s.failed.size < (s.report p loc).failed.size := failed_lt_report hp
  grind

theorem switched_assignTarget (x : ExprState) (op : Operator) (target : Expr) (t : Token)
    (hp : w.Permits (s.assignTarget x op target t).1) :
    (s.switched w prior).assignTarget x op target t =
      moved (switched · w prior) (s.assignTarget x op target t) := by
  have hallow : (s.switched w prior).config.allowAssignmentExpressions =
      (s.config.allowAssignmentExpressions || w.allowAssignmentExpressions) := rfl
  unfold assignTarget at hp ⊢
  rw [hallow]
  split at hp
  · next hc =>
    obtain hw | hf := hp
    · rw [hw.1, Bool.or_false, if_pos hc, if_pos hc, switched_report, switched_clearExpr]
      rfl
    · exact absurd hf (failed_ne_of_report (by simp [Problem.severity]))
  · next hc =>
    rw [if_neg hc, if_neg (by simp at hc ⊢; grind)]
    split
    · rfl
    · simp [fail, moved]

theorem switched_unseen : Unseen (switched · w prior) w.Permits where
  stream _ := rfl
  expr _ := rfl
  nextId _ := rfl
  gameMode _ := rfl
  withStream _ _ := rfl
  withExpr _ _ := rfl
  withNextId _ _ := rfl
  panic _ := rfl
  report s p loc := s.switched_report w prior p loc
  resync s t := s.switched_resync w prior t
  assignTarget s x op target t := s.switched_assignTarget w prior x op target t
  ok _ _ := id

end

end Session

end GameScript
