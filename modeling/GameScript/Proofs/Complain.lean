import GameScript.Parser.Step

namespace GameScript

namespace Session

theorem report_eq (s : Session) (p : Problem) (loc : Location) :
    s.report p loc =
      { s with
        warned := (s.report p loc).warned, failed := (s.report p loc).failed,
        halted := (s.report p loc).halted } := by
  unfold report record
  split <;> rfl

@[simp] theorem report_stream (s : Session) (p : Problem) (loc : Location) :
    (s.report p loc).stream = s.stream := by
  rw [report_eq]

@[simp] theorem report_config (s : Session) (p : Problem) (loc : Location) :
    (s.report p loc).config = s.config := by
  rw [report_eq]

@[simp] theorem report_mode (s : Session) (p : Problem) (loc : Location) :
    (s.report p loc).mode = s.mode := by
  rw [report_eq]

@[simp] theorem report_recovery (s : Session) (p : Problem) (loc : Location) :
    (s.report p loc).recovery = s.recovery := by
  rw [report_eq]

@[simp] theorem report_expr (s : Session) (p : Problem) (loc : Location) :
    (s.report p loc).expr = s.expr := by
  rw [report_eq]

@[simp] theorem report_stmts (s : Session) (p : Problem) (loc : Location) :
    (s.report p loc).stmts = s.stmts := by
  rw [report_eq]

@[simp] theorem report_script (s : Session) (p : Problem) (loc : Location) :
    (s.report p loc).script = s.script := by
  rw [report_eq]

@[simp] theorem report_constants (s : Session) (p : Problem) (loc : Location) :
    (s.report p loc).constants = s.constants := by
  rw [report_eq]

@[simp] theorem report_output (s : Session) (p : Problem) (loc : Location) :
    (s.report p loc).output = s.output := by
  rw [report_eq]

@[simp] theorem report_nextId (s : Session) (p : Problem) (loc : Location) :
    (s.report p loc).nextId = s.nextId := by
  rw [report_eq]

theorem report_withStmts (s : Session) (stmts : List PendingStmt) (p : Problem) (loc : Location) :
    { s with stmts := stmts }.report p loc = { s.report p loc with stmts := stmts } := by
  cases h : Complaint.severity ⟨p, loc, raises s.config p⟩ <;> simp [report, record, h]

theorem report_withMode (s : Session) (mode : Mode) (p : Problem) (loc : Location) :
    { s with mode := mode }.report p loc = { s.report p loc with mode := mode } := by
  cases h : Complaint.severity ⟨p, loc, raises s.config p⟩ <;> simp [report, record, h]

theorem report_withOutput (s : Session) (output : Option Graph) (p : Problem) (loc : Location) :
    { s with output := output }.report p loc = { s.report p loc with output := output } := by
  cases h : Complaint.severity ⟨p, loc, raises s.config p⟩ <;> simp [report, record, h]

theorem severity_complaint (config : ParserConfig) (p : Problem) (loc : Location) :
    Complaint.severity ⟨p, loc, raises config p⟩ =
      if p.severity = .error ∧ config.breakOnFirstError = true then .fatal else p.severity := by
  simp [Complaint.severity, raises]

theorem report_halted {s : Session} {p : Problem} {loc : Location} (hp : p.severity = .fatal) :
    (s.report p loc).halted = true := by
  simp [report, record, severity_complaint, hp]

theorem failed_report (s : Session) (p : Problem) (loc : Location) :
    s.failed.size ≤ (s.report p loc).failed.size := by
  unfold report record
  split <;> simp

theorem failed_lt_report {s : Session} {p : Problem} {loc : Location} (hp : p.severity ≠ .warning) :
    s.failed.size < (s.report p loc).failed.size := by
  have hc : Complaint.severity ⟨p, loc, raises s.config p⟩ ≠ .warning := by
    rw [severity_complaint]
    split
    · simp
    · exact hp
  unfold report record
  split
  · next h => exact absurd h hc
  · simp
  · simp

end Session

structure Fails (s s' : Session) : Prop where
  same : ∃ warned failed halted, s' = { s with warned := warned, failed := failed, halted := halted }
  grows : s.failed.size < s'.failed.size

namespace Fails

theorem report {s : Session} {p : Problem} (loc : Location) (hp : p.severity ≠ .warning) :
    Fails s (s.report p loc) :=
  ⟨⟨_, _, _, s.report_eq p loc⟩, Session.failed_lt_report hp⟩

theorem andReport {s s' : Session} (h : Fails s s') (p : Problem) (loc : Location) :
    Fails s (s'.report p loc) := by
  obtain ⟨⟨warned, failed, halted, rfl⟩, hg⟩ := h
  refine ⟨⟨_, _, _, Session.report_eq _ p loc⟩, Nat.lt_of_lt_of_le hg (Session.failed_report _ p loc)⟩

theorem trans {s s' s'' : Session} (h : Fails s s') (h' : Fails s' s'') : Fails s s'' := by
  obtain ⟨⟨warned, failed, halted, rfl⟩, hg⟩ := h
  obtain ⟨⟨warned', failed', halted', rfl⟩, hg'⟩ := h'
  exact ⟨⟨warned', failed', halted', rfl⟩, Nat.lt_trans hg hg'⟩

theorem withStmts {s s' : Session} (h : Fails s s') (stmts : List PendingStmt) :
    Fails { s with stmts := stmts } { s' with stmts := stmts } := by
  obtain ⟨⟨warned, failed, halted, rfl⟩, hg⟩ := h
  exact ⟨⟨warned, failed, halted, rfl⟩, hg⟩

theorem withMode {s s' : Session} (h : Fails s s') (mode : Mode) :
    Fails { s with mode := mode } { s' with mode := mode } := by
  obtain ⟨⟨warned, failed, halted, rfl⟩, hg⟩ := h
  exact ⟨⟨warned, failed, halted, rfl⟩, hg⟩

theorem withExpr {s s' : Session} (h : Fails s s') (expr : Option ExprState) :
    Fails { s with expr := expr } { s' with expr := expr } := by
  obtain ⟨⟨warned, failed, halted, rfl⟩, hg⟩ := h
  exact ⟨⟨warned, failed, halted, rfl⟩, hg⟩

end Fails

namespace Session

theorem expr_enterRecovery (s : Session) : s.enterRecovery.expr = none := by
  unfold enterRecovery
  simp only
  split <;> rfl

theorem expr_resync (s : Session) (t : Token) : (s.resync t).expr = none := by
  have h := s.expr_enterRecovery
  unfold resync
  simp only
  split
  · unfold recoverToken
    split <;> repeat' split
    all_goals simp [h, defer]
  · exact h

theorem resync_header {s : Session} {top : PendingStmt} {rest : List PendingStmt}
    {header : FunctionHeader} (hm : s.mode = .body header) (hs : s.stmts = top :: rest)
    (ht : top.inHeader = true) (t : Token) : { s with stmts := rest }.resync t = s.resync t := by
  simp [resync, enterRecovery, clearExpr, hm, hs, ht]

theorem resync_root {s : Session} {phase : RootPhase} (hm : s.mode = .root phase) (t : Token) :
    (s.inRoot .idle).resync t = s.resync t := by
  simp [resync, enterRecovery, clearExpr, inRoot, hm]

end Session

end GameScript
