import GameScript.Proofs.Frame

namespace GameScript

namespace Session

section

variable {s : Session} {n : Nat}

theorem le_failed_report (p : Problem) (loc : Location) (h : n ≤ s.failed.size) :
    n ≤ (s.report p loc).failed.size :=
  Nat.le_trans h (s.failed_report p loc)

theorem le_failed_finishStmt (stmt : Stmt) (h : n ≤ s.failed.size) : n ≤ (s.finishStmt stmt).failed.size := by
  suffices hb : ∀ stmts stmt, n ≤ (s.bind stmts stmt).failed.size from hb s.stmts stmt
  intro stmts
  induction stmts with
  | nil => exact fun _ => h
  | cons top rest ih =>
    intro stmt
    unfold bind
    split
    · simp only [addToBlock]
      split
      · split
        · exact le_failed_report _ _ h
        · exact h
      · exact h
    · exact h
    · split
      · split
        · exact ih _
        · exact h
      · exact h

theorem le_failed_addLabel (label : CaseLabel) (value : Option Value) (loc : Location)
    (h : n ≤ s.failed.size) : n ≤ (s.addLabel label value loc).failed.size := by
  unfold addLabel
  split
  · simp only
    split
    · exact le_failed_report _ _ h
    · exact h
  · exact h

theorem le_failed_caseValue (e : Expr) (loc : Location) (h : n ≤ s.failed.size) :
    n ≤ (s.caseValue e loc).failed.size := by
  unfold caseValue
  simp only
  split
  · exact le_failed_addLabel _ _ _ h
  · exact le_failed_addLabel _ _ _ (le_failed_report _ _ h)

theorem le_failed_iteratorName (node : Node) (names : IteratorNames) (name : Ident)
    (h : n ≤ s.failed.size) : n ≤ (s.iteratorName node names name).failed.size := by
  unfold iteratorName
  simp only
  split
  · exact le_failed_report _ _ h
  · exact h

theorem le_failed_addConstant (loc : Location) (name : Ident) (value : Expr) (h : n ≤ s.failed.size) :
    n ≤ (s.addConstant loc name value).failed.size := by
  unfold addConstant
  split
  · exact le_failed_report _ _ h
  · simp only
    split
    · exact h
    · exact le_failed_report _ _ h

theorem le_failed_defineFunction (f : FunctionDef) (h : n ≤ s.failed.size) :
    n ≤ (s.defineFunction f).failed.size := by
  unfold defineFunction
  split
  · exact h
  split
  · exact le_failed_report _ _ h
  · exact h

theorem le_failed_noteSwitch (switch : Node) (labels : SwitchLabels) (statements : List Stmt) (t : Token)
    (h : n ≤ s.failed.size) : n ≤ (s.noteSwitch switch labels statements t).failed.size := by
  unfold noteSwitch
  simp only
  split <;> split
  · exact le_failed_report _ _ (le_failed_report _ _ h)
  · exact le_failed_report _ _ h
  · exact le_failed_report _ _ h
  · exact h

theorem failed_resync (s : Session) (t : Token) : (s.resync t).failed = s.failed := by
  obtain ⟨_, _, _, _, -, he⟩ := s.resync_eq t
  rw [he]

theorem failed_recoverToken (s : Session) (r : Recovery) (t : Token) : (s.recoverToken r t).failed = s.failed := by
  obtain ⟨_, _, -, he⟩ := s.recoverToken_eq r t
  rw [he]

theorem failed_enterRecovery (s : Session) : s.enterRecovery.failed = s.failed := by
  obtain ⟨_, _, _, he⟩ := s.enterRecovery_eq
  rw [he]

theorem failed_defer (s : Session) : s.defer.failed = s.failed := rfl

end

end Session

theorem Fails.le {s s' : Session} (h : Fails s s') : s.failed.size ≤ s'.failed.size :=
  Nat.le_of_lt h.grows

theorem Ends.le_failed {s s' : Session} {x : ExprState} {completed : Completed} (h : Ends s x s' completed) :
    s.failed.size ≤ s'.failed.size := by
  cases h with
  | value | empty => exact Nat.le_refl _
  | failed _ _ hf => exact hf.le

theorem Supplies.le_failed {s s' : Session} {x : ExprState} {e : Expr} (h : Supplies s x s' e) :
    s.failed.size ≤ s'.failed.size := by
  cases h with
  | given h => exact h.le_failed
  | missing _ _ hf => exact hf.le

theorem Turn.le_failed {s s' : Session} {t : Token} (h : Turn s t s') : s.failed.size ≤ s'.failed.size := by
  cases h with
  | skip => exact Nat.le_of_eq (congrArg Array.size (Session.failed_recoverToken _ _ _).symm)
  | reject _ _ _ hf =>
    rw [Session.failed_resync]
    exact hf.le
  | misplace _ hf =>
    rw [Session.failed_enterRecovery]
    exact hf.le
  | truncate _ _ hf | halt _ _ _ hf | dropStmt _ _ _ _ hf | dropHeader _ _ _ _ _ _ hf
  | dropConstant _ _ _ _ hf | spoilWhole _ _ _ _ _ _ hf | unbalanced _ _ hf | spoil _ _ hf
  | noExpression _ _ _ hf => exact hf.le
  | exprStmt _ _ _ he | keywordCall _ _ _ he => exact Session.le_failed_finishStmt _ he.le_failed
  | supply _ _ _ _ he => exact he.le_failed
  | clause _ _ _ he | nextArg _ _ he | closeArgs _ _ he | whole _ _ _ he => exact he.le_failed
  | caseValue _ _ _ he => exact Session.le_failed_caseValue _ _ he.le_failed
  | constant _ _ he => exact Session.le_failed_addConstant _ _ _ he.le_failed
  | iterator => exact Session.le_failed_iteratorName _ _ _ (Nat.le_refl _)
  | flow | closeBlock => exact Session.le_failed_finishStmt _ (Nat.le_refl _)
  | noElse =>
    rw [Session.failed_defer]
    exact Session.le_failed_finishStmt _ (Nat.le_refl _)
  | defaultLabel => exact Session.le_failed_addLabel _ _ _ (Nat.le_refl _)
  | straySemicolon | rootSemicolon => exact Session.failed_report _ _ _
  | emptyBody => exact Session.le_failed_finishStmt _ (Session.failed_report _ _ _)
  | missBody _ _ _ hf =>
    rw [Session.failed_defer]
    exact Session.le_failed_finishStmt _ hf.le
  | closeSwitch =>
    exact Session.le_failed_finishStmt _ (Session.le_failed_noteSwitch _ _ _ _ (Nat.le_refl _))
  | closeFunction | declare => exact Session.le_failed_defineFunction _ (Nat.le_refl _)
  | scriptEnd _ _ hf =>
    obtain ⟨-, rfl⟩ | hf := hf
    · exact Nat.le_refl _
    · exact hf.le
  | functionEnd _ _ hf =>
    obtain ⟨-, rfl, -⟩ | hf := hf
    · exact Nat.le_refl _
    · exact hf.le
  | expressionEnd _ _ _ hf =>
    obtain ⟨rfl, -⟩ | hf := hf
    · exact Nat.le_refl _
    · exact hf.le
  | _ => exact Nat.le_refl _

end GameScript
