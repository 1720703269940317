import GameScript.Proofs.Turn

namespace GameScript

namespace Session

theorem missing_fails {s : Session} {x : ExprState} {p : PendingExpr → Bool} {t : Token} {q : Problem}
    (h : s.foldWhile x p t = .error q) : q.severity = .error := by
  unfold foldWhile at h
  split at h
  · cases h
  · split at h
    · split at h
      · cases h
        rfl
      · split at h <;> cases h
    · cases h

theorem finishExpr_ends {s : Session} {x y : ExprState} {stream : TokenStream} {id : Nat}
    (hs : s.stream.Takes [] stream)
    (hy : id = s.nextId ∧ y = x ∨ Folds PendingExpr.isOperator s.nextId x id y)
    (hx : x.started = true → x.stack ≠ [] ∨ x.slot.isSome = true) (expr : Option ExprState) (t : Token) :
    Ends s x ({ s with stream := stream, nextId := id, expr := expr }.finishExpr y t).1
      ({ s with stream := stream, nextId := id, expr := expr }.finishExpr y t).2 := by
  have hle : s.nextId ≤ id := by
    rcases hy with ⟨rfl, -⟩ | hf
    · exact Nat.le_refl _
    · exact hf.le
  unfold finishExpr
  simp only [clearExpr]
  split
  · next p hp =>
    have hsev := missing_fails hp
    exact .failed hs hle (Fails.report _ (by simp [hsev]))
  · next s' z hz =>
    obtain ⟨id', rfl, hle', hz⟩ := foldWhile_folds (fun _ h => h) hz
    simp only at hle' hz
    have hxz : Folds PendingExpr.isOperator s.nextId x id' z := by
      rcases hy with ⟨rfl, rfl⟩ | hf
      · exact hz
      · exact hf.trans hz
    split
    · exact .failed hs (Nat.le_trans hle hle') (Fails.report _ (by simp [Problem.severity]))
    · next hstack =>
      split
      · next e he => exact .value hs hxz hstack he
      · next hn =>
        have hxn : x.slot = none := by
          cases hxs : x.slot with
          | none => rfl
          | some e =>
            have := hxz.slot_isSome (by simp [hxs])
            simp [hn] at this
        obtain ⟨rfl, rfl⟩ := hxz.eq_of_none hxn
        have hstart : z.started = false := by
          refine Bool.eq_false_iff.2 fun hst => ?_
          rcases hx hst with h | h
          · exact h hstack
          · simp [hn] at h
        simp only [hstart]
        exact .empty hs hstack hn

end Session

namespace Ends

variable {s s₁ s₂ : Session} {x : ExprState} {completed : Completed}

theorem same (he : Ends s x s₁ completed) : ∃ stream id warned failed halted, s.stream.Takes [] stream ∧
    s.nextId ≤ id ∧ s₁ = { s with
      stream := stream, nextId := id, expr := none, warned := warned, failed := failed,
      halted := halted } := by
  cases he with
  | value hs hz => exact ⟨_, _, _, _, _, hs, hz.le, rfl⟩
  | empty hs => exact ⟨_, _, _, _, _, hs, Nat.le_refl _, rfl⟩
  | failed hs hi hf =>
    obtain ⟨⟨warned, failed, halted, rfl⟩, -⟩ := hf
    exact ⟨_, _, _, _, _, hs, hi, rfl⟩

theorem fails (he : Ends s x s₁ completed) (hf : completed.isFailed = true ∧ s₂ = s₁ ∨ Fails s₁ s₂) :
    ∃ stream, s.stream.Takes [] stream ∧ s.nextId ≤ s₁.nextId ∧
      Fails { s with stream := stream, nextId := s₁.nextId, expr := none } s₂ := by
  cases he with
  | @value stream id _ _ hs hz =>
    obtain ⟨hc, -⟩ | hf := hf
    · cases hc
    · exact ⟨stream, hs, hz.le, hf⟩
  | @empty stream hs =>
    obtain ⟨hc, -⟩ | hf := hf
    · cases hc
    · exact ⟨stream, hs, Nat.le_refl _, hf⟩
  | @failed stream id _ hs hi hf' =>
    have hnext : s₁.nextId = id := by
      obtain ⟨⟨_, _, _, rfl⟩, -⟩ := hf'
      rfl
    subst hnext
    obtain ⟨-, rfl⟩ | hf := hf
    · exact ⟨stream, hs, hi, hf'⟩
    · exact ⟨stream, hs, hi, hf'.trans hf⟩

end Ends

theorem Supplies.same {s s₁ : Session} {x : ExprState} {e : Expr} (h : Supplies s x s₁ e) :
    ∃ stream id warned failed halted, s.stream.Takes [] stream ∧ s.nextId ≤ id ∧ s₁ = { s with
      stream := stream, nextId := id, expr := none, warned := warned, failed := failed,
      halted := halted } := by
  cases h with
  | given he => exact he.same
  | missing hs hi hf =>
    obtain ⟨⟨_, _, _, rfl⟩, -⟩ := hf
    exact ⟨_, _, _, _, _, hs, Nat.le_succ_of_le hi, rfl⟩

theorem Supplies.stmts_eq {s s₁ : Session} {x : ExprState} {e : Expr} (h : Supplies s x s₁ e) :
    s₁.stmts = s.stmts := by
  obtain ⟨_, _, _, _, _, -, -, rfl⟩ := h.same
  rfl

namespace Turn

variable {s s₁ s₂ : Session} {t : Token} {x : ExprState} {completed : Completed}

theorem reject_end (hx : s.Reading t x) (he : Ends s x s₁ completed)
    (hf : completed.isFailed = true ∧ s₂ = s₁ ∨ Fails s₁ s₂) : Turn s t (s₂.resync t) := by
  obtain ⟨stream, hs, hi, hf⟩ := he.fails hf
  exact .reject (.inl ⟨x, hx⟩) ⟨_, hs⟩ hi hf

theorem reject_header {header : FunctionHeader} {top : PendingStmt} {rest : List PendingStmt}
    (hx : s.Reading t x) (he : Ends s x s₁ completed) (hm : s.mode = .body header)
    (hst : s.stmts = top :: rest) (htop : top.inHeader = true)
    (hf : completed.isFailed = true ∧ s₂ = s₁ ∨ Fails s₁ s₂) :
    Turn s t ({ s₂ with stmts := rest }.resync t) := by
  obtain ⟨hmode, hstmts⟩ : s₂.mode = s.mode ∧ s₂.stmts = s.stmts := by
    obtain ⟨stream, -, -, hf⟩ := he.fails hf
    obtain ⟨⟨_, _, _, rfl⟩, -⟩ := hf
    exact ⟨rfl, rfl⟩
  rw [Session.resync_header (hmode.trans hm) (hstmts.trans hst) htop]
  exact reject_end hx he hf

theorem reject_root {phase : RootPhase} (hx : s.Reading t x) (he : Ends s x s₁ completed)
    (hm : s.mode = .root phase) (hf : completed.isFailed = true ∧ s₂ = s₁ ∨ Fails s₁ s₂) :
    Turn s t ((s₂.inRoot .idle).resync t) := by
  have hmode : s₂.mode = s.mode := by
    obtain ⟨stream, -, -, hf⟩ := he.fails hf
    obtain ⟨⟨_, _, _, rfl⟩, -⟩ := hf
    rfl
  rw [Session.resync_root (hmode.trans hm)]
  exact reject_end hx he hf

end Turn

namespace Session

variable {s s₁ : Session} {t : Token} {x : ExprState} {completed : Completed}

theorem plainName?_isEdge {name : Ident} (h : s.plainName? t = some name) : t.isEdge = false := by
  unfold plainName? at h
  split at h
  · next hp => exact Token.isEdge_of_kind (by simp [hp.1]) (by simp [hp.1])
  · cases h

theorem wrongTerminator_severity (t : Token) (c : Char) :
    (wrongTerminator t c).severity ≠ .warning := by
  unfold wrongTerminator
  split <;> simp [Problem.severity]

theorem statementDone_turn (hx : s.Reading t x) (hc : x.context = .statement)
    (hm : ∃ header, s.mode = .body header) (he : Ends s x s₁ completed) :
    Turn s t (s₁.statementDone completed t) := by
  unfold statementDone
  split
  · next e =>
    split
    · next hf =>
      unfold expect
      split
      · next ht => exact .exprStmt hx hc hm he hf ht
      · exact .reject_end hx he (.inr (Fails.report _ (wrongTerminator_severity t _)))
    · have hf := Fails.report (s := s₁) (p := .noEffect e.text) e.loc (by simp [Problem.severity])
      unfold expect
      split
      · next ht =>
        obtain ⟨stream, hs, hi, hf⟩ := he.fails (.inr hf)
        exact .dropStmt hx hc hs hi hf ht
      · exact .reject_end hx he (.inr (hf.andReport _ _))
  · exact .reject_end hx he (.inr (Fails.report _ (by simp [Problem.severity])))
  · unfold expect
    split
    · next ht =>
      obtain ⟨stream, hs, hi, hf⟩ := he.fails (.inl ⟨rfl, rfl⟩)
      exact .dropStmt hx hc hs hi hf ht
    · exact .reject_end hx he (.inl ⟨rfl, rfl⟩)

theorem required_turn {missing : Problem} {next : Session → Expr → Session}
    (hmiss : missing.severity ≠ .warning) (hx : s.Reading t x) (he : Ends s x s₁ completed)
    (h : ∀ s₂ e, Supplies s x s₂ e → t.isSymbol ')' = true → Turn s t (next s₂ e)) :
    Turn s t (s₁.required completed t missing next) := by
  unfold required
  simp only
  unfold expect
  cases completed with
  | value e =>
    simp only [Completed.isFailed]
    split
    · next ht => exact h _ _ (.given he) ht
    · exact .reject_end hx he (.inr (Fails.report _ (wrongTerminator_severity t _)))
  | empty =>
    have hf := Fails.report (s := s₁) (p := missing) t.loc hmiss
    simp only [Completed.isFailed]
    split
    · next ht =>
      obtain ⟨stream, hs, hi, hf⟩ := he.fails (.inr hf)
      exact h _ _ (.missing hs hi hf) ht
    · exact .reject_end hx he (.inr (hf.andReport _ _))
  | failed =>
    simp only [Completed.isFailed]
    split
    · next ht =>
      obtain ⟨stream, hs, hi, hf⟩ := he.fails (.inl ⟨rfl, rfl⟩)
      exact h _ _ (.missing hs hi hf) ht
    · exact .reject_end hx he (.inl ⟨rfl, rfl⟩)

theorem conditionDone_turn {top : PendingStmt} {rest : List PendingStmt} (hx : s.Reading t x)
    (hst : s.stmts = top :: rest) (htop : top.reads = some .condition) (hc : x.context = .condition)
    (he : Ends s x s₁ completed) : Turn s t (s₁.conditionDone completed t) := by
  refine required_turn (by simp [Problem.severity]) hx he fun s₂ e hs₂ ht => ?_
  have hst₂ := hs₂.stmts_eq.trans hst
  have hsupply {top' : PendingStmt} (h : top.supplied? e = some top') :
      Turn s t (s₂.replaceStmt top') := by
    have := Turn.supply hx hst (htop.trans (congrArg some hc.symm)) ht hs₂ h
    simpa [replaceStmt, hst₂] using this
  obtain ⟨-, node, rfl | rfl | rfl⟩ | h | h | h | h := PendingStmt.reads_cases htop
  · simpa only [hst₂] using hsupply rfl
  · simpa only [hst₂] using hsupply rfl
  · simpa only [hst₂] using hsupply rfl
  all_goals simp at h

theorem collectionDone_turn {top : PendingStmt} {rest : List PendingStmt} (hx : s.Reading t x)
    (hst : s.stmts = top :: rest) (htop : top.reads = some .foreachCollection)
    (hc : x.context = .foreachCollection) (he : Ends s x s₁ completed) :
    Turn s t (s₁.collectionDone completed t) := by
  refine required_turn (by simp [Problem.severity]) hx he fun s₂ e hs₂ ht => ?_
  have hst₂ := hs₂.stmts_eq.trans hst
  obtain h | h | ⟨-, node, key, value, rfl⟩ | h | h := PendingStmt.reads_cases htop
  · simp at h
  · simp at h
  · have := Turn.supply hx hst (by rw [hc]; rfl) ht hs₂ rfl
    simpa [replaceStmt, hst₂] using this
  · simp at h
  · simp at h

theorem forClauseDone_turn {clause : ForClause} {top : PendingStmt} {rest : List PendingStmt}
    (hx : s.Reading t x) (hst : s.stmts = top :: rest) (htop : top.reads = some (.forClause clause))
    (hc : x.context = .forClause clause) (he : Ends s x s₁ completed) :
    Turn s t (s₁.forClauseDone clause completed t) := by
  obtain ⟨node, first, condition, rfl⟩ : ∃ node first condition,
      top = .forLoop node (.clause clause first condition) := by
    simpa using PendingStmt.reads_cases htop
  have hst₁ : s₁.stmts = .forLoop node (.clause clause first condition) :: rest := by
    obtain ⟨_, _, _, _, _, -, -, rfl⟩ := he.same
    exact hst
  have hexpr : s₁.expr = none := by
    obtain ⟨_, _, _, _, _, -, -, rfl⟩ := he.same
    rfl
  unfold forClauseDone
  rw [expect]
  by_cases ht : t.isSymbol (if clause = .step then ')' else ';') = true
  · rw [if_pos ht]
    have := Turn.clause hx hst hc he ht
    cases clause <;> simpa [hst₁, replaceStmt, beginExpr, ForClause.next?, fresh, hexpr] using this
  · rw [if_neg ht]
    split
    · next hf => exact .reject_end hx he (.inl ⟨hf, rfl⟩)
    · exact .reject_end hx he (.inr (Fails.report _ (wrongTerminator_severity t _)))

theorem argumentProblem?_severity {node : Node} {keyword : CallKeyword} {argument : Option Expr}
    {p : Problem} {loc : Location} (h : argumentProblem? node keyword argument = some (p, loc)) :
    p.severity ≠ .warning := by
  unfold argumentProblem? at h
  split at h <;> cases h <;> simp [Problem.severity]

theorem dropHeader_turn {s₂ : Session} {top : PendingStmt} {rest : List PendingStmt} (hx : s.Reading t x)
    (hst : s.stmts = top :: rest) (htop : top.reads = some x.context) (hh : top.inHeader = true)
    (he : Ends s x s₁ completed) (hf : completed.isFailed = true ∧ s₂ = s₁ ∨ Fails s₁ s₂)
    (ht : t.isEdge = false) : Turn s t { s₂ with stmts := rest } := by
  obtain ⟨stream, hs, hi, hf⟩ := he.fails hf
  exact .dropHeader hx hst hh htop hs hi (hf.withStmts rest) ht

theorem expect_header_turn {header : FunctionHeader} {top : PendingStmt} {rest : List PendingStmt}
    {c : Char} {next : Session → Session} (hx : s.Reading t x) (hm : s.mode = .body header)
    (hst : s.stmts = top :: rest) (hh : top.inHeader = true) (he : Ends s x s₁ completed)
    (h : t.isSymbol c = true → Turn s t (next { s₁ with stmts := rest })) :
    Turn s t ({ s₁ with stmts := rest }.expect t c completed.isFailed next) := by
  unfold expect
  split
  · next ht => exact h ht
  · split
    · next hf => exact .reject_header hx he hm hst hh (.inl ⟨hf, rfl⟩)
    · rw [report_withStmts]
      exact .reject_header hx he hm hst hh (.inr (Fails.report _ (wrongTerminator_severity t _)))

theorem keywordArgDone_turn {header : FunctionHeader} {top : PendingStmt} {rest : List PendingStmt}
    (hx : s.Reading t x) (hm : s.mode = .body header) (hst : s.stmts = top :: rest)
    (htop : top.reads = some .keywordArg) (hc : x.context = .keywordArg) (he : Ends s x s₁ completed) :
    Turn s t (s₁.keywordArgDone completed t) := by
  obtain ⟨node, keyword, rfl⟩ : ∃ node keyword, top = .keywordCall node keyword := by
    simpa using PendingStmt.reads_cases htop
  have hst₁ : s₁.stmts = .keywordCall node keyword :: rest := by
    obtain ⟨_, _, _, _, _, -, -, rfl⟩ := he.same
    exact hst
  unfold keywordArgDone
  simp only [hst₁, popStmt, List.tail_cons]
  refine expect_header_turn hx hm hst rfl he fun ht => ?_
  have hedge := Token.isEdge_of_isSymbol ht (by decide)
  split
  · next hf => exact dropHeader_turn hx hst (by rw [hc]; rfl) rfl he (.inl ⟨hf, rfl⟩) hedge
  · next hf =>
    split
    · next problem loc hp =>
      rw [report_withStmts]
      exact dropHeader_turn hx hst (by rw [hc]; rfl) rfl he
        (.inr (Fails.report _ (argumentProblem?_severity hp))) hedge
    · next hp => exact .keywordCall hx hst hc he (by simpa using hf) hp ht

theorem caseLabelDone_turn {header : FunctionHeader} {top : PendingStmt} {rest : List PendingStmt}
    (hx : s.Reading t x) (hm : s.mode = .body header) (hst : s.stmts = top :: rest)
    (htop : top.reads = some .caseLabel) (hc : x.context = .caseLabel) (he : Ends s x s₁ completed) :
    Turn s t (s₁.caseLabelDone completed t) := by
  obtain ⟨loc, rfl⟩ : ∃ loc, top = .caseLabel loc := by
    simpa using PendingStmt.reads_cases htop
  have hst₁ : s₁.stmts = .caseLabel loc :: rest := by
    obtain ⟨_, _, _, _, _, -, -, rfl⟩ := he.same
    exact hst
  unfold caseLabelDone
  simp only [hst₁, popStmt, List.tail_cons]
  refine expect_header_turn hx hm hst rfl he fun ht => ?_
  have hedge := Token.isEdge_of_isSymbol ht (by decide)
  split
  · exact .caseValue hx hst hc he ht
  · rw [report_withStmts]
    exact dropHeader_turn hx hst (by rw [hc]; rfl) rfl he
      (.inr (Fails.report _ (by simp [Problem.severity]))) hedge
  · exact dropHeader_turn hx hst (by rw [hc]; rfl) rfl he (.inl ⟨rfl, rfl⟩) hedge

theorem constValueDone_turn {loc : Location} {name : Ident} (hx : s.Reading t x)
    (hm : s.mode = .root (.constValue loc name)) (he : Ends s x s₁ completed) :
    Turn s t (s₁.constValueDone completed t) := by
  have hm₁ : s₁.mode = .root (.constValue loc name) := by
    obtain ⟨_, _, _, _, _, -, -, rfl⟩ := he.same
    exact hm
  have hdrop {s₂ : Session} (hf : completed.isFailed = true ∧ s₂ = s₁ ∨ Fails s₁ s₂)
      (ht : t.isSymbol ';' = true) : Turn s t (s₂.inRoot .idle) := by
    obtain ⟨stream, hs, hi, hf⟩ := he.fails hf
    exact .dropConstant hx hm hs hi (hf.withMode _) (Token.isEdge_of_isSymbol ht (by decide))
  unfold constValueDone
  simp only [hm₁]
  unfold expect
  split
  · next ht =>
    cases completed with
    | value e => exact .constant hx hm he ht
    | empty =>
      simp only [inRoot, report_withMode]
      exact hdrop (.inr (Fails.report _ (by simp [Problem.severity]))) ht
    | failed => exact hdrop (.inl ⟨rfl, rfl⟩) ht
  · have hreport : Turn s t (((s₁.inRoot .idle).report (wrongTerminator t ';') t.loc).resync t) := by
      simp only [inRoot, report_withMode]
      exact .reject_root hx he hm (.inr (Fails.report _ (wrongTerminator_severity t _)))
    cases completed with
    | failed => exact .reject_root hx he hm (.inl ⟨rfl, rfl⟩)
    | _ => exact hreport

theorem directiveArgDone_turn {loc : Location} {name : Ident} {args : List Expr} (hx : s.Reading t x)
    (hm : s.mode = .root (.directiveArgs loc name args)) (he : Ends s x s₁ completed) :
    Turn s t (s₁.directiveArgDone completed t) := by
  have hm₁ : s₁.mode = .root (.directiveArgs loc name args) := by
    obtain ⟨_, _, _, _, _, -, -, rfl⟩ := he.same
    exact hm
  have hreject (expected : String) : Turn s t ((s₁.inRoot .idle).rejectToken t expected) := by
    simp only [rejectToken, reportUnexpected, inRoot, report_withMode]
    exact .reject_root hx he hm (.inr (Fails.report _ (by simp [Problem.severity])))
  unfold directiveArgDone
  simp only [hm₁]
  cases completed with
  | value e =>
    simp only [directiveArgEnd]
    split
    · next ht =>
      have := Turn.nextArg hx hm he ht
      exact this
    · split
      · next ht =>
        have := Turn.closeArgs hx hm he rfl (by simp [Completed.value?]) ht
        exact this
      · exact hreject _
  | empty =>
    simp only
    split
    · next ht =>
      simp only [Bool.and_eq_true, List.isEmpty_iff] at ht
      have := Turn.closeArgs hx hm he rfl (fun _ => ht.2) ht.1
      simpa [directiveArgEnd, ht.1, Token.isSymbol_ne ht.1, Completed.value?, inRoot] using this
    · exact hreject _
  | failed => exact .reject_root hx he hm (.inl ⟨rfl, rfl⟩)

theorem topLevelDone_turn (hx : s.Reading t x) (hc : x.context = .topLevel) (hm : s.mode = .expression)
    (he : Ends s x s₁ completed) : Turn s t (s₁.topLevelDone completed t) := by
  have houtput : s₁.output = s.output := by
    obtain ⟨_, _, _, _, _, -, -, rfl⟩ := he.same
    rfl
  have hspoil {s₂ : Session} (hf : completed.isFailed = true ∧ s₂ = s₁ ∨ Fails s₁ s₂) :
      Turn s t { s₂ with
        output := (completed.value?.map .expression).or s.output,
        mode := if t.isSymbol ';' then .expressionEnd else .done } := by
    obtain ⟨stream, hs, hi, hf⟩ := he.fails hf
    exact .spoilWhole hx hc hm ⟨_, he, rfl⟩ hs hi hf
  unfold topLevelDone
  cases completed with
  | value e =>
    simp only
    split
    · next ht => simpa [ht] using Turn.whole hx hc hm he (.inl ht)
    · next hn =>
      split
      · next ht => simpa [hn] using Turn.whole hx hc hm he (.inr ht)
      · have := hspoil (.inr (Fails.report (s := s₁)
          (p := .unexpected t.describe "`;` or end of input") t.loc (by simp [Problem.severity])))
        simpa [hn, reportUnexpected, report_withOutput, Completed.value?] using this
  | empty =>
    have hf := Fails.report (s := s₁) (p := .missingExpression) t.loc (by simp [Problem.severity])
    simp only
    split
    · next ht => simpa [ht, Completed.value?, houtput] using hspoil (.inr hf)
    · next hn =>
      split
      · simpa [hn, Completed.value?, houtput] using hspoil (.inr hf)
      · simpa [hn, Completed.value?, reportUnexpected, houtput] using
          hspoil (.inr (hf.andReport (.unexpected t.describe "`;` or end of input") t.loc))
  | failed =>
    simp only
    split
    · next ht => simpa [ht, Completed.value?, houtput] using hspoil (.inl ⟨rfl, rfl⟩)
    · next hn =>
      split
      · simpa [hn, Completed.value?, houtput] using hspoil (.inl ⟨rfl, rfl⟩)
      · simpa [hn, Completed.value?, reportUnexpected, houtput] using
          hspoil (.inr (Fails.report (p := .unexpected t.describe "`;` or end of input") t.loc
            (by simp [Problem.severity])))

theorem exprDone_turn (hs : s.Shaped) (hx : s.Reading t x) (he : Ends s x s₁ completed) :
    Turn s t (s₁.exprDone x.context completed t) := by
  have hx' := hx
  cases hx with
  | statement h => exact statementDone_turn hx' rfl h.mode he
  | whole hr hn hm => exact topLevelDone_turn hx' rfl hm he
  | further hr hx =>
    cases hs with
    | @root phase hm hst _ hexpr =>
      simp only [hx, Option.map_some] at hexpr
      cases phase <;> simp [RootPhase.reads] at hexpr
      · rw [hexpr]
        exact directiveArgDone_turn hx' hm he
      · rw [hexpr]
        exact constValueDone_turn hx' hm he
    | rootRecovery _ _ hr' => simp [hr] at hr'
    | @body header top rest hm hst _ _ hexpr =>
      simp only [hx, Option.map_some] at hexpr
      obtain ⟨hc, -⟩ | ⟨_, clause, _, _, hc, -⟩ | ⟨hc, -⟩ | ⟨hc, -⟩ | ⟨hc, -⟩ :=
        PendingStmt.reads_cases hexpr.symm
      all_goals rw [hc] at hexpr ⊢
      · exact conditionDone_turn hx' hst hexpr.symm hc he
      · exact forClauseDone_turn hx' hst hexpr.symm hc he
      · exact collectionDone_turn hx' hst hexpr.symm hc he
      · exact keywordArgDone_turn hx' hm hst hexpr.symm hc he
      · exact caseLabelDone_turn hx' hm hst hexpr.symm hc he
    | statement hm _ _ _ _ hexpr hc =>
      obtain rfl : x = _ := Option.some.inj (hx.symm.trans hexpr)
      rw [hc]
      exact statementDone_turn hx' hc ⟨_, hm⟩ he
    | bodyRecovery _ _ _ _ hr' => simp [hr] at hr'
    | expression hm _ _ hexpr =>
      have hc := hexpr x hx
      rw [hc]
      exact topLevelDone_turn hx' hc hm he
    | closed _ _ _ hexpr => simp [hx] at hexpr

theorem started_of_none {s : Session} (h : s.expr = none) :
    started (s, .consumed) = (s, .consumed) := by
  simp only [started, h, Option.map_none, Prod.mk.injEq, and_true]
  rw [← h]

theorem feedExpr_turn (hs : s.Shaped) (hcl : s.stream.Closed)
    (hb : x.started = true → x.stack ≠ [] ∨ x.slot.isSome = true) (hx : s.Reading t x) :
    Turn s t ({ s with expr := some x }.feedExpr t) := by
  obtain ⟨m, ho, hm⟩ := exprToken_outcome (s := { s with expr := some x }) (x := x) (t := t) hcl
  unfold feedExpr
  simp only [hm]
  cases ho with
  | kept htakes h => exact .shift hx htakes h
  | @truncated id _ count loc h ht =>
    have hf := Fails.report (s := { s with expr := some x, nextId := id + 1 }) (p := .trupleLength count)
      loc (by simp [Problem.severity])
    have := Turn.truncate hx h (hf.withExpr s.expr) ht
    exact this
  | @gaveUp stream id p loc htakes hi hp =>
    have hf := Fails.report (s := { s with stream := stream, nextId := id, expr := some x }) loc
      (p := p) (by simp [hp])
    rw [started_of_none (expr_resync _ _)]
    exact .reject (.inl ⟨x, hx⟩) htakes hi (hf.withExpr none)
  | @halted id stream p loc htakes hi hp =>
    have hf := Fails.report (s := { s with stream := stream, nextId := id, expr := some x }) loc
      (p := p) (by simp [hp])
    exact .halt hx htakes hi (hf.withExpr none) (report_halted hp)
  | ended htakes h => exact exprDone_turn hs hx (finishExpr_ends (s := s) htakes h hb _ t)

theorem without_expr (h : s.expr = none) : { s with expr := none } = s := by
  rw [← h]

theorem reject_here {top : PendingStmt} {rest : List PendingStmt} {p : Problem} (h : s.AtHeader top rest)
    (hh : top.inHeader = true) (hp : p.severity ≠ .warning) (loc : Location) :
    Turn s t ((s.report p loc).resync t) := by
  refine .reject (.inr (.inl ⟨top, rest, h, hh⟩)) ⟨[], .refl _⟩ (Nat.le_refl _) ?_
  rw [without_expr h.expr]
  exact Fails.report loc hp

theorem expect_here {top : PendingStmt} {rest : List PendingStmt} {c : Char} {next : Session → Session}
    (h : s.AtHeader top rest) (hh : top.inHeader = true)
    (hn : t.isSymbol c = true → Turn s t (next s)) : Turn s t (s.expect t c false next) := by
  unfold expect
  split
  · next ht => exact hn ht
  · exact reject_here h hh (wrongTerminator_severity t c) _

theorem openHeader_turn {top top' : PendingStmt} {context : Option ExprContext} {rest : List PendingStmt}
    (h : s.AtHeader top rest) (hh : top.inHeader = true) (ho : top.opened? = some (top', context)) :
    Turn s t (s.expect t '(' false openHeader) := by
  refine expect_here h hh fun ht => ?_
  have := Turn.openHeader h ho ht
  unfold openHeader
  unfold PendingStmt.opened? at ho
  split at ho <;> cases ho <;>
    simpa [h.stmts, replaceStmt, beginExpr, fresh, without_expr h.expr, h.expr] using this

theorem iteratorToken_turn {node : Node} {names : IteratorNames} {rest : List PendingStmt}
    (h : s.AtHeader (.foreachLoop node (.names names)) rest) : Turn s t (s.iteratorToken node names t) := by
  have hreject (expected : String) : Turn s t (s.rejectToken t expected) :=
    reject_here h rfl (by simp [Problem.severity]) _
  have hcollect {key : Option Ident} {value : Ident} (hn : names.whole? = some (key, value))
      (ht : t.isKeyword .inKw s.gameMode = true) : Turn s t (s.beginCollection node key value) := by
    simpa [beginCollection, replaceStmt, beginExpr, fresh, h.stmts] using Turn.iterators h hn ht
  unfold iteratorToken
  simp only
  split
  · next ht => exact .iterator h rfl ht
  · next ht => exact .iterator h rfl ht
  · exact hreject _
  · exact hreject _
  · exact hreject _
  · exact hreject _
  · split
    · next ht => simpa [replaceStmt, h.stmts] using Turn.nextIterator h ht
    · split
      · next ht => exact hcollect rfl ht
      · exact hreject _
  · split
    · next ht => exact hcollect rfl ht
    · exact hreject _

theorem headerToken?_turn {s' : Session} {top : PendingStmt} {rest : List PendingStmt}
    (h : s.AtHeader top rest) (hs : s.headerToken? t = some s') : Turn s t s' := by
  have hst := h.stmts
  unfold headerToken? at hs
  split at hs
  all_goals cases hs
  all_goals (rename_i heq; obtain ⟨rfl, rfl⟩ := List.cons.inj (hst.symm.trans heq))
  · exact openHeader_turn h rfl rfl
  · exact openHeader_turn h rfl rfl
  · exact openHeader_turn h rfl rfl
  · exact openHeader_turn h rfl rfl
  · exact openHeader_turn h rfl rfl
  · exact iteratorToken_turn h
  · refine expect_here h rfl fun ht => ?_
    have := Turn.openSwitch h ht
    exact this
  · refine expect_here h rfl fun ht => ?_
    simpa [popStmt, hst] using Turn.flow h ht
  · refine expect_here h rfl fun ht => ?_
    simpa [popStmt, hst] using Turn.defaultLabel h ht

theorem awaitElse_turn {node : Node} {condition : Expr} {thenBranch : Stmt} {rest : List PendingStmt}
    (h : s.AtHeader (.ifStmt node (.awaitElse condition thenBranch)) rest) :
    Turn s t (s.awaitElse node condition thenBranch t) := by
  unfold awaitElse
  split
  · next ht => simpa [replaceStmt, h.stmts] using Turn.elseBranch h ht
  · next ht => simpa [popStmt, h.stmts] using Turn.noElse h (by simpa using ht)

theorem closeBrace_turn {top : PendingStmt} {rest : List PendingStmt} (h : s.AtStatement top rest)
    (hk : StackShaped s.stmts) (ht : t.isSymbol '\x7d' = true) : Turn s t (s.closeBrace t) := by
  have hst := h.stmts
  rw [hst] at hk
  unfold closeBrace
  simp only [hst]
  cases top with
  | block b =>
    obtain ⟨node, role, statements⟩ := b
    simp only [closeBlock, popStmt, hst, List.tail_cons]
    cases role with
    | nested => exact .closeBlock h ht
    | functionBody =>
      obtain rfl : rest = [] := by
        cases hk with
        | bottom => rfl
        | cons _ hs => exact hs.elim
      obtain ⟨header, hm⟩ := h.mode
      simpa [closeFunction, hm, inRoot] using Turn.closeFunction h hm ht
    | switchBody labels =>
      obtain ⟨switch, subject, rest, rfl⟩ : ∃ switch subject rest',
          rest = .switch switch (.body subject) :: rest' := by
        cases hk with
        | cons _ hs =>
          obtain ⟨switch, subject, rfl⟩ := hs
          exact ⟨switch, subject, _, rfl⟩
      exact .closeSwitch h ht
  | _ =>
    have hb := h.opened
    simp only [PendingStmt.isOpen] at hb
    simp only [hb, if_true]
    exact .missBody h hb ht (Fails.report _ (by simp [Problem.severity]))

theorem straySemicolon_turn {top : PendingStmt} {rest : List PendingStmt} (h : s.AtStatement top rest)
    (ht : t.isSymbol ';' = true) : Turn s t (s.straySemicolon t) := by
  unfold straySemicolon
  simp only [report_stmts, h.stmts]
  split
  · next hb => exact .emptyBody h hb ht
  · next hb => exact .straySemicolon h (by simpa using hb) ht

theorem startFlow_turn {top : PendingStmt} {rest : List PendingStmt} {kind : FlowKind}
    (h : s.AtStatement top rest) (ht : t.keyword? s.gameMode = some kind.keyword) :
    Turn s t (s.startFlow kind t.loc) := by
  unfold startFlow
  split
  · exact .misplace h (Fails.report _ (by simp [Problem.severity])) (Token.isEdge_of_keyword ht)
  · next hf => exact .openFlow h ht hf

theorem openCall_turn {top : PendingStmt} {rest : List PendingStmt} (keyword : CallKeyword)
    (h : s.AtStatement top rest) (ht : t.keyword? s.gameMode = some keyword.keyword) :
    Turn s t (s.startKeywordCall keyword t.loc) :=
  .openCall h ht

theorem startKeyword?_turn {s' : Session} {top : PendingStmt} {rest : List PendingStmt} {k : Keyword}
    (h : s.AtStatement top rest) (ht : t.keyword? s.gameMode = some k)
    (hs : s.startKeyword? k t.loc = some s') : Turn s t s' := by
  have hlabel (next : Session → Session)
      (hn : ∀ node labels statements, top = .block ⟨node, .switchBody labels, statements⟩ →
        Turn s t (next s)) : Turn s t (s.startLabel k t.loc next) := by
    unfold startLabel
    split
    · next hb =>
      simp only [inSwitchBody, h.stmts] at hb
      split at hb
      · next heq => exact hn _ _ _ (List.cons.inj heq).1
      · cases hb
    · exact .misplace h (Fails.report _ (by simp [Problem.severity])) (Token.isEdge_of_keyword ht)
  cases k <;> simp only [startKeyword?, Option.some.injEq, reduceCtorEq] at hs <;> subst hs
  case ifKw | whileKw | forKw | foreachKw | switchKw => exact .openStmt h ht rfl
  case returnKw => exact openCall_turn .returnCall h ht
  case waitKw => exact openCall_turn .waitCall h ht
  case waitTillFrameEndKw => exact openCall_turn .waitTillFrameEndCall h ht
  case breakpointKw => exact openCall_turn .breakpointCall h ht
  case breakKw => exact startFlow_turn h ht
  case continueKw => exact startFlow_turn h ht
  case elseKw => exact .misplace h (Fails.report _ (by simp [Problem.severity])) (Token.isEdge_of_keyword ht)
  case caseKw =>
    refine hlabel _ ?_
    rintro node labels statements rfl
    exact .openCase h ht
  case defaultKw =>
    refine hlabel _ ?_
    rintro node labels statements rfl
    exact .openDefault h ht

theorem startStmt_turn {top : PendingStmt} {rest : List PendingStmt} (hs : s.Shaped)
    (hcl : s.stream.Closed) (hk : StackShaped s.stmts) (h : s.AtStatement top rest) :
    Turn s t (s.startStmt t) := by
  unfold startStmt
  split
  · next ht => exact .openBlock h ht
  split
  · next ht => exact closeBrace_turn h hk ht
  split
  · next ht => exact straySemicolon_turn h ht
  split
  · next ht => exact .unbalanced h ht (Fails.report _ (by simp [Problem.severity])) (report_halted rfl)
  next hopen hclose _ heof =>
  have hexpr (hsync : s.isSyncKeyword t = false) : Turn s t (s.startExprStmt t) := by
    refine feedExpr_turn hs hcl (by simp) (.statement h ?_)
    simp [stopsBefore, hsync, hopen, hclose, heof]
  split
  · next k ht =>
    split
    · next hn => exact startKeyword?_turn h ht hn
    · next hn =>
      refine hexpr ?_
      cases k <;> simp [startKeyword?] at hn <;> simp [isSyncKeyword, ht, Keyword.startsStatement]
  · next ht => exact hexpr (by simp [isSyncKeyword, ht])

theorem reject_idle {phase : RootPhase} (h : s.AtRoot phase) (ht : t.isEof = false) {stream : TokenStream}
    (hs : ∃ more, s.stream.Takes more stream) {p : Problem} (hp : p.severity ≠ .warning) (loc : Location) :
    Turn s t ((({ s with stream := stream }.inRoot .idle).report p loc).resync t) := by
  have hf : Fails { s with stream := stream, expr := none } ({ s with stream := stream }.report p loc) := by
    rw [without_expr (s := { s with stream := stream }) h.expr]
    exact Fails.report loc hp
  have hturn := Turn.reject (.inr (.inr ⟨phase, h, ht⟩)) hs (Nat.le_refl _) hf
  have hm : ({ s with stream := stream }.report p loc).mode = .root phase := by simpa using h.mode
  rw [← resync_root hm] at hturn
  rw [inRoot, report_withMode]
  exact hturn

theorem rejectToken_idle {phase : RootPhase} (h : s.AtRoot phase) (ht : t.isEof = false)
    (expected : String) : Turn s t ((s.inRoot .idle).rejectToken t expected) :=
  reject_idle h ht ⟨[], .refl _⟩ (by simp [Problem.severity]) _

theorem expect_idle {phase : RootPhase} (h : s.AtRoot phase) (he : t.isEof = false) {c : Char}
    {next : Session → Session} (hn : t.isSymbol c = true → Turn s t (next (s.inRoot .idle))) :
    Turn s t ((s.inRoot .idle).expect t c false next) := by
  unfold expect
  split
  · next ht => exact hn ht
  · exact reject_idle h he ⟨[], .refl _⟩ (wrongTerminator_severity t c) _

theorem spoil_idle {phase : RootPhase} (h : s.AtRoot phase) {p : Problem} (hp : p.severity ≠ .warning)
    (ht : t.isSymbol ';' = true) (loc : Location) : Turn s t ((s.inRoot .idle).report p loc) := by
  simp only [inRoot, report_withMode]
  exact .spoil h ⟨[], .refl _⟩ (Fails.report loc hp) rfl (Token.isEdge_of_isSymbol ht (by decide)) (.inl rfl)

theorem directiveName_turn {loc : Location} (h : s.AtRoot (.directiveName loc)) (he : t.isEof = false) :
    Turn s t ((s.inRoot .idle).directiveName loc t) := by
  unfold directiveName
  split
  · exact rejectToken_idle h he _
  · next name ht =>
    split
    · next hn => exact .pass h (.importName ht hn)
    · next hn => exact .pass h (.directiveName ht hn)

theorem importPath_turn {loc : Location} {segments : ModulePath} {awaiting : Bool}
    (h : s.AtRoot (.importPath loc segments awaiting)) (he : t.isEof = false) :
    Turn s t ((s.inRoot .idle).importPath loc segments awaiting t) := by
  unfold importPath
  split
  · next ha =>
    subst ha
    split
    · next ht => exact .pass h (.segment ht)
    · exact rejectToken_idle h he _
  · next ha =>
    simp only [Bool.not_eq_true] at ha
    subst ha
    split
    · next ht => exact .pass h (.backslash ht)
    split
    · next ht => exact .importScript h ht
    · exact rejectToken_idle h he _

theorem directiveHead_turn {loc : Location} {name : Ident} (h : s.AtRoot (.directiveHead loc name))
    (he : t.isEof = false) : Turn s t ((s.inRoot .idle).directiveHead loc name t) := by
  unfold directiveHead bareDirective
  split
  · next ht =>
    split
    · next hn =>
      split
      · next hf => exact .declarative h hn hf ht
      · exact spoil_idle h (by simp [Problem.severity]) ht _
    · next hn => exact .bareDirective h hn ht
  split
  · next ht => exact .openArgs h ht
  · exact rejectToken_idle h he _

theorem globalNames_turn {names : List Ident} {awaiting : Bool} (h : s.AtRoot (.globals names awaiting))
    (he : t.isEof = false) : Turn s t ((s.inRoot .idle).globalNames names awaiting t) := by
  unfold globalNames
  split
  · next ha =>
    subst ha
    split
    · next ht => exact .pass h (.globalName ht)
    · exact rejectToken_idle h he _
  · next ha =>
    simp only [Bool.not_eq_true] at ha
    subst ha
    split
    · next ht => exact .pass h (.nextGlobal ht)
    split
    · next ht => exact .globals h ht
    · exact rejectToken_idle h he _

theorem paramProblem?_severity {params : List Param} {p : Param} {problem : Problem} {loc : Location}
    (h : paramProblem? params p = some (problem, loc)) : problem.severity ≠ .warning := by
  unfold paramProblem? at h
  simp only at h
  repeat' split at h
  all_goals simp at h
  all_goals simp [← h.1, Problem.severity]

theorem addParam_turn {phase : RootPhase} {header : FunctionHeader} {p : Param}
    (next : FunctionHeader → RootPhase) (h : s.AtRoot phase) (hh : phase.header? = some header)
    (hr : ∀ header, (next header).isBare = true ∧ (next header).header? = some header)
    (hn : paramProblem? header.params p = none →
      Passes s t phase (next { header with params := header.params ++ [p] })) (ht : t.isEdge = false) :
    Turn s t (((s.inRoot .idle).addParam header p).2.inRoot (next ((s.inRoot .idle).addParam header p).1)) := by
  unfold addParam
  simp only
  split
  · next problem loc hp =>
    simp only [inRoot, report_withMode]
    exact .spoil h ⟨[], .refl _⟩ (Fails.report loc (paramProblem?_severity hp)) (hr _).1 ht
      (.inr ⟨_, _, hh, (hr _).2, rfl⟩)
  · next hp => exact .pass h (hn hp)

theorem closeParams_turn {header : FunctionHeader} {pending : PendingParam}
    (h : s.AtRoot (.param header pending)) (he : t.isEof = false) (ht : t.isSymbol ')' = true) :
    Turn s t ((s.inRoot .idle).closeParams header pending t) := by
  have hreject (expected : String) :
      Turn s t (((s.inRoot .idle).report (.unexpected "`)`" expected) t.loc).resync t) :=
    reject_idle h he ⟨[], .refl _⟩ (by simp [Problem.severity]) _
  unfold closeParams
  split
  · next loc m =>
    split
    · next hm =>
      simp only [Bool.and_eq_true, Bool.not_eq_true'] at hm
      exact addParam_turn .functionEnd h rfl (fun _ => ⟨rfl, rfl⟩)
        (fun ho => .bareDots ht ⟨hm.1.1, hm.1.2, hm.2⟩ ho) (Token.isEdge_of_isSymbol ht (by decide))
    · exact hreject _
  · split
    · next hp => exact .pass h (.noParams ht (by simpa using hp))
    · exact hreject _

theorem paramMark_turn {header : FunctionHeader} {pending : PendingParam} {loc : Location}
    {m : ParamModifiers} {again : Bool} (h : s.AtRoot (.param header pending))
    (hn : again = false → Passes s t (.param header pending) (.param header (some (loc, m))))
    (ht : t.isEdge = false) : Turn s t ((s.inRoot .idle).paramMark header loc m again t) := by
  unfold paramMark
  cases again with
  | true =>
    simp only [inRoot, report_withMode, if_true]
    exact .spoil h ⟨[], .refl _⟩ (Fails.report t.loc (by simp [Problem.severity])) rfl ht
      (.inr ⟨_, _, rfl, rfl, rfl⟩)
  | false => exact .pass h (hn rfl)

theorem paramDots_turn {header : FunctionHeader} {pending : PendingParam} {loc : Location}
    {m : ParamModifiers} (hcl : s.stream.Closed) (h : s.AtRoot (.param header pending))
    (he : t.isEof = false) (hp : pending.getD (t.loc, {}) = (loc, m)) (ht : t.isSymbol '.' = true) :
    Turn s t ((s.inRoot .idle).paramDots header loc m t) := by
  unfold paramDots
  simp only
  split
  · exact reject_idle h he ⟨[], symbols_takes _ _ _⟩ (by simp [Problem.severity]) _
  · next hr =>
    obtain ⟨u, v, htakes, hspell⟩ := dots_takes hcl ht (by simpa [inRoot] using hr)
    unfold paramMark
    cases hm : m.variadic with
    | true =>
      have hf := Fails.report (p := .repeatedModifier t.describe) t.loc (by simp [Problem.severity])
        (s := { s with stream := (s.stream.symbols ['.'] 2).2.commit 2, mode := .root .idle })
      have hturn (phase' : RootPhase) (hp : phase'.isBare = true) (hh : phase'.header? = some header) :=
        Turn.spoil (t := t) h ⟨_, htakes⟩ (hf.withMode s.mode) hp (Token.isEdge_of_isSymbol ht (by decide))
          (.inr ⟨_, _, rfl, hh, rfl⟩)
      exact hturn _ rfl rfl
    | false => exact .dots h hp hm htakes hspell

theorem paramToken_turn {header : FunctionHeader} {pending : PendingParam} (hcl : s.stream.Closed)
    (h : s.AtRoot (.param header pending)) (he : t.isEof = false) :
    Turn s t ((s.inRoot .idle).paramToken header pending t) := by
  unfold paramToken
  obtain ⟨loc, m, hp⟩ : ∃ loc m, pending.getD (t.loc, {}) = (loc, m) := ⟨_, _, rfl⟩
  simp only [hp]
  split
  · next name ht =>
    exact addParam_turn .paramEnd h rfl (fun _ => ⟨rfl, rfl⟩) (fun ho => .param hp ht ho) (plainName?_isEdge ht)
  split
  · next ht =>
    exact paramMark_turn h (fun hm => .mark hp (.inl ⟨ht, hm, rfl⟩)) (Token.isEdge_of_isSymbol ht (by decide))
  split
  · next ht =>
    exact paramMark_turn h (fun hm => .mark hp (.inr ⟨ht, hm, rfl⟩)) (Token.isEdge_of_isSymbol ht (by decide))
  split
  · next ht => exact paramDots_turn hcl h he hp ht
  split
  · next ht => exact closeParams_turn h he ht
  · exact rejectToken_idle h he _

theorem paramEnd_turn {header : FunctionHeader} (h : s.AtRoot (.paramEnd header)) (he : t.isEof = false) :
    Turn s t ((s.inRoot .idle).paramEnd header t) := by
  unfold paramEnd
  split
  · next ht => exact .pass h (.nextParam ht)
  split
  · next ht => exact .pass h (.closeParams ht)
  · exact rejectToken_idle h he _

theorem functionEnd_turn {header : FunctionHeader} (h : s.AtRoot (.functionEnd header))
    (he : t.isEof = false) : Turn s t ((s.inRoot .idle).functionEnd header t) := by
  unfold functionEnd
  simp only
  split
  · next ht =>
    split
    · exact reject_idle h he ⟨[], .refl _⟩ (by simp [Problem.severity]) _
    · next hd => exact .openBody h (Bool.eq_false_iff.2 hd) ht
  split
  · next ht =>
    split
    · next hd => exact .declare h hd ht
    · exact spoil_idle h (by simp [Problem.severity]) ht _
  · exact rejectToken_idle h he _

theorem rootIdle_eof_turn {s' : Session} {phase : RootPhase} (h : s.AtRoot phase)
    (hf : phase = .idle ∧ s' = s ∨ Fails s s') (ht : t.isEof = true) :
    Turn s t ((s'.inRoot .idle).rootIdle t) := by
  have hsame : s'.config = s.config ∧ s'.script = s.script := by
    obtain ⟨-, rfl⟩ | ⟨⟨_, _, _, rfl⟩, -⟩ := hf <;> exact ⟨rfl, rfl⟩
  unfold rootIdle
  split
  · next hc =>
    have hc : s.config.target = .function := by simpa [inRoot, hsame.1] using hc
    have hmissing : Turn s t { s'.report .missingFunction t.loc with mode := .done } := by
      refine .functionEnd h hc (.inr ?_)
      obtain ⟨-, rfl⟩ | hf := hf
      · exact Fails.report _ (by simp [Problem.severity])
      · exact hf.andReport _ _
    unfold functionTarget
    simp only [ht, if_true]
    split
    · next ho =>
      have hend : phase = .idle ∧ s' = s ∧ s.output.isSome = true ∧ t.isEof = true ∨ Fails s s' := by
        obtain ⟨hp, rfl⟩ | hf := hf
        · exact .inl ⟨hp, rfl, ho, ht⟩
        · exact .inr hf
      have := Turn.functionEnd h hc hend
      exact this
    · rw [inRoot, report_withMode]
      exact hmissing
  · next hc =>
    have hc : s.config.target ≠ .function := by simpa [inRoot, hsame.1] using hc
    simpa [inRoot, hsame.2] using Turn.scriptEnd h hc hf ht

theorem functionTarget_turn (h : s.AtRoot .idle) (hc : s.config.target = .function) (ht : t.isEof = false) :
    Turn s t ((s.inRoot .idle).functionTarget t) := by
  unfold functionTarget
  simp only [ht, Bool.false_eq_true, if_false]
  split
  · have hf := Fails.report (s := s) (p := .unexpected t.describe "end of input after the function") t.loc
      (by simp [Problem.severity])
    rw [reportUnexpected, inRoot, report_withMode]
    have := Turn.functionEnd (t := t) h hc (.inr hf)
    exact this
  · next ho =>
    split
    · next name hn => exact .pass h (.functionName (fun _ => by simpa [inRoot] using ho) hn)
    · exact rejectToken_idle h ht _

theorem rootIdle_turn (h : s.AtRoot .idle) : Turn s t ((s.inRoot .idle).rootIdle t) := by
  cases ht : t.isEof with
  | true => exact rootIdle_eof_turn h (.inl ⟨rfl, rfl⟩) ht
  | false =>
    have hmode : s.inRoot .idle = s := by
      rw [inRoot, ← h.mode]
    unfold rootIdle
    simp only [ht, Bool.false_eq_true, if_false]
    split
    · next hc => exact functionTarget_turn h hc ht
    next hc =>
    split
    · next hh => exact .pass h (.hash hc hh)
    split
    · next hh =>
      rw [hmode]
      exact .rootSemicolon h hh
    split
    · next hh => exact .pass h (.constKeyword hc hh)
    split
    · next hh => exact .pass h (.globalKeyword hc hh)
    split
    · next name hn => exact .pass h (.functionName (fun hf => absurd hf hc) hn)
    · exact rejectToken_idle h ht _

theorem rootToken_turn {phase : RootPhase} (hcl : s.stream.Closed) (hp : phase.reads = none)
    (h : s.AtRoot phase) : Turn s t (s.rootToken phase t) := by
  unfold rootToken
  simp only
  split
  · next he =>
    simp only [Bool.and_eq_true] at he
    have hf := Fails.report (s := s) (p := .unexpected "end of input" "the rest of the declaration") t.loc
      (by simp [Problem.severity])
    rw [inRoot, report_withMode]
    exact rootIdle_eof_turn h (.inr hf) he.1
  · next hn =>
    by_cases hi : phase = .idle
    · subst hi
      exact rootIdle_turn h
    have he : t.isEof = false := by
      cases phase <;> simp [isIdle] at hn hi ⊢ <;> exact hn
    clear hn
    cases phase with
    | idle => exact (hi rfl).elim
    | directiveName => exact directiveName_turn h he
    | importPath => exact importPath_turn h he
    | directiveHead => exact directiveHead_turn h he
    | directiveArgs | constValue => simp [RootPhase.reads] at hp
    | directiveEnd => exact expect_idle h he fun ht => .directive h ht
    | constName =>
      simp only
      split
      · next ht => exact .pass h (.constName ht)
      · exact rejectToken_idle h he _
    | constEquals => exact expect_idle h he fun ht => .openConstant h ht
    | globals => exact globalNames_turn h he
    | functionOpen => exact expect_idle h he fun ht => .openParams h ht
    | param => exact paramToken_turn hcl h he
    | paramEnd => exact paramEnd_turn h he
    | functionEnd => exact functionEnd_turn h he

theorem expressionStart_turn (hs : s.Shaped) (hcl : s.stream.Closed) (hr : s.recovery = none)
    (hx : s.expr = none) (hm : s.mode = .expression) : Turn s t (s.expressionStart t) := by
  unfold expressionStart
  split
  · exact .noExpression hr hx hm (Fails.report _ (by simp [Problem.severity]))
  · next ht => exact feedExpr_turn hs hcl (by simp) (.whole hr hx hm (by simpa using ht))

theorem expressionEnd_turn (hr : s.recovery = none) (hx : s.expr = none) (hm : s.mode = .expressionEnd) :
    Turn s t (s.expressionEnd t) := by
  unfold expressionEnd
  split
  · next ht => exact .expressionEnd hr hx hm (.inl ⟨rfl, ht⟩)
  · exact .expressionEnd hr hx hm (.inr (Fails.report _ (by simp [Problem.severity])))

theorem isOpen_of_no_header {top : PendingStmt} {rest : List PendingStmt} (hst : s.stmts = top :: rest)
    (htop : top.reads = none)
    (hn : ∀ node condition thenBranch rest,
      s.stmts ≠ .ifStmt node (.awaitElse condition thenBranch) :: rest)
    (hs : s.headerToken? t = none) : top.isOpen = true := by
  unfold headerToken? at hs
  rw [hst] at hs
  cases top with
  | block => rfl
  | ifStmt node phase =>
    cases phase with
    | awaitElse condition thenBranch => exact (hn _ _ _ _ hst).elim
    | thenBranch | elseBranch => rfl
    | start => cases hs
    | condition => cases htop
  | whileLoop node phase =>
    cases phase with
    | body => rfl
    | start => cases hs
    | condition => cases htop
  | forLoop node phase =>
    cases phase with
    | body => rfl
    | start => cases hs
    | clause => cases htop
  | foreachLoop node phase =>
    cases phase with
    | body => rfl
    | start | names => cases hs
    | collection => cases htop
  | switch node phase =>
    cases phase with
    | body | start => cases hs
    | condition => cases htop
  | flow | defaultLabel => cases hs
  | keywordCall | caseLabel => cases htop

theorem bodyToken_turn {header : FunctionHeader} {top : PendingStmt} {rest : List PendingStmt}
    (hs : s.Shaped) (hcl : s.stream.Closed) (hk : StackShaped s.stmts) (hr : s.recovery = none)
    (hx : s.expr = none) (hm : s.mode = .body header) (hst : s.stmts = top :: rest)
    (htop : top.reads = none) : Turn s t (s.bodyToken t) := by
  have hh : s.AtHeader top rest := ⟨hr, hx, ⟨header, hm⟩, hst⟩
  unfold bodyToken
  split
  · next heq =>
    obtain ⟨rfl, rfl⟩ := List.cons.inj (hst.symm.trans heq)
    exact awaitElse_turn hh
  · next hn =>
    split
    · next s' hs' => exact headerToken?_turn hh hs'
    · next hs' =>
      have ho := isOpen_of_no_header hst htop hn hs'
      exact startStmt_turn hs hcl hk ⟨hr, hx, ⟨header, hm⟩, hst, ho⟩

theorem dispatch_turn (hs : s.Sound) (hf : s.isFinished = false) : Turn s t (s.dispatch t) := by
  have hh : s.halted = false := by
    simp only [isFinished, Bool.or_eq_false_iff] at hf
    exact hf.1
  have hsh := hs.shaped hh
  have hcl := hs.closed
  unfold dispatch
  split
  · next r hr => exact .skip hr
  · next hr =>
    split
    · next hx =>
      obtain ⟨x, hx⟩ := Option.isSome_iff_exists.1 hx
      have := feedExpr_turn (t := t) hsh hcl (hs.begun x hx) (.further hr hx)
      rwa [← hx] at this
    · next hx =>
      have hx : s.expr = none := by simpa using hx
      cases hsh with
      | root hm _ _ hexpr =>
        simp only [hm]
        exact rootToken_turn hcl (by simpa [hx] using hexpr.symm) ⟨hr, hx, hm⟩
      | rootRecovery _ _ hr' => simp [hr] at hr'
      | body hm hst hk _ hexpr =>
        simp only [hm]
        exact bodyToken_turn (hs.shaped hh) hcl hk hr hx hm hst (by simpa [hx] using hexpr.symm)
      | statement _ _ _ _ _ hexpr => simp [hx] at hexpr
      | bodyRecovery _ _ _ _ hr' => simp [hr] at hr'
      | expression hm =>
        simp only [hm]
        exact expressionStart_turn (hs.shaped hh) hcl hr hx hm
      | closed hm =>
        obtain hm | hm := hm
        · simp only [hm]
          exact expressionEnd_turn hr hx hm
        · simp [isFinished, hm] at hf

end Session

end GameScript
