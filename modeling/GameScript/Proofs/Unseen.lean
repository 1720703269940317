import GameScript.Proofs.Complain

namespace GameScript

namespace Session

def moved (F : Session → Session) (m : ExprMove) : ExprMove :=
  (F m.1, m.2)

@[simp] theorem moved_ite (F : Session → Session) {c : Prop} [Decidable c] (m n : ExprMove) :
    moved F (if c then m else n) = if c then moved F m else moved F n :=
  apply_ite (moved F) c m n

/-- What `F` changes is not seen by expressions. Whether an assignment may stand inside of one is read from the
configuration, so that `F` need only agree where `Ok` holds behind the assignment. -/
structure Unseen (F : Session → Session) (Ok : Session → Prop) : Prop where
  stream (s : Session) : (F s).stream = s.stream
  expr (s : Session) : (F s).expr = s.expr
  nextId (s : Session) : (F s).nextId = s.nextId
  gameMode (s : Session) : (F s).gameMode = s.gameMode
  withStream (s : Session) (stream : TokenStream) : { F s with stream := stream } = F { s with stream := stream }
  withExpr (s : Session) (x : Option ExprState) : { F s with expr := x } = F { s with expr := x }
  withNextId (s : Session) (id : Nat) : { F s with nextId := id } = F { s with nextId := id }
  panic (s : Session) : { F s with panicked := true } = F { s with panicked := true }
  report (s : Session) (p : Problem) (loc : Location) : (F s).report p loc = F (s.report p loc)
  resync (s : Session) (t : Token) : (F s).resync t = F (s.resync t)
  assignTarget (s : Session) (x : ExprState) (op : Operator) (target : Expr) (t : Token) :
    Ok (s.assignTarget x op target t).1 →
      (F s).assignTarget x op target t = moved F (s.assignTarget x op target t)
  ok (s : Session) (x : Option ExprState) : Ok { s with expr := x } → Ok s

namespace Unseen

variable {F : Session → Session} {Ok : Session → Prop} (h : Unseen F Ok) (s : Session) (x : ExprState) (t : Token)
include h

theorem clearExpr : (F s).clearExpr = F s.clearExpr :=
  h.withExpr s none

theorem keep : (F s).keep x = moved F (s.keep x) :=
  congrArg (·, ExprFlow.consumed) (h.withExpr s _)

theorem ended : (F s).ended x = moved F (s.ended x) :=
  congrArg (·, ExprFlow.terminated) (h.withExpr s _)

theorem withNode (loc : Location) : (F s).withNode loc = ((s.withNode loc).1, F (s.withNode loc).2) := by
  simp only [Session.withNode, h.nextId, h.withNextId]

theorem fail (p : Problem) (loc : Location) : (F s).fail p loc t = moved F (s.fail p loc t) := by
  simp only [Session.fail, moved, h.report, h.clearExpr, h.resync]

theorem failUnexpected (expected : String) :
    (F s).failUnexpected t expected = moved F (s.failUnexpected t expected) :=
  h.fail s t _ _

theorem failFound (found expected : String) :
    (F s).failFound t found expected = moved F (s.failFound t found expected) :=
  h.fail s t _ _

theorem lookahead (allowed : List Char) (limit : Nat) :
    (F s).lookahead allowed limit = ((s.lookahead allowed limit).1, F (s.lookahead allowed limit).2) := by
  simp only [Session.lookahead, h.stream, h.withStream]

theorem discard (n : Nat) : (F s).discard n = F (s.discard n) := by
  simp only [Session.discard, h.stream, h.withStream]

theorem foldWhile (p : PendingExpr → Bool) :
    (F s).foldWhile x p t = (s.foldWhile x p t).map fun m => (F m.1, m.2) := by
  obtain ⟨context, started, _ | ⟨top, rest⟩, slot⟩ := x
  · rfl
  · simp only [Session.foldWhile]
    split
    · cases slot with
      | none => rfl
      | some operand =>
        cases hf : ExprState.foldStack p (top :: rest) operand s.nextId with
        | none =>
          have hf' : ExprState.foldStack p (top :: rest) operand (F s).nextId = none := (h.nextId s).symm ▸ hf
          simp only [hf, hf', h.panic]
          rfl
        | some m =>
          have hf' : ExprState.foldStack p (top :: rest) operand (F s).nextId = some m := (h.nextId s).symm ▸ hf
          simp only [hf, hf', h.withNextId]
          rfl
    · rfl

theorem folded {next : Session → ExprState → ExprMove} (hnext : ∀ s x, next (F s) x = moved F (next s x)) :
    (F s).folded x t next = moved F (s.folded x t next) := by
  unfold Session.folded
  rw [h.foldWhile]
  cases s.foldWhile x PendingExpr.isOperator t with
  | ok m => exact hnext m.1 m.2
  | error p => exact h.fail s t p t.loc

theorem literalToken (kind : LiteralKind) : (F s).literalToken x kind t = moved F (s.literalToken x kind t) := by
  simp only [Session.literalToken, h.withNode, h.keep, h.failUnexpected, moved_ite]

theorem setVariable (name : Ident) : (F s).setVariable x name = moved F (s.setVariable x name) := by
  simp only [Session.setVariable, h.withNode, h.keep]

theorem nameToken : (F s).nameToken x t = moved F (s.nameToken x t) := by
  unfold Session.nameToken
  split
  · simp only [h.withNode, h.keep]
  · exact h.keep s _
  · simp only [h.withNode, h.keep]
  · split
    · exact h.failUnexpected s t _
    · exact h.failUnexpected s t _
    · exact h.failUnexpected s t _
    · exact h.setVariable s _ _
  · simp only [h.setVariable, h.failUnexpected, moved_ite]

theorem modifierToken (modifier : CallModifier) :
    (F s).modifierToken x modifier t = moved F (s.modifierToken x modifier t) := by
  unfold Session.modifierToken
  split <;> simp only [h.keep, h.fail, h.failUnexpected, moved_ite]

theorem identifierToken : (F s).identifierToken x t = moved F (s.identifierToken x t) := by
  unfold Session.identifierToken
  split
  · exact h.nameToken s x t
  · simp only [h.gameMode]
    split
    · exact h.nameToken s x t
    · exact h.literalToken s x t _
    · exact h.literalToken s x t _
    · exact h.literalToken s x t _
    · exact h.modifierToken s x t _
    · exact h.modifierToken s x t _
    · exact h.ended s x

theorem openParen : (F s).openParen x t = moved F (s.openParen x t) := by
  unfold Session.openParen
  split
  · exact h.keep s _
  · simp only [h.keep, h.failUnexpected, moved_ite]
  · split
    · exact h.keep s _
    · exact h.fail s t _ _

theorem closeGroup (loc : Location) (items : List Expr) (item : Expr) :
    (F s).closeGroup x loc items item = moved F (s.closeGroup x loc items item) := by
  unfold Session.closeGroup
  simp only [h.withNode]
  split <;> simp only [h.report, h.keep]

theorem closeParen : (F s).closeParen x t = moved F (s.closeParen x t) := by
  refine h.folded s x t fun s x => ?_
  split
  · exact h.ended s x
  · split
    · exact h.closeGroup s x _ _ _
    · exact h.fail s t _ _
  · simp only [h.withNode, h.keep, h.fail, moved_ite]
  · exact h.failFound s t _ _

theorem comma : (F s).comma x t = moved F (s.comma x t) := by
  refine h.folded s x t fun s x => ?_
  split
  · exact h.ended s x
  · simp only [h.report, h.clearExpr, h.keep, moved_ite]
    rfl
  · exact h.keep s _
  · exact h.keep s _
  · exact h.fail s t _ _
  · exact h.fail s t _ _
  · exact h.fail s t _ _
  · exact h.failFound s t _ _

theorem openPointer : (F s).openPointer x t = moved F (s.openPointer x t) := by
  unfold Session.openPointer
  split <;> simp only [h.keep, h.failFound, moved_ite]

theorem openBracket : (F s).openBracket x t = moved F (s.openBracket x t) := by
  by_cases hr : (s.lookahead ['['] 1).1.length = 1
  · simp only [Session.openBracket, h.lookahead, hr, if_true, h.discard, h.openPointer]
  · simp only [Session.openBracket, h.lookahead, hr, if_false]
    split <;> simp only [h.keep, h.failFound, moved_ite]

theorem closePointer (loc : Location) (lead : CallLead) (rest : List PendingExpr) :
    (F s).closePointer x loc lead rest t = moved F (s.closePointer x loc lead rest t) := by
  by_cases hr : (s.lookahead [']'] 1).1.length = 1
  · simp only [Session.closePointer, h.lookahead, ne_eq, hr, not_true_eq_false, if_false, h.discard]
    split <;> simp only [h.keep, h.fail]
  · simp only [Session.closePointer, h.lookahead, ne_eq, hr, not_false_eq_true, if_true, h.failFound]

theorem closeBracket : (F s).closeBracket x t = moved F (s.closeBracket x t) := by
  refine h.folded s x t fun s x => ?_
  split
  · exact h.ended s x
  · exact h.closePointer s x t _ _ _
  · split
    · simp only [h.withNode, h.keep]
    · exact h.fail s t _ _
  · simp only [h.withNode, h.keep, h.fail, moved_ite]
  · exact h.failFound s t _ _

theorem point : (F s).point x t = moved F (s.point x t) := by
  unfold Session.point
  split
  · exact h.keep s _
  · exact h.failFound s t _ _

theorem pathSeparator : (F s).pathSeparator x t = moved F (s.pathSeparator x t) := by
  unfold Session.pathSeparator
  split
  · exact h.keep s _
  · exact h.keep s _
  · exact h.failFound s t _ _

theorem colon : (F s).colon x t = moved F (s.colon x t) := by
  by_cases hr : (s.lookahead [':'] 1).1.length = 1
  · simp only [Session.colon, h.lookahead, ne_eq, hr, not_true_eq_false, if_false, h.discard]
    split <;> simp only [h.keep, h.failFound, moved_ite]
  · simp only [Session.colon, h.lookahead, ne_eq, hr, not_false_eq_true, if_true, h.ended]

theorem unaryToken (first : Char) : (F s).unaryToken x first t = moved F (s.unaryToken x first t) := by
  unfold Session.unaryToken
  split <;> simp only [h.keep, h.failUnexpected, moved_ite]

theorem suffixToken (op : Operator) (operand : Expr) :
    (F s).suffixToken x op operand t = moved F (s.suffixToken x op operand t) := by
  simp only [Session.suffixToken, h.withNode, h.keep, h.fail, moved_ite]

theorem assignToken (op : Operator) (target : Expr) (hok : Ok (s.assignToken x op target t).1) :
    (F s).assignToken x op target t = moved F (s.assignToken x op target t) := by
  unfold Session.assignToken at hok ⊢
  split
  · exact h.fail s t _ _
  · exact h.fail s t _ _
  · exact h.failUnexpected s t _
  · exact h.assignTarget s x op target t (by simpa only [*] using hok)

theorem binaryToken (op : Operator) : (F s).binaryToken x op t = moved F (s.binaryToken x op t) := by
  unfold Session.binaryToken
  rw [h.foldWhile]
  cases s.foldWhile x (ExprState.bindsBefore op) t with
  | error p => exact h.fail s t p t.loc
  | ok m =>
    simp only [Except.map]
    split <;> simp only [h.keep]

theorem operatorToken (first : Char) (hok : Ok (s.operatorToken x first t).1) :
    (F s).operatorToken x first t = moved F (s.operatorToken x first t) := by
  simp only [Session.operatorToken, h.lookahead] at hok ⊢
  generalize s.lookahead Operator.spellingChars (Operator.maxSpellingLength - 1) = m at hok ⊢
  obtain ⟨run, s⟩ := m
  cases hx : x.slot with
  | none => exact h.unaryToken s x t first
  | some operand =>
    simp only [hx] at hok ⊢
    split
    · exact h.failUnexpected s t _
    · next op hop =>
      simp only [hop] at hok
      rw [h.discard]
      generalize op.fixity = fixity, s.discard (op.spelling.length - 1) = s at hok ⊢
      cases fixity with
      | before => exact h.failUnexpected s t _
      | after => exact h.suffixToken s x t op operand
      | assigning => exact h.assignToken s x t op operand hok
      | between => exact h.binaryToken s x t op

theorem symbolCharToken (c : Char) (hok : Ok (s.symbolCharToken x c t).1) :
    (F s).symbolCharToken x c t = moved F (s.symbolCharToken x c t) := by
  unfold Session.symbolCharToken at hok ⊢
  repeat' split at hok
  all_goals simp_all [h.openParen, h.closeParen, h.comma, h.openBracket, h.closeBracket, h.point, h.pathSeparator,
    h.colon, h.operatorToken, h.ended]

theorem symbolToken (hok : Ok (s.symbolToken x t).1) : (F s).symbolToken x t = moved F (s.symbolToken x t) := by
  unfold Session.symbolToken at hok ⊢
  repeat' split at hok
  all_goals simp_all [h.ended, h.failUnexpected, h.symbolCharToken]

theorem started (m : ExprMove) : Session.started (moved F m) = moved F (Session.started m) := by
  obtain ⟨s, flow⟩ := m
  cases flow with
  | consumed => simp only [moved, Session.started, h.expr, h.withExpr]
  | terminated => rfl

theorem exprToken (hok : Ok (s.exprToken x t).1) : (F s).exprToken x t = moved F (s.exprToken x t) := by
  have hmove (m : ExprMove) (hm : Ok (Session.started m).1) : Ok m.1 := by
    obtain ⟨s, flow⟩ := m
    cases flow with
    | consumed => exact h.ok s _ hm
    | terminated => exact hm
  unfold Session.exprToken at hok ⊢
  cases hk : t.kind with
  | symbol =>
    simp only [hk] at hok
    simp only [h.symbolToken s x t (hmove _ hok), h.started]
  | _ => simp only [h.identifierToken, h.literalToken, h.ended, h.started]

theorem finishExpr : (F s).finishExpr x t = (F (s.finishExpr x t).1, (s.finishExpr x t).2) := by
  simp only [Session.finishExpr, h.clearExpr, h.foldWhile]
  cases s.clearExpr.foldWhile x PendingExpr.isOperator t with
  | error p => simp only [Except.map, h.report]
  | ok m =>
    obtain ⟨s, x⟩ := m
    simp only [Except.map]
    split
    · simp only [h.report]
    · split <;> rfl

end Unseen

end Session

end GameScript
