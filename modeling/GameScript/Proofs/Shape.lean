import GameScript.Proofs.Shift

namespace GameScript

namespace PendingStmt

def reads : PendingStmt → Option ExprContext
  | ifStmt _ .condition | whileLoop _ .condition | switch _ .condition => some .condition
  | forLoop _ (.clause clause _ _) => some (.forClause clause)
  | foreachLoop _ (.collection ..) => some .foreachCollection
  | keywordCall .. => some .keywordArg
  | caseLabel _ => some .caseLabel
  | _ => none

theorem reads_cases {p : PendingStmt} {context : ExprContext} (h : p.reads = some context) :
    (context = .condition ∧ ∃ node, p = ifStmt node .condition ∨ p = whileLoop node .condition ∨
      p = switch node .condition) ∨
    (∃ node clause first condition, context = .forClause clause ∧
      p = forLoop node (.clause clause first condition)) ∨
    (context = .foreachCollection ∧ ∃ node key value, p = foreachLoop node (.collection key value)) ∨
    (context = .keywordArg ∧ ∃ node keyword, p = keywordCall node keyword) ∨
    (context = .caseLabel ∧ ∃ loc, p = caseLabel loc) := by
  unfold reads at h
  split at h <;> cases h <;> simp

def isOpen : PendingStmt → Bool
  | block _ => true
  | p => p.awaitsBody

def StandsOn : PendingStmt → PendingStmt → Prop
  | block ⟨_, .switchBody _, _⟩, below => ∃ node subject, below = switch node (.body subject)
  | block ⟨_, .functionBody, _⟩, _ => False
  | caseLabel _, below | defaultLabel _, below =>
    ∃ node labels statements, below = block ⟨node, .switchBody labels, statements⟩
  | _, below => below.isOpen = true

def opened? : PendingStmt → Option (PendingStmt × Option ExprContext)
  | ifStmt node .start => some (ifStmt node .condition, some .condition)
  | whileLoop node .start => some (whileLoop node .condition, some .condition)
  | switch node .start => some (switch node .condition, some .condition)
  | forLoop node .start => some (forLoop node (.clause .first none none), some (.forClause .first))
  | foreachLoop node .start => some (foreachLoop node (.names .none), none)
  | _ => none

def supplied? (e : Expr) : PendingStmt → Option PendingStmt
  | ifStmt node .condition => some (ifStmt node (.thenBranch e))
  | whileLoop node .condition => some (whileLoop node (.body e))
  | switch node .condition => some (switch node (.body e))
  | foreachLoop node (.collection key value) => some (foreachLoop node (.body key value e))
  | _ => none

theorem complete?_isSome {p : PendingStmt} (body : Stmt) (h : p.awaitsBody = true)
    (hp : ∀ node condition, p ≠ ifStmt node (.thenBranch condition)) : (p.complete? body).isSome = true := by
  unfold awaitsBody at h
  split at h
  · exact (hp _ _ rfl).elim
  · rfl
  · rfl
  · rfl
  · rfl
  · cases h

end PendingStmt

namespace IteratorNames

def add? (name : Ident) : IteratorNames → Option IteratorNames
  | none => some (one name)
  | oneMore key => some (two key name)
  | _ => .none

def whole? : IteratorNames → Option (Option Ident × Ident)
  | one name => some (.none, name)
  | two key value => some (some key, value)
  | _ => .none

end IteratorNames

def RootPhase.reads : RootPhase → Option ExprContext
  | directiveArgs .. => some .directiveArgs
  | constValue .. => some .constValue
  | _ => none

def RootPhase.isBare : RootPhase → Bool
  | directiveArgs .. | directiveEnd .. | constValue .. => false
  | _ => true

def RootPhase.header? : RootPhase → Option FunctionHeader
  | param header _ | paramEnd header | functionEnd header => some header
  | _ => none

theorem RootPhase.reads_of_isBare {phase : RootPhase} (h : phase.isBare = true) : phase.reads = none := by
  cases phase with
  | directiveArgs | directiveEnd | constValue => cases h
  | _ => rfl

namespace Session

def fresh (context : ExprContext) : ExprState :=
  { context := context }

inductive StackShaped : List PendingStmt → Prop
  | bottom (node : Node) (statements : List Stmt) :
      StackShaped [.block ⟨node, .functionBody, statements⟩]
  | cons {top below : PendingStmt} {rest : List PendingStmt} (h : StackShaped (below :: rest))
      (hs : top.StandsOn below) : StackShaped (top :: below :: rest)

inductive Shaped (s : Session) : Prop
  | root {phase : RootPhase} (hm : s.mode = .root phase) (hs : s.stmts = []) (hr : s.recovery = none)
      (he : s.expr.map ExprState.context = phase.reads)
  | rootRecovery {depth : Nat} (hm : s.mode = .root .idle) (hs : s.stmts = [])
      (hr : s.recovery = some (.root depth)) (he : s.expr = none)
  | body {header : FunctionHeader} {top : PendingStmt} {rest : List PendingStmt}
      (hm : s.mode = .body header) (hs : s.stmts = top :: rest) (hk : StackShaped s.stmts)
      (hr : s.recovery = none) (he : s.expr.map ExprState.context = top.reads)
  | statement {header : FunctionHeader} {top : PendingStmt} {rest : List PendingStmt} {x : ExprState}
      (hm : s.mode = .body header) (hs : s.stmts = top :: rest) (hk : StackShaped s.stmts)
      (ht : top.isOpen = true) (hr : s.recovery = none) (he : s.expr = some x)
      (hx : x.context = .statement)
  | bodyRecovery {header : FunctionHeader} {top : PendingStmt} {rest : List PendingStmt}
      (hm : s.mode = .body header) (hs : s.stmts = top :: rest) (hk : StackShaped s.stmts)
      (ht : top.isOpen = true) (hr : s.recovery = some .statement) (he : s.expr = none)
  | expression (hm : s.mode = .expression) (hs : s.stmts = []) (hr : s.recovery = none)
      (he : ∀ x ∈ s.expr, x.context = .topLevel)
  | closed (hm : s.mode = .expressionEnd ∨ s.mode = .done) (hs : s.stmts = []) (hr : s.recovery = none)
      (he : s.expr = none)

structure Sound (s : Session) : Prop where
  shaped : s.halted = false → s.Shaped
  begun : ∀ x ∈ s.expr, x.started = true → x.stack ≠ [] ∨ x.slot.isSome = true
  closed : s.stream.Closed

end Session

end GameScript
