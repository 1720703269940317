import GameScript.Tree.Script

/-!
Unfinished constructs. An expression waits on the operand stack for what completes it; a statement
waits on the statement stack, and each phase of it holds what has been read so far.
-/

namespace GameScript

structure CallLead where
  receiver : Option Expr := none
  modifier : Option CallModifier := none

inductive Callee
  | function (target : FunctionRef)
  | pointer (e : Expr)

inductive PendingExpr
  | group (loc : Location) (items : List Expr)
  | call (loc : Location) (lead : CallLead) (callee : Callee) (args : List Expr)
  | lead (loc : Location) (lead : CallLead)
  | pointerOpen (loc : Location) (lead : CallLead)
  | pointerReady (loc : Location) (lead : CallLead) (pointer : Expr)
  | index (target : Expr)
  | array (loc : Location) (items : List Expr)
  | binary (op : Operator) (left : Expr)
  | unary (loc : Location) (op : Operator)
  | assign (op : Operator) (target : Expr)
  | member (target : Expr)
  | path (loc : Location) (segments : ModulePath) (awaiting : Bool)
  | qualified (loc : Location) (qualifier : Qualifier)

namespace PendingExpr

def isOperator : PendingExpr → Bool
  | binary .. | unary .. | assign .. => true
  | _ => false

def expectsName : PendingExpr → Bool
  | member _ | qualified .. => true
  | path _ _ awaiting => awaiting
  | _ => false

def isLead : PendingExpr → Bool
  | lead .. => true
  | _ => false

/-- The construct waits for a token of its own, so no callee can start. -/
def refusesCallee : PendingExpr → Bool
  | pointerReady .. | path .. => true
  | e => e.expectsName

def complaint : PendingExpr → String
  | group .. => "unclosed `(`"
  | call .. => "unclosed argument list"
  | lead .. => "expected a function call after the call prefix"
  | pointerOpen .. => "unclosed `[[`"
  | pointerReady .. => "expected `(` after a function pointer"
  | index _ | array .. => "unclosed `[`"
  | binary .. | unary .. | assign .. => "missing operand"
  | member _ => "expected a member name after `.`"
  | path .. => "expected `::` after a module path"
  | qualified .. => "expected a function name after `::`"

def complete? (id : Nat) (operand : Expr) : PendingExpr → Option Expr
  | binary op left => some (.binary ⟨id, left.loc⟩ op left operand)
  | unary loc op => some (.unary ⟨id, loc⟩ op operand)
  | assign op target => some (.assign ⟨id, target.loc⟩ op target operand)
  | _ => none

end PendingExpr

inductive ForClause
  | first
  | condition
  | step
deriving DecidableEq, Repr

inductive ExprContext
  | statement
  | condition
  | forClause (clause : ForClause)
  | foreachCollection
  | keywordArg
  | caseLabel
  | constValue
  | directiveArgs
  | topLevel
deriving DecidableEq, Repr

def ExprContext.takesAssignment : ExprContext → Bool
  | statement | forClause .first | forClause .step => true
  | _ => false

/-- The expression under construction: unfinished parts, the innermost first, and the operand that
was finished last. -/
structure ExprState where
  context : ExprContext
  started : Bool := false
  stack : List PendingExpr := []
  slot : Option Expr := none

inductive Completed
  | value (e : Expr)
  | empty
  | failed

namespace Completed

def isFailed : Completed → Bool
  | failed => true
  | _ => false

def value? : Completed → Option Expr
  | value e => some e
  | _ => none

end Completed

structure SwitchLabels where
  groups : List Case := []
  values : List Value := []
  hasDefault : Bool := false

inductive BlockRole
  | functionBody
  | nested
  | switchBody (labels : SwitchLabels)

structure PendingBlock where
  node : Node
  role : BlockRole
  statements : List Stmt := []

inductive IfPhase
  | start
  | condition
  | thenBranch (condition : Expr)
  | awaitElse (condition : Expr) (thenBranch : Stmt)
  | elseBranch (condition : Expr) (thenBranch : Stmt)

inductive HeaderPhase
  | start
  | condition
  | body (e : Expr)

inductive ForPhase
  | start
  | clause (clause : ForClause) (first condition : Option Expr)
  | body (first condition step : Option Expr)

inductive IteratorNames
  | none
  | one (name : Ident)
  | oneMore (name : Ident)
  | two (key value : Ident)

inductive ForeachPhase
  | start
  | names (names : IteratorNames)
  | collection (key : Option Ident) (value : Ident)
  | body (key : Option Ident) (value : Ident) (collection : Expr)

inductive PendingStmt
  | block (b : PendingBlock)
  | ifStmt (node : Node) (phase : IfPhase)
  | whileLoop (node : Node) (phase : HeaderPhase)
  | forLoop (node : Node) (phase : ForPhase)
  | foreachLoop (node : Node) (phase : ForeachPhase)
  | switch (node : Node) (phase : HeaderPhase)
  | keywordCall (node : Node) (keyword : CallKeyword)
  | flow (node : Node) (kind : FlowKind) (target : FlowTarget)
  | caseLabel (loc : Location)
  | defaultLabel (loc : Location)

namespace PendingStmt

/-- The header is incomplete. A switch that waits for its brace counts, too. -/
def inHeader : PendingStmt → Bool
  | block _ => false
  | ifStmt _ .start | ifStmt _ .condition => true
  | ifStmt .. => false
  | whileLoop _ (.body _) => false
  | whileLoop .. => true
  | forLoop _ (.body ..) => false
  | forLoop .. => true
  | foreachLoop _ (.body ..) => false
  | foreachLoop .. => true
  | switch .. | keywordCall .. | flow .. | caseLabel _ | defaultLabel _ => true

def awaitsBody : PendingStmt → Bool
  | ifStmt _ (.thenBranch _) | ifStmt _ (.elseBranch ..) | whileLoop _ (.body _)
  | forLoop _ (.body ..) | foreachLoop _ (.body ..) => true
  | _ => false

def flowTarget? : PendingStmt → Option FlowTarget
  | whileLoop node (.body _) | forLoop node (.body ..) | foreachLoop node (.body ..) =>
    some ⟨.loop, node.id⟩
  | switch node (.body _) => some ⟨.switch, node.id⟩
  | _ => none

/-- The statement with its last part, if the next statement is that part. -/
def complete? (body : Stmt) : PendingStmt → Option Stmt
  | ifStmt node (.elseBranch condition thenBranch) => some (.ifElse node condition thenBranch body)
  | whileLoop node (.body condition) => some (.whileLoop node condition body)
  | forLoop node (.body first condition step) => some (.forLoop node first condition step body)
  | foreachLoop node (.body key value collection) =>
    some (.foreachLoop node key value collection body)
  | _ => none

def iterators : PendingStmt → List Ident
  | foreachLoop _ (.body key value _) => key.toList ++ [value]
  | _ => []

end PendingStmt

structure FunctionHeader where
  node : Node
  name : Ident
  params : List Param := []

namespace FunctionHeader

/-- The parameters before the first optional one; with none, all that are not variadic. -/
def minArgs (params : List Param) : Nat :=
  match params.findIdx? fun p => p.modifiers.optional with
  | some i => i
  | none => (params.filter fun p => !p.modifiers.variadic).length

def define (h : FunctionHeader) (body : Option Block) : FunctionDef :=
  let variadic := (h.params.getLast?.map fun p => p.modifiers.variadic).getD false
  ⟨h.node, h.name, h.params, body, variadic, minArgs h.params⟩

end FunctionHeader

abbrev PendingParam := Option (Location × ParamModifiers)

inductive RootPhase
  | idle
  | directiveName (loc : Location)
  | importPath (loc : Location) (segments : ModulePath) (awaiting : Bool)
  | directiveHead (loc : Location) (name : Ident)
  | directiveArgs (loc : Location) (name : Ident) (args : List Expr)
  | directiveEnd (loc : Location) (name : Ident) (args : List Expr)
  | constName (loc : Location)
  | constEquals (loc : Location) (name : Ident)
  | constValue (loc : Location) (name : Ident)
  | globals (names : List Ident) (awaiting : Bool)
  | functionOpen (name : Ident)
  | param (header : FunctionHeader) (pending : PendingParam)
  | paramEnd (header : FunctionHeader)
  | functionEnd (header : FunctionHeader)

inductive Mode
  | root (phase : RootPhase)
  | body (header : FunctionHeader)
  | expression
  | expressionEnd
  | done

inductive Recovery
  /-- To a semicolon, or before a brace, a statement keyword or the end. -/
  | statement
  /-- To a semicolon outside of all braces, or to the brace that closes the last open one. -/
  | root (depth : Nat)
deriving DecidableEq, Repr

end GameScript
