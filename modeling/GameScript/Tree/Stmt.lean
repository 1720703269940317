import GameScript.Tree.Expr

namespace GameScript

inductive CallKeyword
  | returnCall
  | waitCall
  | waitTillFrameEndCall
  | breakpointCall
deriving DecidableEq, Repr

def CallKeyword.keyword : CallKeyword → Keyword
  | returnCall => .returnKw
  | waitCall => .waitKw
  | waitTillFrameEndCall => .waitTillFrameEndKw
  | breakpointCall => .breakpointKw

def CallKeyword.text (k : CallKeyword) : String :=
  k.keyword.spelling

inductive FlowKind
  | breakFlow
  | continueFlow
deriving DecidableEq, Repr

def FlowKind.text : FlowKind → String
  | breakFlow => "break"
  | continueFlow => "continue"

inductive TargetKind
  | loop
  | switch
deriving DecidableEq, Repr

structure FlowTarget where
  kind : TargetKind
  id : Nat
deriving DecidableEq, Repr

inductive CaseLabel
  | value (e : Expr)
  | default (loc : Location)

def CaseLabel.isDefault : CaseLabel → Bool
  | value _ => false
  | default _ => true

structure Case where
  loc : Location
  /-- How many statements of the body come before the labels. -/
  offset : Nat
  labels : List CaseLabel
  /-- The first of the statements, and the one behind the last. -/
  first : Nat
  stop : Nat

def Case.isDefault (c : Case) : Bool :=
  c.labels.any CaseLabel.isDefault

inductive Stmt
  | expr (node : Node) (e : Expr)
  | keywordCall (node : Node) (keyword : CallKeyword) (argument : Option Expr)
  | flow (node : Node) (kind : FlowKind) (target : FlowTarget)
  | block (node : Node) (statements : List Stmt)
  | ifThen (node : Node) (condition : Expr) (thenBranch : Stmt)
  | ifElse (node : Node) (condition : Expr) (thenBranch elseBranch : Stmt)
  | whileLoop (node : Node) (condition : Expr) (body : Stmt)
  | forLoop (node : Node) (first condition step : Option Expr) (body : Stmt)
  | foreachLoop (node : Node) (key : Option Ident) (value : Ident) (collection : Expr) (body : Stmt)
  | switch (node : Node) (subject : Expr) (bodyNode : Node) (statements : List Stmt)
      (cases : List Case)

structure Block where
  node : Node
  statements : List Stmt

namespace Stmt

def node : Stmt → Node
  | expr n _ | keywordCall n _ _ | flow n _ _ | block n _ | ifThen n _ _ | ifElse n _ _ _
  | whileLoop n _ _ | forLoop n _ _ _ _ | foreachLoop n _ _ _ _ | switch n _ _ _ _ => n

def id (s : Stmt) : Nat := s.node.id

def loc (s : Stmt) : Location := s.node.loc

def segment (statements : List Stmt) (c : Case) : List Stmt :=
  (statements.take c.stop).drop c.first

end Stmt

end GameScript
