import GameScript.Location
import GameScript.Value.Literal
import GameScript.Vocabulary.Operator

namespace GameScript

structure Node where
  id : Nat
  loc : Location
deriving DecidableEq, Repr, Inhabited

structure Ident where
  name : String
  loc : Location
deriving DecidableEq, Repr

def Ident.same (a b : Ident) : Bool :=
  sameWord a.name b.name

abbrev ModulePath := List Ident

def samePath (a b : ModulePath) : Bool :=
  a.length == b.length && (a.zip b).all fun (x, y) => x.same y

inductive Qualifier
  | unqualified
  | own
  | path (segments : ModulePath)
deriving DecidableEq, Repr

structure FunctionRef where
  name : Ident
  qualifier : Qualifier
deriving DecidableEq, Repr

inductive CallModifier
  | thread
  | childThread
deriving DecidableEq, Repr

def CallModifier.keyword : CallModifier → Keyword
  | thread => .threadKw
  | childThread => .childThreadKw

inductive Expr
  | var (node : Node) (name : Ident)
  | func (node : Node) (target : FunctionRef)
  | index (node : Node) (target index : Expr)
  | member (node : Node) (target : Expr) (name : Ident)
  | literal (node : Node) (value : Literal)
  | binary (node : Node) (op : Operator) (left right : Expr)
  | unary (node : Node) (op : Operator) (operand : Expr)
  | suffix (node : Node) (op : Operator) (operand : Expr)
  | group (node : Node) (inner : Expr)
  | truple (node : Node) (x y z : Expr)
  | array (node : Node) (items : List Expr)
  | assign (node : Node) (op : Operator) (target value : Expr)
  | call (node : Node) (receiver : Option Expr) (modifier : Option CallModifier)
      (target : FunctionRef) (args : List Expr)
  | pointerCall (node : Node) (receiver : Option Expr) (modifier : Option CallModifier)
      (pointer : Expr) (args : List Expr)

namespace Expr

def node : Expr → Node
  | var n _ | func n _ | index n _ _ | member n _ _ | literal n _ | binary n _ _ _ | unary n _ _
  | suffix n _ _ | group n _ | truple n _ _ _ | array n _ | assign n _ _ _ | call n _ _ _ _
  | pointerCall n _ _ _ _ => n

def id (e : Expr) : Nat := e.node.id

def loc (e : Expr) : Location := e.node.loc

def isAssignable : Expr → Bool
  | var .. | index .. | member .. => true
  | _ => false

def hasEffect : Expr → Bool
  | assign .. | call .. | pointerCall .. | suffix .. => true
  | _ => false

def children : Expr → List Expr
  | var .. | func .. | literal .. => []
  | index _ target i => [target, i]
  | member _ target _ => [target]
  | binary _ _ left right => [left, right]
  | unary _ _ operand | suffix _ _ operand => [operand]
  | group _ inner => [inner]
  | truple _ x y z => [x, y, z]
  | array _ items => items
  | assign _ _ target value => [target, value]
  | call _ receiver _ _ args => receiver.toList ++ args
  | pointerCall _ receiver _ pointer args => receiver.toList ++ pointer :: args

end Expr

end GameScript
