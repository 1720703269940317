import GameScript.Tree.Stmt

namespace GameScript

structure ParamModifiers where
  byRef : Bool := false
  variadic : Bool := false
  optional : Bool := false
deriving DecidableEq, Repr

/-- Only a bare `...` has no name. -/
structure Param where
  loc : Location
  name : Option Ident
  modifiers : ParamModifiers
deriving DecidableEq, Repr

structure FunctionDef where
  node : Node
  name : Ident
  params : List Param
  body : Option Block
  variadic : Bool
  /-- How many arguments a caller must give. -/
  minArgs : Nat

inductive DirectiveKind
  | importScript (path : ModulePath)
  | withArgs (name : Ident) (args : List Expr)
  | bare (name : Ident)

structure Directive where
  node : Node
  kind : DirectiveKind

structure ConstantDecl where
  node : Node
  name : Ident
  value : Expr
  folded : Option Value

inductive Declaration
  | function (f : FunctionDef)
  | directive (d : Directive)

structure Script where
  imports : List Directive := []
  declarations : List Declaration := []
  constants : List ConstantDecl := []
  globals : List Ident := []
  /-- Every function is a forward declaration. -/
  declarative : Bool := false

namespace Script

def functions (s : Script) : List FunctionDef :=
  s.declarations.filterMap fun
    | .function f => some f
    | .directive _ => none

def findFunction? (s : Script) (name : String) : Option FunctionDef :=
  s.functions.find? fun f => sameWord f.name.name name

end Script

inductive Graph
  | script (s : Script)
  | function (f : FunctionDef)
  | expression (e : Expr)

def Param.text (p : Param) : String :=
  (if p.modifiers.byRef then "&" else "") ++ (if p.modifiers.optional then "?" else "")
    ++ (if p.modifiers.variadic then "..." else "") ++ ((p.name.map Ident.name).getD "")

end GameScript
