import GameScript.Fold.Arithmetic
import GameScript.Tree.Render

namespace GameScript

abbrev Constants := List (String × Value)

def Constants.lookup? (cs : Constants) (name : String) : Option Value :=
  let lowered := lowerWord name
  (cs.find? fun c => c.1 == lowered).map Prod.snd

namespace Fold

def decidedBy (op : Operator) (left : Bool) : Bool :=
  if op = .andAnd then !left else left

def isLogical (op : Operator) : Bool :=
  op = .andAnd || op = .orOr

def component (v : Value) : Except FoldError Float :=
  match v.number? with
  | some x => .ok x
  | none => .error (.invalidOperand "( , , )" v.typeName)

def evaluate (lookup : String → Option Value) : Expr → Result
  | .literal _ l =>
    match l.value with
    | .ok v => .ok v
    | .error e => .error (.invalidLiteral e)
  | .var _ name =>
    match lookup name.name with
    | some v => .ok v
    | none => .error (.unknownConstant name.name)
  | .group _ inner => evaluate lookup inner
  | .truple _ x y z => do
    let a ← (evaluate lookup x).bind component
    let b ← (evaluate lookup y).bind component
    let c ← (evaluate lookup z).bind component
    return .vector a b c
  | .unary _ op operand => (evaluate lookup operand).bind (unary op)
  | .binary _ op left right =>
    if isLogical op then do
      let l ← (evaluate lookup left).bind (condition op)
      if decidedBy op l then return .bool l
      let r ← (evaluate lookup right).bind (condition op)
      return .bool r
    else do
      let l ← evaluate lookup left
      let r ← evaluate lookup right
      binary op l r
  | e => .error (.notConstant e.text)

def succeeds {α : Type} (r : Except FoldError α) : Bool :=
  match r with
  | .ok _ => true
  | .error _ => false

def reachesRight (lookup : String → Option Value) (op : Operator) (left : Expr) : Bool :=
  match evaluate lookup left with
  | .error _ => false
  | .ok v =>
    if isLogical op then
      match condition op v with
      | .ok l => !decidedBy op l
      | .error _ => false
    else true

/-- The expression with a note on every literal that its evaluation reads. -/
def noteRead (lookup : String → Option Value) : Expr → Expr
  | .literal n l => .literal n { l with folded := true }
  | .group n inner => .group n (noteRead lookup inner)
  | .truple n x y z =>
    let first := succeeds ((evaluate lookup x).bind component)
    let second := first && succeeds ((evaluate lookup y).bind component)
    .truple n (noteRead lookup x) (if first then noteRead lookup y else y)
      (if second then noteRead lookup z else z)
  | .unary n op operand => .unary n op (noteRead lookup operand)
  | .binary n op left right =>
    .binary n op (noteRead lookup left)
      (if reachesRight lookup op left then noteRead lookup right else right)
  | e => e

end Fold

end GameScript
