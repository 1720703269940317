import GameScript.Value.Literal
import GameScript.Vocabulary.Operator

namespace GameScript

inductive FoldError
  | notConstant (text : String)
  | unknownConstant (name : String)
  | divisionByZero
  | typeMismatch (op : Operator) (left right : String)
  | invalidOperand (op operand : String)
  | invalidLiteral (e : LiteralError)
  | overflow
deriving DecidableEq, Repr

def FoldError.message : FoldError → String
  | notConstant text => "`" ++ text ++ "` is not a constant expression"
  | unknownConstant name => "unknown constant `" ++ name ++ "`"
  | divisionByZero => "division by zero"
  | typeMismatch op left right =>
    "operator `" ++ op.spelling ++ "` cannot combine " ++ left ++ " and " ++ right
  | invalidOperand op operand => "operator `" ++ op ++ "` cannot be applied to " ++ operand
  | invalidLiteral e => e.message
  | overflow => "integer overflow in constant expression"

end GameScript

namespace GameScript.Fold

abbrev Result := Except FoldError Value

def checked (i : Int) : Result :=
  if Decimal.inRange64 i then .ok (.int (Int64.ofInt i)) else .error .overflow

def compared? (op : Operator) (order : Ordering) : Option Value :=
  match op with
  | .lt => some (.bool (order == .lt))
  | .ltEq => some (.bool (order != .gt))
  | .gt => some (.bool (order == .gt))
  | .gtEq => some (.bool (order != .lt))
  | .eqEq => some (.bool (order == .eq))
  | .notEq => some (.bool (order != .eq))
  | _ => none

/-- A shift by 0 up to 63 places; what a left shift pushes out is lost. -/
def shifted (op : Operator) (l r : Int64) : Result :=
  if 0 ≤ r.toInt ∧ r.toInt < 64 then
    if op = .shl then .ok (.int (Int64.ofInt (l.toInt * Int.pow 2 r.toInt.toNat)))
    else .ok (.int (Int64.ofInt (l.toInt / Int.pow 2 r.toInt.toNat)))
  else .error .overflow

/-- Integer operators; `none` for those that integers do not have. -/
def integers? (op : Operator) (l r : Int64) : Option Result :=
  match op with
  | .plus => some (checked (l.toInt + r.toInt))
  | .minus => some (checked (l.toInt - r.toInt))
  | .star => some (checked (l.toInt * r.toInt))
  | .slash => some (if r = 0 then .error .divisionByZero else checked (l.toInt.tdiv r.toInt))
  | .percent =>
    some (if r = 0 then .error .divisionByZero
      else (checked (l.toInt.tdiv r.toInt)).bind fun _ => checked (l.toInt.tmod r.toInt))
  | .shl | .shr => some (shifted op l r)
  | .bitAnd => some (.ok (.int (l &&& r)))
  | .bitOr => some (.ok (.int (l ||| r)))
  | .bitXor => some (.ok (.int (l ^^^ r)))
  | _ => (compared? op (compare l.toInt r.toInt)).map .ok

def floatOrder? (l r : Float) : Option Ordering :=
  if l < r then some .lt
  else if r < l then some .gt
  else if l == r then some .eq
  else none

def floats? (op : Operator) (l r : Float) : Option Result :=
  match op with
  | .plus => some (.ok (.float (l + r)))
  | .minus => some (.ok (.float (l - r)))
  | .star => some (.ok (.float (l * r)))
  | .slash => some (if r == 0 then .error .divisionByZero else .ok (.float (l / r)))
  | .percent =>
    some (if r == 0 then .error .divisionByZero else .ok (.float (Decimal.remainder l r)))
  | _ => ((floatOrder? l r).bind (compared? op)).map .ok

def numberText : Value → String
  | .float x => Decimal.format .plain x
  | v => v.text

def mismatch (op : Operator) (l r : Value) : Result :=
  .error (.typeMismatch op l.typeName r.typeName)

def equality? (op : Operator) (equal : Bool) : Option Value :=
  match op with
  | .eqEq => some (.bool equal)
  | .notEq => some (.bool !equal)
  | _ => none

def scaled (x y z k : Float) : Value :=
  .vector (x * k) (y * k) (z * k)

def binary (op : Operator) (left right : Value) : Result :=
  let orMismatch (r : Option Result) : Result := r.getD (mismatch op left right)
  let equality (equal : Bool) : Result := orMismatch ((equality? op equal).map .ok)
  match left, right with
  | .int l, .int r => orMismatch (integers? op l r)
  | .int l, .float r => orMismatch (floats? op (Decimal.ofInt l.toInt) r)
  | .float l, .int r => orMismatch (floats? op l (Decimal.ofInt r.toInt))
  | .float l, .float r => orMismatch (floats? op l r)
  | .string l, .string r => if op = .plus then .ok (.string (l ++ r)) else equality (l == r)
  | .string l, .int _ | .string l, .float _ =>
    if op = .plus then .ok (.string (l ++ numberText right)) else mismatch op left right
  | .int _, .string r | .float _, .string r =>
    if op = .plus then .ok (.string (numberText left ++ r)) else mismatch op left right
  | .vector x y z, .vector u v w =>
    match op with
    | .plus => .ok (.vector (x + u) (y + v) (z + w))
    | .minus => .ok (.vector (x - u) (y - v) (z - w))
    | _ => equality (left.same right)
  | .vector x y z, .int k =>
    if op = .star then .ok (scaled x y z (Decimal.ofInt k.toInt)) else mismatch op left right
  | .vector x y z, .float k => if op = .star then .ok (scaled x y z k) else mismatch op left right
  | .int k, .vector x y z =>
    if op = .star then .ok (scaled x y z (Decimal.ofInt k.toInt)) else mismatch op left right
  | .float k, .vector x y z => if op = .star then .ok (scaled x y z k) else mismatch op left right
  | .bool l, .bool r => equality (l == r)
  | .undefined, _ | _, .undefined => equality (left.same right)
  | _, _ => mismatch op left right

def condition (op : Operator) (v : Value) : Except FoldError Bool :=
  match v.truthy? with
  | some b => .ok b
  | none => .error (.invalidOperand op.spelling v.typeName)

def unary (op : Operator) (v : Value) : Result :=
  match op, v with
  | .not, _ => (condition op v).map fun b => .bool !b
  | .negate, .int i => checked (-i.toInt)
  | .negate, .float x => .ok (.float (-x))
  | .negate, .vector x y z => .ok (.vector (-x) (-y) (-z))
  | .bitNot, .int i => .ok (.int (~~~i))
  | _, _ => .error (.invalidOperand op.spelling v.typeName)

end GameScript.Fold
