import GameScript.Decimal.Layout
import GameScript.Text.Hidden

namespace GameScript

inductive Value
  | int (i : Int64)
  | float (x : Float)
  | string (s : String)
  | localized (s : String)
  | resource (name : String)
  | bool (b : Bool)
  | undefined
  | vector (x y z : Float)

namespace Value

/-- Equality of values of one type; floats compare as numbers, so that NaN equals nothing. -/
def same : Value → Value → Bool
  | int i, int j => i == j
  | float x, float y => x == y
  | string s, string t => s == t
  | localized s, localized t => s == t
  | resource s, resource t => s == t
  | bool a, bool b => a == b
  | undefined, undefined => true
  | vector x y z, vector u v w => x == u && y == v && z == w
  | _, _ => false

def typeName : Value → String
  | int _ => "int"
  | float _ => "float"
  | string _ => "string"
  | localized _ => "localized string"
  | resource _ => "resource"
  | bool _ => "bool"
  | undefined => "undefined"
  | vector .. => "vector"

def number? : Value → Option Float
  | int i => some (Decimal.ofInt i.toInt)
  | float x => some x
  | _ => none

def truthy? : Value → Option Bool
  | bool b => some b
  | int i => some (i != 0)
  | float x => some (x != 0)
  | undefined => some false
  | _ => none

def text : Value → String
  | int i => toString i.toInt
  | float x => Decimal.format .value x
  | string s => Quoted.string s
  | localized s => "&" ++ Quoted.string s
  | resource name => "%" ++ name
  | bool b => if b then "true" else "false"
  | undefined => "undefined"
  | vector x y z =>
    "(" ++ Decimal.format .value x ++ ", " ++ Decimal.format .value y ++ ", "
      ++ Decimal.format .value z ++ ")"

end Value

end GameScript
