import GameScript.Decimal.Binary
import GameScript.Text.Basic

namespace GameScript.Decimal

inductive IntegerFault
  | malformed
  | outOfRange
deriving DecidableEq, Repr

def digitValue? (radix : Nat) (c : Char) : Option Nat :=
  let value? :=
    if c.isDigit then some (c.toNat - '0'.toNat)
    else if 'a' ≤ c ∧ c ≤ 'z' then some (c.toNat - 'a'.toNat + 10)
    else if 'A' ≤ c ∧ c ≤ 'Z' then some (c.toNat - 'A'.toNat + 10)
    else none
  value?.filter (· < radix)

def inRange64 (i : Int) : Bool :=
  -Int.pow 2 63 ≤ i && i < Int.pow 2 63

def readDigits (radix : Nat) (negative : Bool) (value : Int) : List Char → Except IntegerFault Int
  | [] => .ok value
  | c :: cs =>
    match digitValue? radix c with
    | none => .error .malformed
    | some d =>
      let next := if negative then value * radix - d else value * radix + d
      if inRange64 next then readDigits radix negative next cs else .error .outOfRange

def readInteger (radix : Nat) (text : List Char) : Except IntegerFault Int :=
  match text with
  | [] | ['+'] | ['-'] => .error .malformed
  | '+' :: digits => readDigits radix false 0 digits
  | '-' :: digits => readDigits radix true 0 digits
  | digits => readDigits radix false 0 digits

def digitsValue (digits : List Char) : Nat :=
  digits.foldl (fun n c => n * 10 + (c.toNat - '0'.toNat)) 0

def nearestDecimal (negative : Bool) (digits count : Nat) (exponent : Int) : Float :=
  if digits = 0 ∨ exponent + count < -400 then nearest negative 0 1
  else if 400 < exponent ∧ 0 < digits then infinity negative
  else
    let (up, down) := power 10 exponent
    nearest negative (digits * up) down

def readExponent? (text : List Char) : Option Int :=
  match text with
  | [] => some 0
  | e :: rest =>
    if e = 'e' ∨ e = 'E' then
      let (negative, digits) :=
        match rest with
        | '-' :: digits => (true, digits)
        | '+' :: digits => (false, digits)
        | digits => (false, digits)
      if digits.isEmpty || !digits.all Char.isDigit then none
      else if negative then some (-digitsValue digits) else some (digitsValue digits)
    else none

def readUnsigned? (negative : Bool) (text : List Char) : Option Float :=
  let word := lowerWord (String.ofList text)
  if word = "inf" ∨ word = "infinity" then some (infinity negative)
  else if word = "nan" then some nan
  else
    let whole := text.takeWhile Char.isDigit
    let rest := text.dropWhile Char.isDigit
    let (fraction, rest) :=
      match rest with
      | '.' :: tail => (tail.takeWhile Char.isDigit, tail.dropWhile Char.isDigit)
      | _ => ([], rest)
    if whole.isEmpty && fraction.isEmpty then none
    else
      (readExponent? rest).map fun exponent =>
        nearestDecimal negative (digitsValue (whole ++ fraction)) (whole.length + fraction.length)
          (exponent - fraction.length)

def readFloat? (text : String) : Option Float :=
  match text.toList with
  | '-' :: rest => readUnsigned? true rest
  | '+' :: rest => readUnsigned? false rest
  | rest => readUnsigned? false rest

end GameScript.Decimal
