import GameScript.Decimal.Binary

/-!
The shortest decimal that reads back as a double. On the coarsest decimal grid that has a point
among the numbers rounding to the double, the nearer of the two neighbours wins, and the upper one
if both are equally near.
-/

namespace GameScript.Decimal

structure Digits where
  digits : Nat
  exponent : Int
deriving DecidableEq, Repr

/-- The numbers that round to `mantissa * 2 ^ exponent`, in quarters of its last place. -/
structure Neighbourhood where
  low : Nat
  value : Nat
  high : Nat
  closed : Bool

def neighbourhood (mantissa : Nat) (exponent : Int) : Neighbourhood where
  low := if mantissa = leastNormal ∧ leastExponent < exponent then 4 * mantissa - 1 else 4 * mantissa - 2
  value := 4 * mantissa
  high := 4 * mantissa + 2
  closed := mantissa % 2 = 0

def Neighbourhood.holds (n : Neighbourhood) (unit point : Nat) : Bool :=
  if n.closed then n.low * unit ≤ point ∧ point ≤ n.high * unit
  else n.low * unit < point ∧ point < n.high * unit

def onGrid (mantissa : Nat) (exponent place : Int) : Option Nat :=
  let n := neighbourhood mantissa exponent
  let (twoUp, twoDown) := power 2 (exponent - 2)
  let (tenUp, tenDown) := power 10 place
  let unit := twoUp * tenDown
  let step := tenUp * twoDown
  let floor := n.value * unit / step
  let below := n.holds unit (floor * step)
  let above := n.holds unit ((floor + 1) * step)
  if below ∧ above then
    if 2 * (n.value * unit) < (2 * floor + 1) * step then some floor else some (floor + 1)
  else if below then some floor
  else if above then some (floor + 1)
  else none

def coarsest (mantissa : Nat) (exponent place : Int) : Nat → Digits
  | 0 => ⟨mantissa, place⟩
  | fuel + 1 =>
    match onGrid mantissa exponent place with
    | some digits => ⟨digits, place⟩
    | none => coarsest mantissa exponent (place - 1) fuel

def topPlace (mantissa : Nat) (exponent : Int) : Int :=
  ((mantissa.log2 : Int) + 1 + exponent) * 30103 / 100000 + 2

def shortest (mantissa : Nat) (exponent : Int) : Digits :=
  coarsest mantissa exponent (topPlace mantissa exponent) 25

end GameScript.Decimal
