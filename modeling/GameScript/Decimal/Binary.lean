namespace GameScript.Decimal

/-- What a double stands for; a finite one is `mantissa * 2 ^ exponent` with its sign. -/
inductive Binary
  | nan
  | infinite (negative : Bool)
  | finite (negative : Bool) (mantissa : Nat) (exponent : Int)
deriving DecidableEq, Repr

def leastExponent : Int := -1074

def leastNormal : Nat := Nat.pow 2 52

def infinityBits : Nat := 0x7ff * Nat.pow 2 52

def Binary.ofFloat (x : Float) : Binary :=
  let bits : Nat := x.toBits.toNat
  let negative := Nat.pow 2 63 ≤ bits
  let field : Nat := bits / Nat.pow 2 52 % Nat.pow 2 11
  let low : Nat := bits % Nat.pow 2 52
  if field = 0x7ff then if low = 0 then .infinite negative else .nan
  else if field = 0 then .finite negative low leastExponent
  else .finite negative (low + leastNormal) ((field : Int) - 1075)

def power (base : Nat) (e : Int) : Nat × Nat :=
  if 0 ≤ e then (Nat.pow base e.toNat, 1) else (1, Nat.pow base (-e).toNat)

def roundEven (num den : Nat) : Nat :=
  let whole := num / den
  let left := 2 * (num % den)
  if den < left ∨ (left = den ∧ whole % 2 = 1) then whole + 1 else whole

def exponentOf (num den : Nat) : Int :=
  let guess : Int := (num.log2 : Int) - den.log2 - 53
  let (up, down) := power 2 guess
  let exponent := if num * down / (den * up) < Nat.pow 2 53 then guess else guess + 1
  max leastExponent exponent

def nearestBits (num den : Nat) : Nat :=
  if num = 0 then 0
  else
    let exponent := exponentOf num den
    let (up, down) := power 2 exponent
    let mantissa := roundEven (num * down) (den * up)
    min infinityBits ((exponent - leastExponent).toNat * leastNormal + mantissa)

def nearest (negative : Bool) (num den : Nat) : Float :=
  Float.ofBits (UInt64.ofNat (nearestBits num den + if negative then Nat.pow 2 63 else 0))

def infinity (negative : Bool) : Float :=
  Float.ofBits (UInt64.ofNat (infinityBits + if negative then Nat.pow 2 63 else 0))

def nan : Float :=
  Float.ofBits (UInt64.ofNat (infinityBits + Nat.pow 2 51))

def ofInt (i : Int) : Float :=
  nearest (i < 0) i.natAbs 1

/-- What is left of `x` after subtracting whole multiples of `y` towards zero, with the sign of `x`.
The result is exact. -/
def remainder (x y : Float) : Float :=
  match Binary.ofFloat x, Binary.ofFloat y with
  | .finite negative m p, .finite _ n q =>
    if n = 0 then nan
    else
      let low := min p q
      let left := m * Nat.pow 2 (p - low).toNat % (n * Nat.pow 2 (q - low).toNat)
      let (up, down) := power 2 low
      nearest negative (left * up) down
  | .finite .., .infinite _ => x
  | _, _ => nan

end GameScript.Decimal
