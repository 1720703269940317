import GameScript.Decimal.Shortest

namespace GameScript.Decimal

structure Layout where
  scientificBelow : Option Int
  scientificFrom : Option Int
  wholePoint : Bool

/-- Values: scientific outside of 0.0001 up to 10 to the 16th, and never mistaken for an integer. -/
def Layout.value : Layout := ⟨some (-4), some 16, true⟩

def Layout.plain : Layout := ⟨none, none, false⟩

def zeros (n : Nat) : List Char :=
  List.replicate n '0'

def positional (layout : Layout) (digits : List Char) (exponent : Int) : List Char :=
  if 0 ≤ exponent then
    digits ++ zeros exponent.toNat ++ if layout.wholePoint then ['.', '0'] else []
  else
    let places := (-exponent).toNat
    if places < digits.length then
      digits.take (digits.length - places) ++ '.' :: digits.drop (digits.length - places)
    else '0' :: '.' :: zeros (places - digits.length) ++ digits

def scientific (digits : List Char) (power : Int) : List Char :=
  let tail := digits.drop 1
  digits.take 1 ++ (if tail.isEmpty then [] else '.' :: tail) ++ 'e' :: (toString power).toList

def unsigned (layout : Layout) (d : Digits) : List Char :=
  let digits := Nat.toDigits 10 d.digits
  let power := d.exponent + digits.length - 1
  let small := (layout.scientificBelow.map fun e => decide (power < e)).getD false
  let large := (layout.scientificFrom.map fun e => decide (e ≤ power)).getD false
  if small || large then scientific digits power else positional layout digits d.exponent

def format (layout : Layout) (x : Float) : String :=
  let signed (negative : Bool) (text : List Char) : String :=
    String.ofList (if negative then '-' :: text else text)
  match Binary.ofFloat x with
  | .nan => "NaN"
  | .infinite negative => signed negative ['i', 'n', 'f']
  | .finite negative mantissa exponent =>
    if mantissa = 0 then signed negative (positional layout ['0'] 0)
    else signed negative (unsigned layout (shortest mantissa exponent))

end GameScript.Decimal
