/-!
# Floats read from decimal text

A float is read from the digits of its text as a significand that fits a 64-bit word, and a power
of ten. Digits that no longer fit the significand are dropped: before the decimal mark each of
them raises the exponent by one. The significand is rounded to a float first and then scaled by
powers of ten that are themselves rounded, so the last bit can differ from the nearest float.

## Main definitions

* `Significand`: digits read so far
* `scaled`: the float of a significand and a power of ten, none when it overflows
* `nearest?`: the float nearest to a number as people write it
-/

namespace DealPacing.Decimal

/-- The digits read so far stand for `digits * 10 ^ exponent`. -/
structure Significand where
  digits : Nat
  exponent : Int
deriving DecidableEq, Repr

namespace Significand

/-- One more digit would no longer fit a 64-bit word. -/
def isFull (s : Significand) (digit : Nat) : Bool := 18446744073709551615 < s.digits * 10 + digit

/-- Read one digit after the decimal mark. -/
def fractionDigit (s : Significand) (digit : Nat) : Significand :=
  ⟨s.digits * 10 + digit, s.exponent - 1⟩

end Significand

/-- The float nearest to `10 ^ n`. -/
def powerOfTen (n : Nat) : Float := OfScientific.ofScientific 1 false n

/-- The greatest power of ten below the largest float. -/
def maxPower : Nat := 308

/-- Divide by `10 ^ n`, in steps of the greatest representable power of ten. -/
def scaledDown (x : Float) (n : Nat) : Float :=
  if _h : n ≤ maxPower then x / powerOfTen n
  else if x == 0.0 then x
  else scaledDown (x / powerOfTen maxPower) (n - maxPower)
termination_by n
decreasing_by simp [maxPower] at *; omega

/-- The float of a significand; none when it lies beyond the largest float. -/
def scaled (s : Significand) : Option Float :=
  let x := Float.ofNat s.digits
  match s.exponent with
  | .ofNat n =>
    if n ≤ maxPower then
      let y := x * powerOfTen n
      if y.isInf then none else some y
    else if x == 0.0 then some x
    else none
  | .negSucc n => some (scaledDown x (n + 1))

/-! ## Numbers as people write them -/

/-- A sign in front of a text. -/
def splitSign : List Char → Bool × List Char
  | '-' :: rest => (true, rest)
  | '+' :: rest => (false, rest)
  | text => (false, text)

/-- The number written by digits. -/
def digitsValue (cs : List Char) : Nat := cs.foldl (fun n c => n * 10 + (c.toNat - '0'.toNat)) 0

/-- The integer that a text of digits with an optional sign writes. -/
def integer? (text : List Char) : Option Int :=
  let (negative, digits) := splitSign text
  if digits.isEmpty || !digits.all Char.isDigit then none
  else some (if negative then -(digitsValue digits : Int) else digitsValue digits)

/-- Powers of ten beyond this one, up or down, are beyond all floats. -/
def powerLimit : Int := 400

/-- The float nearest to `digits * 10 ^ exponent`. -/
def nearestScaled (digits : Nat) (exponent : Int) : Float :=
  let size : Int := (Nat.toDigits 10 digits).length + exponent
  if digits = 0 || size < -powerLimit then 0.0
  else if powerLimit < size then 1.0 / 0.0
  else
    match exponent with
    | .ofNat n => OfScientific.ofScientific digits false n
    | .negSucc n => OfScientific.ofScientific digits true (n + 1)

/-- The magnitude of a number written with digits, an optional decimal mark among them, and an
optional exponent. -/
def magnitude? (text : List Char) : Option Float :=
  let whole := text.takeWhile Char.isDigit
  let rest := text.drop whole.length
  let (fraction, rest) := match rest with
    | '.' :: rest => (rest.takeWhile Char.isDigit, rest.dropWhile Char.isDigit)
    | rest => ([], rest)
  if whole.isEmpty && fraction.isEmpty then none
  else
    let digits := digitsValue (whole ++ fraction)
    match rest with
    | [] => some (nearestScaled digits (-fraction.length))
    | c :: rest =>
      if c == 'e' || c == 'E' then
        (integer? rest).map fun exponent => nearestScaled digits (exponent - fraction.length)
      else none

/-- The float nearest to the number that a text writes; infinities and the value that is no number
have names. -/
def nearest? (text : String) : Option Float :=
  let (negative, rest) := splitSign text.toList
  let magnitude :=
    match String.ofList (rest.map Char.toLower) with
    | "inf" | "infinity" => some (1.0 / 0.0)
    | "nan" => some (0.0 / 0.0)
    | _ => magnitude? rest
  magnitude.map fun x => if negative then -x else x

end DealPacing.Decimal
