/-!
# The shortest decimal text of a float

A finite float stands for every real number that rounds to it. Its text has the fewest digits
that a decimal number in that interval can have, and of the numbers with so few digits the one
nearest to the float.

## Main definitions

* `Numeral`: a decimal number by its digits and its power of ten
* `Binary`: the exact value of a finite float as `mantissa * 2 ^ exponent`
* `Binary.shortest`: its shortest decimal
* `positional`: the text of any float without an exponent
-/

namespace DealPacing.Decimal

/-- A decimal number `digits * 10 ^ exponent`. -/
structure Numeral where
  digits : Nat
  exponent : Int
deriving DecidableEq, Repr

/-- A positive float `mantissa * 2 ^ exponent`; `isBoundary` holds when the next smaller float is
only half as far away as the next greater one. -/
structure Binary where
  mantissa : Nat
  exponent : Int
  isBoundary : Bool
deriving DecidableEq, Repr

/-- The magnitude of the finite float with the given bits. -/
def Binary.ofBits (bits : UInt64) : Binary :=
  let word := bits.toNat
  let fraction := word % (1 <<< 52)
  let biased : Nat := word / (1 <<< 52) % (1 <<< 11)
  if biased = 0 then ⟨fraction, -1074, false⟩
  else ⟨(1 <<< 52) + fraction, (biased : Int) - 1075, fraction == 0 && biased != 1⟩

/-- The positive fraction `num / den`. -/
structure Ratio where
  num : Nat
  den : Nat
deriving DecidableEq, Repr

/-- `base ^ exponent` as a fraction. -/
def Ratio.power (base : Nat) : Int → Ratio
  | .ofNat n => ⟨base.pow n, 1⟩
  | .negSucc n => ⟨1, base.pow (n + 1)⟩

/-- The product of two fractions. -/
def Ratio.mul (a b : Ratio) : Ratio := ⟨a.num * b.num, a.den * b.den⟩

/-- The fraction times a natural number. -/
def Ratio.scale (a : Ratio) (n : Nat) : Ratio := ⟨a.num * n, a.den⟩

/-- One fraction is less than another. -/
def Ratio.lt (a b : Ratio) : Bool := a.num * b.den < b.num * a.den

namespace Binary

/-- The float as a fraction of quarters of its unit in the last place. -/
def quarters (b : Binary) (n : Nat) : Ratio := (Ratio.power 2 (b.exponent - 2)).scale n

/-- A fraction rounds to the float: the ends of the interval belong to it when the mantissa is
even. -/
def contains (b : Binary) (x : Ratio) : Bool :=
  let low := b.quarters (4 * b.mantissa - if b.isBoundary then 1 else 2)
  let high := b.quarters (4 * b.mantissa + 2)
  if b.mantissa % 2 = 0 then !x.lt low && !high.lt x else low.lt x && x.lt high

/-- The greatest multiple of `10 ^ exponent` that is no greater than the float, as a factor, and
whether the next multiple is nearer. -/
def onGrid (b : Binary) (exponent : Int) : Nat × Bool :=
  let x := (b.quarters (4 * b.mantissa)).mul (Ratio.power 10 (-exponent))
  let down := x.num / x.den
  (down, x.den ≤ 2 * (x.num - down * x.den))

/-- The decimal on the grid of `10 ^ exponent` that rounds to the float and is nearest to it; of
two equally near ones the greater. -/
def nearest? (b : Binary) (exponent : Int) : Option Nat :=
  let (down, upIsNearer) := b.onGrid exponent
  let reads (n : Nat) : Bool := n != 0 && b.contains ((Ratio.power 10 exponent).scale n)
  match reads down, reads (down + 1) with
  | true, true => some (if upIsNearer then down + 1 else down)
  | true, false => some down
  | false, true => some (down + 1)
  | false, false => none

/-- Search the grids from `10 ^ exponent` downwards. -/
def search (b : Binary) : Nat → Int → Numeral
  | 0, exponent => ⟨(b.onGrid exponent).1, exponent⟩
  | fuel + 1, exponent =>
    match b.nearest? exponent with
    | some digits => ⟨digits, exponent⟩
    | none => search b fuel (exponent - 1)

/-- A power of ten that is greater than the float by at most a factor of a hundred. -/
def magnitude (b : Binary) : Int :=
  let top : Int := b.exponent + (Nat.log2 b.mantissa : Int) + 1
  -- 30103 / 100000 is a little more than the decimal logarithm of two
  if 0 ≤ top then top * 30103 / 100000 + 1 else top * 30102 / 100000 + 1

/-- The shortest decimal of the float; no float needs more than seventeen digits. -/
def shortest (b : Binary) : Numeral := b.search 22 b.magnitude

end Binary

/-- The decimal digits of a natural number. -/
def digitChars (n : Nat) : List Char := (Nat.repr n).toList

/-- The text of a decimal without an exponent. -/
def Numeral.positional (d : Numeral) : String :=
  let cs := digitChars d.digits
  match d.exponent with
  | .ofNat n => String.ofList (cs ++ List.replicate n '0')
  | .negSucc n =>
    let places := n + 1
    if places < cs.length then
      String.ofList (cs.take (cs.length - places) ++ '.' :: cs.drop (cs.length - places))
    else String.ofList ('0' :: '.' :: List.replicate (places - cs.length) '0' ++ cs)

/-- The float has its sign bit set. -/
def isNegative (x : Float) : Bool := 1 <<< 63 ≤ x.toBits.toNat

/-- The text of a float without an exponent; whole numbers have no decimal mark. -/
def positional (x : Float) : String :=
  if x.isNaN then "NaN"
  else
    let sign := if isNegative x then "-" else ""
    if x.isInf then sign ++ "inf"
    else
      let b := Binary.ofBits x.toBits
      if b.mantissa = 0 then sign ++ "0" else sign ++ b.shortest.positional

end DealPacing.Decimal
