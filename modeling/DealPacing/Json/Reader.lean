import DealPacing.Decimal.Reading
import DealPacing.Json.Basic

/-!
# Reading JSON text

The reader follows the JSON grammar strictly: no trailing commas, comments or byte order mark, no
control characters or lone surrogates in strings, no leading zeros. Values nest at most
`nestingLimit` deep, and a number beyond the range of floats is refused. Of equal keys in an object
the last wins.

## Main definitions

* `Json.Reader.value`: read one value from the front of a text
* `Json.parse`: read a text that holds exactly one value
-/

namespace DealPacing.Json.Reader

/-- Space, tab, line feed and carriage return separate tokens. -/
def isBlank (c : Char) : Bool := c == ' ' || c == '\t' || c == '\n' || c == '\r'

/-- Drop the blanks in front of a token. -/
def skipBlank (text : List Char) : List Char := text.dropWhile isBlank

/-- The value of a decimal digit. -/
def digit? (c : Char) : Option Nat := if c.isDigit then some (c.toNat - '0'.toNat) else none

/-- The value of a hexadecimal digit. -/
def hexDigit? (c : Char) : Option Nat :=
  if c.isDigit then some (c.toNat - '0'.toNat)
  else if 'a' ≤ c && c ≤ 'f' then some (c.toNat - 'a'.toNat + 10)
  else if 'A' ≤ c && c ≤ 'F' then some (c.toNat - 'A'.toNat + 10)
  else none

/-- The code unit of four hexadecimal digits. -/
def codeUnit? (a b c d : Char) : Option Nat := do
  let a ← hexDigit? a
  let b ← hexDigit? b
  let c ← hexDigit? c
  let d ← hexDigit? d
  return ((a * 16 + b) * 16 + c) * 16 + d

/-- The character of an escape letter other than `u`. -/
def simpleEscape? : Char → Option Char
  | '"' => some '"'
  | '\\' => some '\\'
  | '/' => some '/'
  | 'b' => some (Char.ofNat 8)
  | 'f' => some (Char.ofNat 12)
  | 'n' => some '\n'
  | 'r' => some '\r'
  | 't' => some '\t'
  | _ => none

/-- The character written by a code unit, and by the unit after it when the first is the leading
half of a surrogate pair. -/
def pairedUnits? (lead : Nat) (rest : List Char) : Option (Char × List Char) :=
  if 0xD800 ≤ lead && lead < 0xDC00 then
    match rest with
    | '\\' :: 'u' :: a :: b :: c :: d :: rest => do
      let trail ← codeUnit? a b c d
      if 0xDC00 ≤ trail && trail < 0xE000 then
        some (Char.ofNat (0x10000 + (lead - 0xD800) * 0x400 + (trail - 0xDC00)), rest)
      else none
    | _ => none
  else if 0xDC00 ≤ lead && lead < 0xE000 then none
  else some (Char.ofNat lead, rest)

/-- The character after a backslash. -/
def escape? : List Char → Option (Char × List Char)
  | 'u' :: a :: b :: c :: d :: rest => do pairedUnits? (← codeUnit? a b c d) rest
  | c :: rest => do return (← simpleEscape? c, rest)
  | [] => none

/-- The rest of a string after its opening quote; `read` holds the characters so far, last first.
The fuel bounds the number of characters. -/
def stringRest : Nat → List Char → List Char → Option (String × List Char)
  | 0, _, _ => none
  | fuel + 1, read, text =>
    match text with
    | '"' :: rest => some (String.ofList read.reverse, rest)
    | '\\' :: rest => do
      let (c, rest) ← escape? rest
      stringRest fuel (c :: read) rest
    | c :: rest => if c.toNat < 0x20 then none else stringRest fuel (c :: read) rest
    | [] => none

/-- Read a string from its opening quote. -/
def string : List Char → Option (String × List Char)
  | '"' :: rest => stringRest (rest.length + 1) [] rest
  | _ => none

/-- Digits before the decimal mark: `true` once they overflow the significand, which then counts
the dropped digits in its exponent. -/
def integerDigits (s : Decimal.Significand) (overflowed : Bool) :
    List Char → Decimal.Significand × Bool × List Char
  | [] => (s, overflowed, [])
  | c :: rest =>
    match digit? c with
    | none => (s, overflowed, c :: rest)
    | some d =>
      if overflowed || s.isFull d then integerDigits ⟨s.digits, s.exponent + 1⟩ true rest
      else integerDigits ⟨s.digits * 10 + d, s.exponent⟩ false rest

/-- Digits after the decimal mark; those that overflow the significand, and all after them, are
dropped. -/
def fractionDigits (s : Decimal.Significand) (overflowed : Bool) :
    List Char → Decimal.Significand × List Char
  | [] => (s, [])
  | c :: rest =>
    match digit? c with
    | none => (s, c :: rest)
    | some d =>
      if overflowed || s.isFull d then fractionDigits s true rest
      else fractionDigits (s.fractionDigit d) false rest

/-- The number that a run of digits stands for, and the text after it. -/
def naturalDigits (n : Nat) : List Char → Nat × List Char
  | [] => (n, [])
  | c :: rest =>
    match digit? c with
    | none => (n, c :: rest)
    | some d => naturalDigits (n * 10 + d) rest

/-- The text starts with a digit. -/
def startsWithDigit : List Char → Bool
  | c :: _ => c.isDigit
  | [] => false

/-- The greatest exponent that is taken at its value. -/
def exponentLimit : Nat := 2147483647

/-- The float of a significand and a written exponent. An exponent beyond `exponentLimit` leaves
zero, or refuses the number when it is positive and the significand is not zero. -/
def withExponent (s : Decimal.Significand) (negative : Bool) (exponent : Nat) : Option Float :=
  if exponentLimit < exponent then
    if s.digits != 0 && !negative then none else some 0.0
  else
    Decimal.scaled ⟨s.digits, if negative then s.exponent - exponent else s.exponent + exponent⟩

/-- The rest of a float after its significand: an optional exponent. -/
def exponentRest (s : Decimal.Significand) : List Char → Option (Float × List Char)
  | c :: rest =>
    if c == 'e' || c == 'E' then
      let (negative, rest) := match rest with
        | '+' :: rest => (false, rest)
        | '-' :: rest => (true, rest)
        | rest => (false, rest)
      if startsWithDigit rest then
        let (exponent, rest) := naturalDigits 0 rest
        (withExponent s negative exponent).map (·, rest)
      else none
    else (Decimal.scaled s).map (·, c :: rest)
  | [] => (Decimal.scaled s).map (·, [])

/-- The number of an integer written without fraction and exponent: negative zero and integers
beyond 64 bits are floats. -/
def integerNumber (negative : Bool) (digits : Nat) : JsonNumber :=
  if negative then
    if digits = 0 || int64Max + 1 < digits then .float (-(Float.ofNat digits))
    else .int (-digits)
  else .int digits

/-- Read an unsigned number and give it the sign. -/
def unsignedNumber (negative : Bool) (text : List Char) : Option (JsonNumber × List Char) :=
  let float (x : Float) : JsonNumber := .float (if negative then -x else x)
  if !startsWithDigit text then none
  else
    let (s, overflowed, rest) := integerDigits ⟨0, 0⟩ false text
    match text, rest with
    | '0' :: c :: _, _ =>
      if c.isDigit then none else fractional float s overflowed rest
    | _, _ => fractional float s overflowed rest
where
  /-- The number after its integer digits. -/
  fractional (float : Float → JsonNumber) (s : Decimal.Significand) (overflowed : Bool)
      (rest : List Char) : Option (JsonNumber × List Char) :=
    match rest with
    | '.' :: rest =>
      if startsWithDigit rest then
        let (s, rest) := fractionDigits s false rest
        (exponentRest s rest).map fun (x, rest) => (float x, rest)
      else none
    | 'e' :: _ | 'E' :: _ => (exponentRest s rest).map fun (x, rest) => (float x, rest)
    | _ =>
      if overflowed then (Decimal.scaled s).map fun x => (float x, rest)
      else some (integerNumber negative s.digits, rest)

/-- Read a number. -/
def number : List Char → Option (JsonNumber × List Char)
  | '-' :: rest => unsignedNumber true rest
  | text => unsignedNumber false text

/-- Read the items of a bracketed list after its first item, up to the closing bracket. The fuel
bounds the number of items. -/
def itemsRest {α : Type} (item : List Char → Option (α × List Char)) (close : Char) :
    Nat → List α → List Char → Option (List α × List Char)
  | 0, _, _ => none
  | fuel + 1, read, text =>
    match skipBlank text with
    | c :: rest =>
      if c == close then some (read.reverse, rest)
      else if c == ',' then do
        let (x, rest) ← item (skipBlank rest)
        itemsRest item close fuel (x :: read) rest
      else none
    | [] => none

/-- Read the items of a bracketed list after its opening bracket. -/
def items {α : Type} (item : List Char → Option (α × List Char)) (close : Char)
    (text : List Char) : Option (List α × List Char) :=
  match skipBlank text with
  | c :: rest =>
    if c == close then some ([], rest)
    else do
      let (x, rest) ← item (c :: rest)
      itemsRest item close (rest.length + 1) [x] rest
  | [] => none

/-- Read an object entry: a key, a colon and a value. -/
def entry (value : List Char → Option (Json × List Char)) (text : List Char) :
    Option ((String × Json) × List Char) := do
  let (key, rest) ← string text
  match skipBlank rest with
  | ':' :: rest =>
    let (v, rest) ← value rest
    some ((key, v), rest)
  | _ => none

/-- Read a value that holds at most `depth` levels of arrays and objects. -/
def value : Nat → List Char → Option (Json × List Char)
  | depth, text =>
    match skipBlank text with
    | 'n' :: 'u' :: 'l' :: 'l' :: rest => some (.null, rest)
    | 't' :: 'r' :: 'u' :: 'e' :: rest => some (.bool true, rest)
    | 'f' :: 'a' :: 'l' :: 's' :: 'e' :: rest => some (.bool false, rest)
    | '"' :: rest => (string ('"' :: rest)).map fun (s, rest) => (.str s, rest)
    | '[' :: rest =>
      match depth with
      | 0 => none
      | depth + 1 => (items (value depth) ']' rest).map fun (xs, rest) => (.arr xs, rest)
    | '\x7b' :: rest =>
      match depth with
      | 0 => none
      | depth + 1 =>
        (items (entry (value depth)) '\x7d' rest).map fun (es, rest) => (object es, rest)
    | text => (number text).map fun (n, rest) => (.num n, rest)

/-- Arrays and objects nest at most this deep. -/
def nestingLimit : Nat := 127

end DealPacing.Json.Reader

namespace DealPacing.Json

/-- Read a text that holds exactly one value. -/
def parse (text : String) : Option Json :=
  match Reader.value Reader.nestingLimit text.toList with
  | some (v, rest) => if (Reader.skipBlank rest).isEmpty then some v else none
  | none => none

end DealPacing.Json
