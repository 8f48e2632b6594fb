import DealPacing.Decimal.Shortest
import DealPacing.Json.Basic

/-!
# Writing JSON text

Values are written without blanks. A float is written with its shortest digits and always with a
decimal mark or an exponent, so that it is not read back as an integer.

## Main definitions

* `Json.render`: the text of a value
-/

namespace DealPacing.Json

/-- The hexadecimal digit of a number below sixteen. -/
def hexDigit (n : Nat) : Char :=
  if n < 10 then Char.ofNat ('0'.toNat + n) else Char.ofNat ('a'.toNat + n - 10)

/-- A character as it is written inside a string. -/
def escaped (c : Char) : List Char :=
  if c == '"' then ['\\', '"']
  else if c == '\\' then ['\\', '\\']
  else if c == '\n' then ['\\', 'n']
  else if c == '\r' then ['\\', 'r']
  else if c == '\t' then ['\\', 't']
  else if c.toNat < 0x20 then
    ['\\', 'u', '0', '0', hexDigit (c.toNat / 16), hexDigit (c.toNat % 16)]
  else [c]

/-- A string between quotes. -/
def quoted (s : String) : String :=
  (s.foldl (fun out c => (escaped c).foldl String.push out) "\"").push '"'

/-- The text of a decimal: positional when the decimal mark falls within sixteen digits, or at most
five places in front of them, and with an exponent otherwise. -/
def decimalText (d : Decimal.Numeral) : String :=
  let digits := Decimal.digitChars d.digits
  let point := (digits.length : Int) + d.exponent
  if 0 ≤ d.exponent && point ≤ 16 then d.positional ++ ".0"
  else if -5 < point && point ≤ 16 then d.positional
  else
    let mantissa := match digits with
      | [c] => [c]
      | c :: rest => c :: '.' :: rest
      | [] => []
    String.ofList mantissa ++ "e" ++ Int.repr (point - 1)

/-- Drop the zeros at the end of the digits. -/
def withoutTrailingZeros : Nat → Decimal.Numeral → Decimal.Numeral
  | 0, d => d
  | fuel + 1, d =>
    if d.digits != 0 && d.digits % 10 == 0 then
      withoutTrailingZeros fuel ⟨d.digits / 10, d.exponent + 1⟩
    else d

/-- The text of a finite float. -/
def floatText (x : Float) : String :=
  let b := Decimal.Binary.ofBits x.toBits
  let sign := if Decimal.isNegative x then "-" else ""
  if b.mantissa = 0 then sign ++ "0.0"
  else sign ++ decimalText (withoutTrailingZeros 20 b.shortest)

/-- The text of a number; a float that is no number is written as `null`. -/
def numberText : JsonNumber → String
  | .int n => Int.repr n
  | .float x => if x.isFinite then floatText x else "null"

mutual

/-- Append the text of a value. -/
def append (out : String) : Json → String
  | .null => out ++ "null"
  | .bool b => out ++ if b then "true" else "false"
  | .num n => out ++ numberText n
  | .str s => out ++ quoted s
  | .arr items => (appendItems (out.push '[') true items).push ']'
  | .obj entries => (appendEntries (out.push '\x7b') true entries).push '\x7d'

/-- Append the items of an array, with commas between them. -/
def appendItems (out : String) (isFirst : Bool) : List Json → String
  | [] => out
  | x :: rest => appendItems (append (if isFirst then out else out.push ',') x) false rest

/-- Append the entries of an object, with commas between them. -/
def appendEntries (out : String) (isFirst : Bool) : List (String × Json) → String
  | [] => out
  | (key, x) :: rest =>
    let out := (if isFirst then out else out.push ',') ++ quoted key
    appendEntries (append (out.push ':') x) false rest

end

/-- The text of a value. -/
def render (v : Json) : String := append "" v

end DealPacing.Json
