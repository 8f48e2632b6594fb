import DealPacing.Text.Blank
import DealPacing.Time.Civil
import DealPacing.Time.Instant

/-!
# Instants as text

Time stamps are read leniently: numbers may have fewer digits than their field and blanks in front
of them, the date and the time are separated by `T`, `t` or a space, and the offset from UTC is `Z`,
`UTC` or hours and minutes. A year with a sign has any number of digits. Second 60 is a leap second.
Time stamps are written in UTC with a chosen number of fraction digits.

## Main definitions

* `Instant.parse?`: read a time stamp
* `Instant.format`: write a time stamp with a number of fraction digits
* `Instant.formatMillis`, `Instant.formatShortest`: write with three, or with the fewest exact
  digits
-/

namespace DealPacing

namespace Instant

/-- Fields of a time stamp as they are written, before they are checked against each other. -/
structure Fields where
  date : Date
  hour : Nat
  minute : Nat
  second : Nat
  nano : Nat
  offset : Int
deriving DecidableEq, Repr

namespace Scan

/-- The number written by digits. -/
def digitsValue (cs : List Char) : Nat := cs.foldl (fun n c => n * 10 + (c.toNat - '0'.toNat)) 0

/-- Read a number of one to `width` digits. -/
def number (width : Nat) (text : List Char) : Option (Nat × List Char) :=
  let digits := (text.take width).takeWhile Char.isDigit
  if digits.isEmpty then none else some (digitsValue digits, text.drop digits.length)

/-- Read a number of one to `width` digits after optional blanks. -/
def field (width : Nat) (text : List Char) : Option (Nat × List Char) :=
  number width (Text.trimStart text)

/-- Read a year: up to four digits, or a sign and any number of digits. -/
def year (text : List Char) : Option (Int × List Char) :=
  match Text.trimStart text with
  | '-' :: rest => (number rest.length rest).map fun (n, rest) => (-n, rest)
  | '+' :: rest => (number rest.length rest).map fun (n, rest) => (n, rest)
  | text => (number 4 text).map fun (n, rest) => (n, rest)

/-- Read a character after optional blanks. -/
def mark (c : Char) (text : List Char) : Option (List Char) :=
  match Text.trimStart text with
  | d :: rest => if d == c then some rest else none
  | [] => none

/-- Read an optional fraction of a second; digits beyond the ninth are dropped. -/
def fraction : List Char → Option (Nat × List Char)
  | '.' :: rest =>
    let digits := rest.takeWhile Char.isDigit
    if digits.isEmpty then none
    else
      let kept := digits.take 9
      some (digitsValue kept * Nat.pow 10 (9 - kept.length), rest.drop digits.length)
  | text => some (0, text)

/-- The letter in lower case, for the letters of `UTC`. -/
def sameLetter (c upper : Char) : Bool := c == upper || c == upper.toLower

/-- Read the hours and minutes of an offset after its sign, in seconds. -/
def offsetClock (text : List Char) : Option (Nat × List Char) :=
  match text with
  | h :: h' :: rest =>
    if h.isDigit && h'.isDigit then
      match rest.dropWhile (fun c => c == ':' || Text.isBlank c) with
      | m :: m' :: rest =>
        if m.isDigit && m'.isDigit && m.toNat < '6'.toNat then
          some (digitsValue [h, h'] * 3600 + digitsValue [m, m'] * 60, rest)
        else none
      | _ => none
    else none
  | _ => none

/-- Read the offset from UTC in seconds. -/
def offset (text : List Char) : Option (Int × List Char) :=
  match Text.trimStart text with
  | 'Z' :: rest | 'z' :: rest => some (0, rest)
  | '+' :: rest => (offsetClock rest).map fun (n, rest) => (n, rest)
  | '-' :: rest | '\u2212' :: rest => (offsetClock rest).map fun (n, rest) => (-n, rest)
  | u :: t :: c :: rest =>
    if sameLetter u 'U' && sameLetter t 'T' && sameLetter c 'C' then some (0, rest) else none
  | _ => none

/-- Read all fields; only blanks may follow them. -/
def fields (text : List Char) : Option Fields := do
  let (year, text) ← year text
  let text ← mark '-' text
  let (month, text) ← field 2 text
  let text ← mark '-' text
  let (day, text) ← field 2 text
  let text ← match text with
    | 'T' :: rest | 't' :: rest | ' ' :: rest => some rest
    | _ => none
  let (hour, text) ← field 2 text
  let text ← mark ':' text
  let (minute, text) ← field 2 text
  let text ← mark ':' text
  let (second, text) ← field 2 text
  let (nano, text) ← fraction text
  let (offset, text) ← offset text
  if (Text.trimStart text).isEmpty then
    some ⟨⟨year, month, day⟩, hour, minute, second, nano, offset⟩
  else none

end Scan

/-- The first and the last year that time stamps can name. -/
def minYear : Int := -262143
@[inherit_doc minYear] def maxYear : Int := 262142

/-- The second lies in the years that time stamps can name. -/
def isRepresentable (second : Int) : Bool :=
  Date.dayNumber ⟨minYear, 1, 1⟩ * 86400 ≤ second &&
    second < (Date.dayNumber ⟨maxYear, 12, 31⟩ + 1) * 86400

/-- The instant of the fields: each lies in its range, the date exists, and the instant is
representable before and after the offset is taken off. -/
def ofFields? (f : Fields) : Option Instant :=
  if f.date.isValid && f.hour ≤ 23 && f.minute ≤ 59 && f.second ≤ 60 && f.offset.natAbs < 86400 then
    let wall := f.date.dayNumber * 86400 + f.hour * 3600 + f.minute * 60 + min f.second 59
    if isRepresentable wall && isRepresentable (wall - f.offset) then
      let leap := if f.second = 60 then 1000000000 else 0
      let nano := f.nano + leap
      if h : nano < 2000000000 then some ⟨wall - f.offset, nano, h⟩ else none
    else none
  else none

/-- Read a time stamp. -/
def parse? (text : String) : Option Instant := (Scan.fields text.toList).bind ofFields?

/-- A number with at least `width` digits. -/
def padded (width n : Nat) : String :=
  let digits := Nat.repr n
  String.ofList (List.replicate (width - digits.length) '0') ++ digits

/-- A year: four digits, and a sign when it does not fit them. -/
def yearText (year : Int) : String :=
  if 0 ≤ year && year ≤ 9999 then padded 4 year.toNat
  else (if year < 0 then "-" else "+") ++ padded 4 year.natAbs

/-- Write a time stamp in UTC, cut to a number of fraction digits. -/
def format (places : Nat) (t : Instant) : String :=
  let date := Date.ofDayNumber (t.second / 86400)
  let clock := (t.second % 86400).toNat
  let second := clock % 60 + t.nano / 1000000000
  let fraction := t.nano % 1000000000 / Nat.pow 10 (9 - places)
  yearText date.year ++ "-" ++ padded 2 date.month ++ "-" ++ padded 2 date.day ++ "T" ++
    padded 2 (clock / 3600) ++ ":" ++ padded 2 (clock / 60 % 60) ++ ":" ++ padded 2 second ++
    (if places = 0 then "" else "." ++ padded places fraction) ++ "Z"

/-- Write a time stamp with milliseconds. -/
def formatMillis (t : Instant) : String := t.format 3

/-- Write a time stamp with the fewest of no, three, six or nine fraction digits that are exact. -/
def formatShortest (t : Instant) : String :=
  let nano := t.nano % 1000000000
  if nano = 0 then t.format 0
  else if nano % 1000000 = 0 then t.format 3
  else if nano % 1000 = 0 then t.format 6
  else t.format 9

end Instant

end DealPacing
