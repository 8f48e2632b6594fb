import DealPacing.Json.Basic
import DealPacing.Time.Rfc3339

/-!
# Typed records in JSON

A record is read from an object, whose unknown members are ignored, or from an array of its fields
in their declared order. A required field has to be present; an optional field may be absent or
`null`; a field with a default may be absent but not `null`. In an array only fields at the end can
be absent, and no element may be left over.

## Main definitions

* `Decoder`: partial readings of JSON values
* `Fields`, `FieldReader`: the fields of a record that is being read
* `required`, `optional`, `defaulted`: the three kinds of fields
* `record`: the decoder of a record
* `ofFields`: the object of a record that is being written
-/

namespace DealPacing.Wire

/-- A reading of JSON values, defined on some of them. -/
abbrev Decoder (α : Type) := Json → Option α

/-- The fields of a record: by name, or the ones not yet read in their declared order. -/
inductive Fields where
  | named (entries : List (String × Json))
  | listed (values : List Json)

/-- A computation that reads the fields of a record in their declared order. -/
abbrev FieldReader := StateT Fields Option

/-- The value of the next field, if present. -/
def nextField (name : String) : FieldReader (Option Json)
  | .named entries => some (entries.lookup name, .named entries)
  | .listed [] => some (none, .listed [])
  | .listed (v :: rest) => some (some v, .listed rest)

/-- Decode an optional value, for which `null` stands for nothing. -/
def nullable {α : Type} (decode : Decoder α) : Decoder (Option α)
  | .null => some none
  | v => (decode v).map some

/-- A field that has to be present. -/
def required {α : Type} (name : String) (decode : Decoder α) : FieldReader α := do
  match ← nextField name with
  | some v => StateT.lift (decode v)
  | none => failure

/-- A field that may be absent or `null`. -/
def optional {α : Type} (name : String) (decode : Decoder α) : FieldReader (Option α) := do
  match ← nextField name with
  | some v => StateT.lift (nullable decode v)
  | none => pure none

/-- A field that has a default value when it is absent. -/
def defaulted {α : Type} (name : String) (decode : Decoder α) (default : α) : FieldReader α := do
  match ← nextField name with
  | some v => StateT.lift (decode v)
  | none => pure default

/-- Decode a record from an object or from an array of its fields. -/
def record {α : Type} (fields : FieldReader α) : Decoder α
  | .obj entries => (fields.run (.named entries)).map Prod.fst
  | .arr values =>
    match fields.run (.listed values) with
    | some (x, .listed []) => some x
    | _ => none
  | _ => none

/-- Decode a string. -/
def text : Decoder String := Json.asString?

/-- Decode any value as itself. -/
def raw : Decoder Json := some

/-- Decode a signed 64-bit integer. -/
def int64 : Decoder Int := Json.asInt?

/-- Decode a signed 32-bit integer. -/
def int32 : Decoder Int
  | .num (.int n) => if -2147483648 ≤ n && n ≤ 2147483647 then some n else none
  | _ => none

/-- Decode an unsigned 64-bit integer. -/
def word64 : Decoder Nat
  | .num (.int n) => if 0 ≤ n && n ≤ word64Max then some n.toNat else none
  | _ => none

/-- Decode a float, which any number is. -/
def float : Decoder Float := Json.asFloat?

/-- Decode a truth value. -/
def bool : Decoder Bool
  | .bool b => some b
  | _ => none

/-- Decode a time stamp. -/
def instant : Decoder Instant
  | .str s => Instant.parse? s
  | _ => none

/-- Decode an array. -/
def list {α : Type} (decode : Decoder α) : Decoder (List α)
  | .arr items => items.mapM decode
  | _ => none

/-- Decode an object whose members are all of one kind. -/
def dictionary {α : Type} (decode : Decoder α) : Decoder (List (String × α))
  | .obj entries => entries.mapM fun (key, v) => (decode v).map (key, ·)
  | _ => none

/-- A member of an object that is being written. -/
abbrev Member := Option (String × Json)

/-- A member that is always written. -/
def member (name : String) (v : Json) : Member := some (name, v)

/-- A member that is left out when there is nothing to write. -/
def optionalMember {α : Type} (name : String) (encode : α → Json) (x : Option α) : Member :=
  x.map fun x => (name, encode x)

/-- A member whose value is written as it is. -/
def rawMember (name : String) (v : Option Json) : Member := v.map (name, ·)

/-- The object of the members that are not left out. -/
def ofFields (members : List Member) : Json := .obj (members.filterMap id)

/-- Write a list as an array. -/
def encodeList {α : Type} (encode : α → Json) (xs : List α) : Json := .arr (xs.map encode)

/-- Write a time stamp. -/
def encodeInstant (t : Instant) : Json := .str t.formatShortest

end DealPacing.Wire
