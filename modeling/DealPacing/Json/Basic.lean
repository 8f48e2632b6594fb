/-!
# JSON values

Values of the data format that bid requests, planner records and reports are written in. Numbers
keep the distinction that the readers of this library rely on: a number written without fraction
and exponent is an integer as long as it fits a 64-bit word, every other number is a float.

## Main definitions

* `JsonNumber`, `Json`: numbers and values
* `Json.object`: the object of a list of entries, sorted by key, the last of equal keys winning
* `Json.get?`: the member of an object
* `Json.asInt?`, `Json.asFloat?`, `Json.asString?`: the scalar readings of a value
-/

namespace DealPacing

/-- A JSON number: an integer that fits a signed or unsigned 64-bit word, or a float. -/
inductive JsonNumber where
  | int (n : Int)
  | float (x : Float)
deriving BEq, Repr

/-- A JSON value; the keys of an object are distinct and their order has no meaning. -/
inductive Json where
  | null
  | bool (b : Bool)
  | num (n : JsonNumber)
  | str (s : String)
  | arr (items : List Json)
  | obj (entries : List (String × Json))
deriving BEq, Inhabited

/-- The least and the greatest signed 64-bit integer. -/
def int64Min : Int := -9223372036854775808
@[inherit_doc int64Min] def int64Max : Int := 9223372036854775807

/-- The greatest unsigned 64-bit integer. -/
def word64Max : Int := 18446744073709551615

/-- The integer fits a signed 64-bit word. -/
def fitsInt64 (n : Int) : Bool := int64Min ≤ n && n ≤ int64Max

namespace JsonNumber

/-- Every number is a float to a reader that asks for one. -/
def toFloat : JsonNumber → Float
  | .int n => Float.ofInt n
  | .float x => x

end JsonNumber

namespace Json

/-- The integer `n`. -/
def int (n : Int) : Json := .num (.int n)

/-- The natural number `n`. -/
def nat (n : Nat) : Json := .num (.int n)

/-- The float `x`. -/
def float (x : Float) : Json := .num (.float x)

/-- Insert an entry into a list sorted by key, replacing an entry of the same key. -/
def insertEntry {α : Type} (key : String) (value : α) : List (String × α) → List (String × α)
  | [] => [(key, value)]
  | (k, v) :: rest =>
    if key < k then (key, value) :: (k, v) :: rest
    else if key = k then (key, value) :: rest
    else (k, v) :: insertEntry key value rest

/-- The object of a list of entries; of equal keys the last wins. -/
def object (entries : List (String × Json)) : Json :=
  .obj (entries.foldl (fun sorted entry => insertEntry entry.1 entry.2 sorted) [])

/-- The signed 64-bit integer a value is, if it is one. -/
def asInt? : Json → Option Int
  | .num (.int n) => if fitsInt64 n then some n else none
  | _ => none

/-- The float a number reads as. -/
def asFloat? : Json → Option Float
  | .num n => some n.toFloat
  | _ => none

/-- The text of a string. -/
def asString? : Json → Option String
  | .str s => some s
  | _ => none

/-- The entries of an object. -/
def asObject? : Json → Option (List (String × Json))
  | .obj entries => some entries
  | _ => none

/-- The elements of an array. -/
def asArray? : Json → Option (List Json)
  | .arr items => some items
  | _ => none

/-- The member of an object under a key. -/
def get? (key : String) : Json → Option Json
  | .obj entries => entries.lookup key
  | _ => none

/-- The value is `null`. -/
def isNull : Json → Bool
  | .null => true
  | _ => false

end Json

end DealPacing
