import DealPacing.Json.Basic
import DealPacing.Text.Split

/-!
# Pointers into JSON values

A pointer is empty, or a sequence of steps each behind a slash. In a step `~1` stands for a slash
and `~0` for a tilde. A step names a member of an object or the index of an array element; an index
has no sign and no leading zero.

## Main definitions

* `Json.step?`: follow one step
* `Json.pointer?`: follow a pointer
-/

namespace DealPacing.Json

/-- Replace the escape `~1` by a slash. -/
def unescapeSlash : List Char → List Char
  | '~' :: '1' :: rest => '/' :: unescapeSlash rest
  | c :: rest => c :: unescapeSlash rest
  | [] => []

/-- Replace the escape `~0` by a tilde. -/
def unescapeTilde : List Char → List Char
  | '~' :: '0' :: rest => '~' :: unescapeTilde rest
  | c :: rest => c :: unescapeTilde rest
  | [] => []

/-- The name that a step stands for. -/
def unescapeStep (step : List Char) : String :=
  String.ofList (unescapeTilde (unescapeSlash step))

/-- The array index that a step stands for. -/
def index? (step : String) : Option Nat :=
  let cs := step.toList
  if cs.isEmpty || !cs.all Char.isDigit || (cs.head? == some '0' && cs.length != 1) then none
  else some (cs.foldl (fun n c => n * 10 + (c.toNat - '0'.toNat)) 0)

/-- The value one step below a value. -/
def step? (step : String) : Json → Option Json
  | .obj entries => entries.lookup step
  | .arr items => (index? step).bind (items[·]?)
  | _ => none

/-- The value at the end of a list of steps. -/
def follow? (v : Json) (steps : List String) : Option Json :=
  steps.foldl (fun v step => v.bind (step? step)) (some v)

/-- The value that a pointer leads to. -/
def pointer? (v : Json) (pointer : String) : Option Json :=
  match pointer.toList with
  | [] => some v
  | '/' :: steps => follow? v ((Text.splitAt '/' steps).map unescapeStep)
  | _ => none

end DealPacing.Json
