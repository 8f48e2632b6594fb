import DealPacing.Text.Casing
import DealPacing.Targeting.Category
import DealPacing.Wire.BidRequest

/-!
# Targeting expressions

A targeting expression is a tree of boolean operators over leaves; a leaf compares the values of a
category with constants. String constants are kept in lower case.

## Main definitions

* `Pattern`: where a wildcard pattern is open
* `Region`: a circle on the earth's surface
* `Leaf`, `Expression`: tests and trees
* `Leaf.ofPattern`, `Leaf.ofStrings`, `Leaf.ofStringSet`: leaves of constants as they are written
-/

namespace DealPacing.Targeting

/-- Which texts a wildcard pattern stands for, beside the constant itself. -/
inductive Pattern where
  | equals
  | startsWith
  | endsWith
  | contains
deriving DecidableEq, Repr

/-- The name of a pattern. -/
def Pattern.name : Pattern → String
  | .equals => "Equals"
  | .startsWith => "StartsWith"
  | .endsWith => "EndsWith"
  | .contains => "Contains"

/-- A circle on the earth's surface; the radius is in miles. -/
structure Region where
  lat : Float
  lon : Float
  radius : Float
deriving BEq, Repr

/-- The test of a category against constants. -/
inductive Leaf where
  | pattern (category : Category) (shape : Pattern) (value : String)
  | inStrings (category : Category) (values : List String)
  | inIntegers (category : Category) (values : List Int)
  | intersectsStrings (category : Category) (values : List String)
  | intersectsIntegers (category : Category) (values : List Int)
  | intersectsSizes (category : Category) (values : List Size)
  | within (category : Category) (region : Region)
deriving BEq

/-- A targeting tree. A `domainLeaf` reports its matches under the line item that owns it. -/
inductive Expression where
  | and (children : List Expression)
  | or (children : List Expression)
  | not (child : Expression)
  | leaf (test : Leaf)
  | domainLeaf (owner : Option String) (test : Leaf)
deriving BEq

/-- The wildcard. -/
def wildcard : Char := '*'

/-- A text without the wildcards around it. -/
def withoutWildcards (cs : List Char) : List Char :=
  ((cs.dropWhile (· == wildcard)).reverse.dropWhile (· == wildcard)).reverse

/-- Where a pattern is open: a single wildcard counts as one at the front only. -/
def Pattern.ofText (cs : List Char) : Pattern :=
  let opensFront := cs.head? == some wildcard
  let opensBack := 1 < cs.length && cs.getLast? == some wildcard
  match opensFront, opensBack with
  | true, true => .contains
  | true, false => .endsWith
  | false, true => .startsWith
  | false, false => .equals

/-- The leaf of a wildcard pattern. -/
def Leaf.ofPattern (category : Category) (raw : String) : Leaf :=
  .pattern category (Pattern.ofText raw.toList)
    (Text.lowercase (String.ofList (withoutWildcards raw.toList)))

/-- The leaf of a list of strings, one of which the category has to equal. -/
def Leaf.ofStrings (category : Category) (values : List String) : Leaf :=
  .inStrings category (values.map Text.lowercase)

/-- The leaf of a list of strings, one of which the category has to contain. -/
def Leaf.ofStringSet (category : Category) (values : List String) : Leaf :=
  .intersectsStrings category (values.map Text.lowercase)

end DealPacing.Targeting
