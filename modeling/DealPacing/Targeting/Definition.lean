import DealPacing.Targeting.Expression

/-!
# Targeting definitions

A targeting definition is the JSON form of a targeting expression: an object with one member, whose
key is an operator or a category. The member of a category is again an object with one member, a
matching function and its operand.

## Main definitions

* `SyntaxError`: what is wrong with a definition
* `TargetingError`: an error together with the line item it was found in
* `Expression.ofJson`: the expression of a definition
-/

namespace DealPacing.Targeting

/-- The shape of a JSON value, as error messages name it. -/
def shapeName : Json → String
  | .null => "NULL"
  | .bool _ => "BOOLEAN"
  | .num _ => "NUMBER"
  | .str _ => "STRING"
  | .arr _ => "ARRAY"
  | .obj _ => "OBJECT"

/-- What is wrong with a targeting definition. -/
inductive SyntaxError where
  | notObject (found : Json)
  | notSingle (count : Nat)
  | unknownKey (key : String)
  | unknownFunction (key : String)
  | wrongFunction (accepted : List MatchFunction) (key : String)
  | notArray (found : Json)
  | notString (found : Json)
  | emptyString
  | notInteger (found : Json)
  | notIntegerOrString (found : Json)
  | incompleteSize
  | incompleteRegion

/-- The text of an error. -/
def SyntaxError.message : SyntaxError → String
  | .notObject v => "Expected object, got " ++ shapeName v
  | .notSingle n => "Expected only one element in the object, got " ++ Nat.repr n
  | .unknownKey key => "Expected either boolean operator or targeting category, got " ++ key
  | .unknownFunction key => "Expected matching function, got " ++ key
  | .wrongFunction [only] key => "Expected " ++ only.key ++ " matching function, got " ++ key
  | .wrongFunction accepted key =>
    "Expected one of " ++ ", ".intercalate (accepted.map MatchFunction.key) ++
      " matching functions, got " ++ key
  | .notArray v => "Expected array, got " ++ shapeName v
  | .notString v => "Expected string, got " ++ shapeName v
  | .emptyString => "String value could not be empty"
  | .notInteger v => "Expected integer, got " ++ shapeName v
  | .notIntegerOrString v => "Expected integer or string, got " ++ shapeName v
  | .incompleteSize => "Height and width in size definition could not be null or missing"
  | .incompleteRegion =>
    "Lat, lon and radiusMiles in geo region definition could not be null or missing"

/-- An error in the definition of a line item, if it is known which. -/
structure TargetingError where
  owner : Option String
  cause : SyntaxError

/-- The text of an error. -/
def TargetingError.message (e : TargetingError) : String := e.cause.message

/-- The only member of an object. -/
def singleMember : Json → Except SyntaxError (String × Json)
  | .obj [entry] => .ok entry
  | .obj entries => .error (.notSingle entries.length)
  | v => .error (.notObject v)

/-- The matching function of a category and its operand. -/
def functionOf (accepted : List MatchFunction) (v : Json) :
    Except SyntaxError (MatchFunction × Json) := do
  let (key, operand) ← singleMember v
  match MatchFunction.ofKey? key with
  | none => .error (.unknownFunction key)
  | some f => if f ∈ accepted then .ok (f, operand) else .error (.wrongFunction accepted key)

/-- Read every element of an array. -/
def arrayOf {α : Type} (element : Json → Except SyntaxError α) : Json → Except SyntaxError (List α)
  | .arr items => items.mapM element
  | v => .error (.notArray v)

/-- Read a string that is not empty. -/
def stringOperand : Json → Except SyntaxError String
  | .str s => if s.isEmpty then .error .emptyString else .ok s
  | v => .error (.notString v)

/-- Read an integer. -/
def integerOperand (v : Json) : Except SyntaxError Int :=
  match v.asInt? with
  | some n => .ok n
  | none => .error (.notInteger v)

/-- Read a creative size. -/
def sizeOperand : Json → Except SyntaxError Size
  | .obj entries =>
    match (entries.lookup "w").bind Json.asInt?, (entries.lookup "h").bind Json.asInt? with
    | some w, some h => .ok ⟨w, h⟩
    | _, _ => .error .incompleteSize
  | v => .error (.notObject v)

/-- Read a region. -/
def regionOperand : Json → Except SyntaxError Region
  | .obj entries =>
    let part (name : String) := (entries.lookup name).bind Json.asFloat?
    match part "lat", part "lon", part "radiusMiles" with
    | some lat, some lon, some radius => .ok ⟨lat, lon, radius⟩
    | _, _, _ => .error .incompleteRegion
  | v => .error (.notObject v)

/-- Whether the constants of a nested attribute are integers: the first one decides, and an empty
list holds strings. -/
def holdsIntegers : Json → Except SyntaxError Bool
  | .arr [] | .arr (.str _ :: _) => .ok false
  | .arr (.num _ :: _) => .ok true
  | .arr (v :: _) => .error (.notIntegerOrString v)
  | v => .error (.notArray v)

/-- The test of a nested attribute against a list of constants. -/
def typedLeaf (category : Category) (function : MatchFunction) (operand : Json) :
    Except SyntaxError Leaf := do
  let integers ← holdsIntegers operand
  match function, integers with
  | .member, true => return .inIntegers category (← arrayOf integerOperand operand)
  | .member, false => return .ofStrings category (← arrayOf stringOperand operand)
  | _, true => return .intersectsIntegers category (← arrayOf integerOperand operand)
  | _, false => return .ofStringSet category (← arrayOf stringOperand operand)

/-- The test of a category. -/
def Leaf.ofJson (category : Category) (v : Json) : Except SyntaxError Leaf := do
  let (function, operand) ← functionOf category.kind.functions v
  match category.kind, function with
  | .sizes, _ => return .intersectsSizes category (← arrayOf sizeOperand operand)
  | .stringSet, _ => return .ofStringSet category (← arrayOf stringOperand operand)
  | .integer, _ => return .inIntegers category (← arrayOf integerOperand operand)
  | .extText, _ => return .ofStrings category (← arrayOf stringOperand operand)
  | .geo, _ => return .within category (← regionOperand operand)
  | _, .pattern => return .ofPattern category (← stringOperand operand)
  | .text, _ => return .ofStrings category (← arrayOf stringOperand operand)
  | .typed, function => typedLeaf category function operand

/-- The expression of a test; tests of domains are reported under their owner. -/
def Expression.ofLeaf (owner : Option String) (category : Category) (test : Leaf) : Expression :=
  if category.isDomain then .domainLeaf owner test else .leaf test

mutual

/-- The expression of a targeting definition. -/
def Expression.ofJson (owner : Option String) : Json → Except SyntaxError Expression
  | .obj [(key, v)] =>
    match Operator.ofKey? key with
    | some .and => (Expression.ofArray owner v).map .and
    | some .or => (Expression.ofArray owner v).map .or
    | some .not => (Expression.ofJson owner v).map .not
    | none =>
      match Category.ofKey? key with
      | some category => (Leaf.ofJson category v).map (Expression.ofLeaf owner category)
      | none => .error (.unknownKey key)
  | .obj entries => .error (.notSingle entries.length)
  | v => .error (.notObject v)

/-- The expressions of an array of definitions. -/
def Expression.ofArray (owner : Option String) : Json → Except SyntaxError (List Expression)
  | .arr items => Expression.ofItems owner items
  | v => .error (.notArray v)

/-- The expressions of a list of definitions. -/
def Expression.ofItems (owner : Option String) : List Json → Except SyntaxError (List Expression)
  | [] => .ok []
  | v :: rest => do
    let e ← Expression.ofJson owner v
    let es ← Expression.ofItems owner rest
    return e :: es

end

/-- The expression of a line item's targeting definition. -/
def Expression.parse (v : Json) (owner : Option String) : Except TargetingError Expression :=
  (Expression.ofJson owner v).mapError (⟨owner, ·⟩)

end DealPacing.Targeting
