/-!
# The vocabulary of targeting definitions

A targeting definition combines tests of request attributes by boolean operators. An attribute is
named by a key: a fixed key, or a fixed start followed by the path of a nested attribute. The kind
of the attribute decides which matching functions it accepts.

## Main definitions

* `Operator`, `MatchFunction`: boolean operators and matching functions, with their keys
* `Category`, `CategoryKind`: request attributes and the shapes of their values
* `Category.ofKey?`, `Category.key`: the key of a category
-/

namespace DealPacing.Targeting

/-- A boolean operator. -/
inductive Operator where
  | and
  | or
  | not
deriving DecidableEq, Repr

/-- The name of an operator. -/
def Operator.name : Operator → String
  | .and => "And"
  | .or => "Or"
  | .not => "Not"

/-- The operator of a key. -/
def Operator.ofKey? : String → Option Operator
  | "$and" => some .and
  | "$or" => some .or
  | "$not" => some .not
  | _ => none

/-- A matching function: a wildcard pattern, membership in a list, a common element with a list, or
containment in a region. -/
inductive MatchFunction where
  | pattern
  | member
  | intersects
  | within
deriving DecidableEq, Repr

/-- The name of a function. -/
def MatchFunction.name : MatchFunction → String
  | .pattern => "Matches"
  | .member => "In"
  | .intersects => "Intersects"
  | .within => "Within"

/-- The function of a key. -/
def MatchFunction.ofKey? : String → Option MatchFunction
  | "$matches" => some .pattern
  | "$in" => some .member
  | "$intersects" => some .intersects
  | "$within" => some .within
  | _ => none

/-- The key of a function. -/
def MatchFunction.key : MatchFunction → String
  | .pattern => "$matches"
  | .member => "$in"
  | .intersects => "$intersects"
  | .within => "$within"

theorem MatchFunction.ofKey?_key (f : MatchFunction) : ofKey? f.key = some f := by
  cases f <;> rfl

/-- The shape of the values of a category: creative sizes, several strings, one string, one integer,
the string of an extension, a location, or an arbitrary nested attribute. -/
inductive CategoryKind where
  | sizes
  | stringSet
  | text
  | integer
  | extText
  | geo
  | typed
deriving DecidableEq, Repr

/-- The name of a kind. -/
def CategoryKind.name : CategoryKind → String
  | .sizes => "Sizes"
  | .stringSet => "StringSet"
  | .text => "Text"
  | .integer => "Integer"
  | .extText => "ExtText"
  | .geo => "Geo"
  | .typed => "Typed"

/-- The functions that a kind accepts. -/
def CategoryKind.functions : CategoryKind → List MatchFunction
  | .sizes | .stringSet => [.intersects]
  | .text => [.pattern, .member]
  | .integer | .extText => [.member]
  | .geo => [.within]
  | .typed => [.pattern, .member, .intersects]

/-- A request attribute; some carry the path of a nested attribute. -/
inductive Category where
  | size
  | mediaType
  | adSlot
  | domain
  | publisherDomain
  | referrer
  | appBundle
  | deviceGeoExt (path : String)
  | deviceExt (path : String)
  | pagePosition
  | location
  | bidderParam (path : String)
  | userSegment (path : String)
  | dayOfWeek
  | hour
  | userData (path : String)
  | siteData (path : String)
deriving DecidableEq, Repr

namespace Category

/-- The starts of keys that carry a path, in the order they are tried. -/
def openings : List (String × (String → Category)) := [
  ("device.geo.ext.", .deviceGeoExt),
  ("device.ext.", .deviceExt),
  ("bidp.", .bidderParam),
  ("user.segment.", .userSegment),
  ("ufpd.", .userData),
  ("sfpd.", .siteData)]

/-- The text that follows `start`. -/
def after? : List Char → List Char → Option (List Char)
  | [], text => some text
  | _ :: _, [] => none
  | c :: start, d :: text => if c = d then after? start text else none

/-- The category of a key that carries a path; the path is not empty. -/
def ofPathKey? (key : String) : Option Category :=
  openings.findSome? fun (start, build) =>
    match after? start.toList key.toList with
    | some [] | none => none
    | some path => some (build (String.ofList path))

/-- The category of a key. -/
def ofKey? : String → Option Category
  | "adunit.size" => some .size
  | "adunit.mediatype" => some .mediaType
  | "adunit.adslot" => some .adSlot
  | "site.domain" => some .domain
  | "site.publisher.domain" => some .publisherDomain
  | "site.referrer" => some .referrer
  | "app.bundle" => some .appBundle
  | "pos" => some .pagePosition
  | "geo.distance" => some .location
  | "user.ext.time.userdow" => some .dayOfWeek
  | "user.ext.time.userhour" => some .hour
  | key => ofPathKey? key

/-- The key of a category. -/
def key : Category → String
  | .size => "adunit.size"
  | .mediaType => "adunit.mediatype"
  | .adSlot => "adunit.adslot"
  | .domain => "site.domain"
  | .publisherDomain => "site.publisher.domain"
  | .referrer => "site.referrer"
  | .appBundle => "app.bundle"
  | .deviceGeoExt path => "device.geo.ext." ++ path
  | .deviceExt path => "device.ext." ++ path
  | .pagePosition => "pos"
  | .location => "geo.distance"
  | .bidderParam path => "bidp." ++ path
  | .userSegment path => "user.segment." ++ path
  | .dayOfWeek => "user.ext.time.userdow"
  | .hour => "user.ext.time.userhour"
  | .userData path => "ufpd." ++ path
  | .siteData path => "sfpd." ++ path

/-- The kind of a category. -/
def kind : Category → CategoryKind
  | .size => .sizes
  | .mediaType | .userSegment _ => .stringSet
  | .adSlot | .domain | .publisherDomain | .referrer | .appBundle => .text
  | .deviceGeoExt _ | .deviceExt _ => .extText
  | .pagePosition | .dayOfWeek | .hour => .integer
  | .location => .geo
  | .bidderParam _ | .userData _ | .siteData _ => .typed

/-- The path of a nested attribute. -/
def path? : Category → Option String
  | .deviceGeoExt path | .deviceExt path | .bidderParam path | .userSegment path
  | .userData path | .siteData path => some path
  | _ => none

/-- Tests of the category are recorded as domain matches. -/
def isDomain : Category → Bool
  | .domain | .publisherDomain => true
  | _ => false

end Category

end DealPacing.Targeting
