import DealPacing.Auction.Log
import DealPacing.Targeting.Expression
import DealPacing.Targeting.Opportunity

/-!
# Evaluation of targeting expressions

A leaf holds when some value of its category passes its test, and operators have their usual
meaning. The matcher evaluates an expression from left to right, stops as soon as the value is
known, and writes the owners of the domain tests that held into the auction log.

## Main definitions

* `Leaf.holds`, `Expression.holds`: the truth value of an expression
* `Expression.evaluate`: its evaluation, which records domain matches
-/

namespace DealPacing.Targeting

/-- A text occurs inside another one. -/
def occursIn (part : List Char) : List Char → Bool
  | [] => part.isEmpty
  | c :: rest => part.isPrefixOf (c :: rest) || occursIn part rest

/-- A text fits a wildcard pattern. -/
def Pattern.fits (shape : Pattern) (value candidate : String) : Bool :=
  match shape with
  | .equals => candidate == value
  | .startsWith => value.toList.isPrefixOf candidate.toList
  | .endsWith => value.toList.isSuffixOf candidate.toList
  | .contains => occursIn value.toList candidate.toList

/-- The mean radius of the earth in miles. -/
def earthRadius : Float := 3958.8

/-- Degrees as radians. -/
def radians (x : Float) : Float := x * (3.141592653589793 / 180.0)

/-- The distance in miles between two points given by latitude and longitude in degrees, along a
great circle. -/
def distance (lat lon lat' lon' : Float) : Float :=
  let sinHalf (x : Float) : Float := Float.sin (radians x / 2.0)
  let dLat := sinHalf (lat' - lat)
  let dLon := sinHalf (lon' - lon)
  let a := dLat * dLat + Float.cos (radians lat) * Float.cos (radians lat') * (dLon * dLon)
  2.0 * earthRadius * Float.asin (Float.sqrt a)

/-- The region contains a point. -/
def Region.contains (r : Region) (lat lon : Float) : Bool := distance r.lat r.lon lat lon ≤ r.radius

/-- Some value of the leaf's category passes its test. -/
def Leaf.holds (o : Opportunity) : Leaf → Bool
  | .pattern category shape value =>
    (o.string category).any fun candidate => shape.fits value (Text.lowercase candidate)
  | .inStrings category values =>
    (o.string category).any fun candidate => values.contains (Text.lowercase candidate)
  | .inIntegers category values => (o.integer category).any values.contains
  | .intersectsStrings category values =>
    (o.strings category).any fun candidate => values.contains (Text.lowercase candidate)
  | .intersectsIntegers category values => (o.integers category).any values.contains
  | .intersectsSizes _ values => o.sizes.any values.contains
  | .within _ region =>
    match o.location? with
    | some (lat, lon) => region.contains lat lon
    | none => false

mutual

/-- The truth value of an expression. -/
def Expression.holds (o : Opportunity) : Expression → Bool
  | .and children => Expression.allHold o children
  | .or children => Expression.anyHolds o children
  | .not child => !Expression.holds o child
  | .leaf test => test.holds o
  | .domainLeaf _ test => test.holds o

/-- Every expression of a list holds. -/
def Expression.allHold (o : Opportunity) : List Expression → Bool
  | [] => true
  | e :: rest => Expression.holds o e && Expression.allHold o rest

/-- Some expression of a list holds. -/
def Expression.anyHolds (o : Opportunity) : List Expression → Bool
  | [] => false
  | e :: rest => Expression.holds o e || Expression.anyHolds o rest

end

/-- Record the owner of a domain test that held. -/
def recordDomainMatch (owner : Option String) (held : Bool) (log : AuctionLog) : AuctionLog :=
  match owner, held with
  | some id, true => { log with matchedDomain := log.matchedDomain.insert id }
  | _, _ => log

mutual

/-- Evaluate an expression and record the domain tests that held on the way. -/
def Expression.evaluate (o : Opportunity) : Expression → AuctionLog → Bool × AuctionLog
  | .and children, log => Expression.evaluateAll o children log
  | .or children, log => Expression.evaluateAny o children log
  | .not child, log =>
    let (held, log) := Expression.evaluate o child log
    (!held, log)
  | .leaf test, log => (test.holds o, log)
  | .domainLeaf owner test, log =>
    let held := test.holds o
    (held, recordDomainMatch owner held log)

/-- Evaluate expressions until one fails. -/
def Expression.evaluateAll (o : Opportunity) : List Expression → AuctionLog → Bool × AuctionLog
  | [], log => (true, log)
  | e :: rest, log =>
    match Expression.evaluate o e log with
    | (true, log) => Expression.evaluateAll o rest log
    | (false, log) => (false, log)

/-- Evaluate expressions until one holds. -/
def Expression.evaluateAny (o : Opportunity) : List Expression → AuctionLog → Bool × AuctionLog
  | [], log => (false, log)
  | e :: rest, log =>
    match Expression.evaluate o e log with
    | (true, log) => (true, log)
    | (false, log) => Expression.evaluateAny o rest log

end

end DealPacing.Targeting
