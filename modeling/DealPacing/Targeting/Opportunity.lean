import DealPacing.Json.Pointer
import DealPacing.Targeting.Category
import DealPacing.Wire.BidRequest

/-!
# The attributes of an ad opportunity

An ad opportunity is one impression of a bid request. Targeting reads its attributes as strings, as
integers, or as lists of either. A category can have several values, since some attributes are
looked for in several places; a category without values fails every test.

## Main definitions

* `Opportunity`: a bid request and one of its impressions
* `Opportunity.string`, `Opportunity.integer`: the values of a category as scalars
* `Opportunity.strings`, `Opportunity.integers`: the values of a category as lists, in which a
  scalar counts as a list of one
* `Opportunity.sizes`, `Opportunity.location?`: the banner sizes and the location of the device
-/

namespace DealPacing.Targeting

/-- An impression of a bid request. -/
structure Opportunity where
  request : BidRequest
  imp : Impression

/-- The value at a path of names separated by dots; `null` counts as absent. -/
def atPath (root : Option Json) (path : String) : Option Json :=
  let pointer := '/' :: path.toList.map fun c => if c == '.' then '/' else c
  (root.bind (·.pointer? (String.ofList pointer))).filter (!·.isNull)

/-- The strings of a value: a string or an array. -/
def stringsOf : Json → List String
  | .str s => [s]
  | .arr items => items.filterMap Json.asString?
  | _ => []

/-- The integers of a value: an integer or an array. -/
def integersOf : Json → List Int
  | .arr items => items.filterMap Json.asInt?
  | v => v.asInt?.toList

namespace Opportunity

/-- The paths at which an impression can name its ad slot. -/
def adSlotPaths : List String := [
  "context.data.pbadslot", "context.data.adserver.adslot", "data.pbadslot", "data.adserver.adslot"]

/-- The domain of the site's publisher. -/
def publisherDomain (o : Opportunity) : Option String := do (← (← o.request.site).publisher).domain

/-- The extension of the device. -/
def deviceExt (o : Opportunity) : Option Json := do (← o.request.device).ext

/-- The extension of the device's location. -/
def deviceGeoExt (o : Opportunity) : Option Json := do (← (← o.request.device).geo).ext

/-- The publisher's data about the user. -/
def userData (o : Opportunity) : Option Json := do (← (← o.request.user).ext).data

/-- The value of a bidder's parameter. -/
def bidderParam (o : Opportunity) (path : String) : Option Json :=
  atPath o.imp.ext ("prebid.bidder." ++ path)

/-- The publisher's data about the ad slot: that of the impression, of the site, of the
application. -/
def siteData (o : Opportunity) (path : String) : List Json :=
  let data (ext : Option Json) : Option Json := ext.bind (·.get? "data")
  (atPath o.imp.ext ("context.data." ++ path)).toList ++
    (atPath (data (do (← o.request.site).ext)) path).toList ++
    (atPath (data (do (← o.request.app).ext)) path).toList

/-- The attribute of the user object that a path without dots names. -/
def userAttribute (user : User) : String → Option String
  | "id" => user.id
  | "buyeruid" => user.buyeruid
  | "gender" => user.gender
  | "keywords" => user.keywords
  | "customdata" => user.customdata
  | _ => none

/-- The number of the user object that a path names. -/
def userNumber (user : User) : String → Option Int
  | "yob" => user.yob
  | _ => none

/-- The user's clock. -/
def userTime (o : Opportunity) : Option UserTime := do (← (← o.request.user).ext).time

/-- The media types that the impression accepts. -/
def mediaTypes (o : Opportunity) : List String :=
  (if o.imp.banner.isSome then ["banner"] else []) ++
    (if o.imp.video.isSome then ["video"] else []) ++
    (if o.imp.native.isSome then ["native"] else [])

/-- The user's segments at a data provider. -/
def segments (o : Opportunity) (provider : String) : List String :=
  let audiences := (o.request.user.map (·.data)).getD []
  (audiences.filter (·.id == some provider)).flatMap fun audience =>
    audience.segment.filterMap (·.id)

/-- The values of a category as strings. -/
def string (o : Opportunity) : Category → List String
  | .domain => (do (← o.request.site).domain).toList ++ o.publisherDomain.toList
  | .publisherDomain => o.publisherDomain.toList
  | .referrer => (do (← o.request.site).page).toList
  | .appBundle => (do (← o.request.app).bundle).toList
  | .adSlot => (adSlotPaths.filterMap (atPath o.imp.ext)).filterMap Json.asString?
  | .deviceGeoExt path => ((atPath o.deviceGeoExt path).bind Json.asString?).toList
  | .deviceExt path => ((atPath o.deviceExt path).bind Json.asString?).toList
  | .bidderParam path => ((o.bidderParam path).bind Json.asString?).toList
  | .userData path =>
    (do userAttribute (← o.request.user) path).toList ++
      ((atPath o.userData path).bind Json.asString?).toList
  | .siteData path => (o.siteData path).filterMap Json.asString?
  | _ => []

/-- The values of a category as integers. -/
def integer (o : Opportunity) : Category → List Int
  | .pagePosition => (do (← o.imp.banner).pos).toList
  | .dayOfWeek => (do (← o.userTime).userdow).toList
  | .hour => (do (← o.userTime).userhour).toList
  | .bidderParam path => ((o.bidderParam path).bind Json.asInt?).toList
  | .userData path =>
    (do userNumber (← o.request.user) path).toList ++
      ((atPath o.userData path).bind Json.asInt?).toList
  | .siteData path => (o.siteData path).filterMap Json.asInt?
  | _ => []

/-- The values of a category as lists of strings. -/
def strings (o : Opportunity) : Category → List String
  | .mediaType => o.mediaTypes
  | .userSegment provider => o.segments provider
  | .bidderParam path => (o.bidderParam path).toList.flatMap stringsOf
  | .userData path => (atPath o.userData path).toList.flatMap stringsOf
  | .siteData path => (o.siteData path).flatMap stringsOf
  | _ => []

/-- The values of a category as lists of integers. -/
def integers (o : Opportunity) : Category → List Int
  | .bidderParam path => (o.bidderParam path).toList.flatMap integersOf
  | .userData path => (atPath o.userData path).toList.flatMap integersOf
  | .siteData path => (o.siteData path).flatMap integersOf
  | _ => []

/-- The sizes that the banner accepts. -/
def sizes (o : Opportunity) : List Size := (o.imp.banner.map (·.format)).getD []

/-- Latitude and longitude of the device. -/
def location? (o : Opportunity) : Option (Float × Float) := do
  let geo ← (← o.request.device).geo
  return (← geo.lat, ← geo.lon)

end Opportunity

end DealPacing.Targeting
