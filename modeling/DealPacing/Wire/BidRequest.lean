import DealPacing.Wire.Codec

/-!
# Bid requests

The attributes of a bid request that line item targeting consults. Extension objects stay JSON
values, since targeting addresses arbitrary paths in them.

## Main definitions

* `BidRequest`, `Impression`, `Banner`, `Size`: the request and its ad slots
* `Site`, `App`, `Device`, `User`: where the request comes from
* `decode` and `encode` of each type
-/

namespace DealPacing

open Wire

/-- Width and height of a creative. -/
structure Size where
  w : Int
  h : Int
deriving DecidableEq, Repr

/-- A banner slot: the accepted sizes and the position on the page. -/
structure Banner where
  format : List Size
  pos : Option Int
deriving DecidableEq, Repr

/-- An ad slot that is up for auction. -/
structure Impression where
  id : String
  banner : Option Banner
  video : Option Json
  native : Option Json
  ext : Option Json
deriving BEq, Inhabited

/-- The publisher of a site. -/
structure Publisher where
  id : Option String
  domain : Option String
deriving DecidableEq, Repr

/-- The web site that shows the ad slots. -/
structure Site where
  domain : Option String
  page : Option String
  publisher : Option Publisher
  ext : Option Json
deriving BEq

/-- The application that shows the ad slots. -/
structure App where
  bundle : Option String
  ext : Option Json
deriving BEq

/-- The location of a device. -/
structure Geo where
  lat : Option Float
  lon : Option Float
  ext : Option Json
deriving BEq

/-- The device of the user. -/
structure Device where
  geo : Option Geo
  ext : Option Json
deriving BEq

/-- An audience segment. -/
structure Segment where
  id : Option String
deriving DecidableEq, Repr

/-- The audience segments of one data provider. -/
structure Audience where
  id : Option String
  segment : List Segment
deriving DecidableEq, Repr

/-- The time of the request on the user's clock. -/
structure UserTime where
  userdow : Option Int
  userhour : Option Int
deriving DecidableEq, Repr

/-- Extensions of the user object. -/
structure UserExt where
  time : Option UserTime
  data : Option Json
deriving BEq

/-- The person at the device. -/
structure User where
  id : Option String
  buyeruid : Option String
  yob : Option Int
  gender : Option String
  keywords : Option String
  customdata : Option String
  data : List Audience
  ext : Option UserExt
deriving BEq

/-- A bid request with its ad slots. -/
structure BidRequest where
  id : String
  imp : List Impression
  site : Option Site
  app : Option App
  device : Option Device
  user : Option User
  ext : Option Json
deriving BEq, Inhabited

/-- Read a size. -/
def Size.decode : Decoder Size := record do
  let w ← required "w" int64
  let h ← required "h" int64
  return { w, h }

/-- Write a size. -/
def Size.encode (x : Size) : Json := ofFields [member "w" (.int x.w), member "h" (.int x.h)]

/-- Read a banner. -/
def Banner.decode : Decoder Banner := record do
  let format ← defaulted "format" (list Size.decode) []
  let pos ← optional "pos" int64
  return { format, pos }

/-- Write a banner. -/
def Banner.encode (x : Banner) : Json :=
  ofFields [member "format" (encodeList Size.encode x.format), optionalMember "pos" .int x.pos]

/-- Read an impression. -/
def Impression.decode : Decoder Impression := record do
  let id ← required "id" text
  let banner ← optional "banner" Banner.decode
  let video ← optional "video" raw
  let native ← optional "native" raw
  let ext ← optional "ext" raw
  return { id, banner, video, native, ext }

/-- Write an impression. -/
def Impression.encode (x : Impression) : Json := ofFields [
  member "id" (.str x.id),
  optionalMember "banner" Banner.encode x.banner,
  rawMember "video" x.video,
  rawMember "native" x.native,
  rawMember "ext" x.ext]

/-- Read a publisher. -/
def Publisher.decode : Decoder Publisher := record do
  let id ← optional "id" text
  let domain ← optional "domain" text
  return { id, domain }

/-- Write a publisher. -/
def Publisher.encode (x : Publisher) : Json :=
  ofFields [optionalMember "id" .str x.id, optionalMember "domain" .str x.domain]

/-- Read a site. -/
def Site.decode : Decoder Site := record do
  let domain ← optional "domain" text
  let page ← optional "page" text
  let publisher ← optional "publisher" Publisher.decode
  let ext ← optional "ext" raw
  return { domain, page, publisher, ext }

/-- Write a site. -/
def Site.encode (x : Site) : Json := ofFields [
  optionalMember "domain" .str x.domain,
  optionalMember "page" .str x.page,
  optionalMember "publisher" Publisher.encode x.publisher,
  rawMember "ext" x.ext]

/-- Read an application. -/
def App.decode : Decoder App := record do
  let bundle ← optional "bundle" text
  let ext ← optional "ext" raw
  return { bundle, ext }

/-- Write an application. -/
def App.encode (x : App) : Json :=
  ofFields [optionalMember "bundle" .str x.bundle, rawMember "ext" x.ext]

/-- Read a location. -/
def Geo.decode : Decoder Geo := record do
  let lat ← optional "lat" float
  let lon ← optional "lon" float
  let ext ← optional "ext" raw
  return { lat, lon, ext }

/-- Write a location. -/
def Geo.encode (x : Geo) : Json := ofFields [
  optionalMember "lat" .float x.lat,
  optionalMember "lon" .float x.lon,
  rawMember "ext" x.ext]

/-- Read a device. -/
def Device.decode : Decoder Device := record do
  let geo ← optional "geo" Geo.decode
  let ext ← optional "ext" raw
  return { geo, ext }

/-- Write a device. -/
def Device.encode (x : Device) : Json :=
  ofFields [optionalMember "geo" Geo.encode x.geo, rawMember "ext" x.ext]

/-- Read a segment. -/
def Segment.decode : Decoder Segment := record do
  let id ← optional "id" text
  return { id }

/-- Write a segment. -/
def Segment.encode (x : Segment) : Json := ofFields [optionalMember "id" .str x.id]

/-- Read the segments of a data provider. -/
def Audience.decode : Decoder Audience := record do
  let id ← optional "id" text
  let segment ← defaulted "segment" (list Segment.decode) []
  return { id, segment }

/-- Write the segments of a data provider. -/
def Audience.encode (x : Audience) : Json := ofFields [
  optionalMember "id" .str x.id, member "segment" (encodeList Segment.encode x.segment)]

/-- Read the user's clock. -/
def UserTime.decode : Decoder UserTime := record do
  let userdow ← optional "userdow" int64
  let userhour ← optional "userhour" int64
  return { userdow, userhour }

/-- Write the user's clock. -/
def UserTime.encode (x : UserTime) : Json :=
  ofFields [optionalMember "userdow" .int x.userdow, optionalMember "userhour" .int x.userhour]

/-- Read the extensions of a user. -/
def UserExt.decode : Decoder UserExt := record do
  let time ← optional "time" UserTime.decode
  let data ← optional "data" raw
  return { time, data }

/-- Write the extensions of a user. -/
def UserExt.encode (x : UserExt) : Json :=
  ofFields [optionalMember "time" UserTime.encode x.time, rawMember "data" x.data]

/-- Read a user. -/
def User.decode : Decoder User := record do
  let id ← optional "id" text
  let buyeruid ← optional "buyeruid" text
  let yob ← optional "yob" int64
  let gender ← optional "gender" text
  let keywords ← optional "keywords" text
  let customdata ← optional "customdata" text
  let data ← defaulted "data" (list Audience.decode) []
  let ext ← optional "ext" UserExt.decode
  return { id, buyeruid, yob, gender, keywords, customdata, data, ext }

/-- Write a user. -/
def User.encode (x : User) : Json := ofFields [
  optionalMember "id" .str x.id,
  optionalMember "buyeruid" .str x.buyeruid,
  optionalMember "yob" .int x.yob,
  optionalMember "gender" .str x.gender,
  optionalMember "keywords" .str x.keywords,
  optionalMember "customdata" .str x.customdata,
  member "data" (encodeList Audience.encode x.data),
  optionalMember "ext" UserExt.encode x.ext]

/-- Read a bid request. -/
def BidRequest.decode : Decoder BidRequest := record do
  let id ← required "id" text
  let imp ← defaulted "imp" (list Impression.decode) []
  let site ← optional "site" Site.decode
  let app ← optional "app" App.decode
  let device ← optional "device" Device.decode
  let user ← optional "user" User.decode
  let ext ← optional "ext" raw
  return { id, imp, site, app, device, user, ext }

/-- Write a bid request. -/
def BidRequest.encode (x : BidRequest) : Json := ofFields [
  member "id" (.str x.id),
  member "imp" (encodeList Impression.encode x.imp),
  optionalMember "site" Site.encode x.site,
  optionalMember "app" App.encode x.app,
  optionalMember "device" Device.encode x.device,
  optionalMember "user" User.encode x.user,
  rawMember "ext" x.ext]

end DealPacing
