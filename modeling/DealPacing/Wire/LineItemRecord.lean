import DealPacing.Json.Reader
import DealPacing.Wire.BidRequest

/-!
# Line item records

A planner describes each guaranteed contract by a record: whom it belongs to, what it pays, when it
runs, what it targets, and the schedules its deliveries are paced by.

## Main definitions

* `Allotment`, `Schedule`: the serves granted per priority class, and the window they are meant for
* `LineItemRecord`: the record of a line item
* `LineItemRecord.decodeAll`: the records of a planner response, with the places of the malformed
  ones
-/

namespace DealPacing

open Wire

/-- Serves granted to one priority class. -/
structure Allotment where
  priorityClass : Int
  total : Nat
deriving DecidableEq, Repr

/-- One pacing plan of a line item as the planner sends it. -/
structure Schedule where
  planId : String
  start : Instant
  finish : Instant
  updated : Instant
  tokens : List Allotment
deriving DecidableEq, Repr

/-- Price of a thousand serves in some currency. -/
structure Price where
  cpm : Float
  currency : String
deriving BEq

/-- A frequency cap; matching consults its id only. -/
structure FrequencyCap where
  fcapId : String
  count : Nat
  periods : Nat
  periodType : String
deriving DecidableEq, Repr

/-- The planner's record of a line item. -/
structure LineItemRecord where
  lineItemId : String
  extLineItemId : Option String
  dealId : Option String
  sizes : List Size
  accountId : String
  source : String
  price : Option Price
  relativePriority : Option Int
  start : Instant
  finish : Instant
  updated : Option Instant
  status : String
  frequencyCaps : List FrequencyCap
  schedules : List Schedule
  targeting : Option Json
deriving BEq

/-- The schedule covers the instant: `start ≤ now < finish`. -/
def Schedule.covers (s : Schedule) (now : Instant) : Bool := s.start ≤ now && now < s.finish

/-- The record is marked as eligible for delivery. -/
def LineItemRecord.isActive (r : LineItemRecord) : Bool := r.status == "active"

/-- The line item has ended before the instant. -/
def LineItemRecord.isExpired (r : LineItemRecord) (now : Instant) : Bool := r.finish < now

/-- The first schedule that covers the instant. -/
def LineItemRecord.scheduleAt? (r : LineItemRecord) (now : Instant) : Option Schedule :=
  r.schedules.find? (·.covers now)

/-- The ids of the frequency caps. -/
def LineItemRecord.fcapIds (r : LineItemRecord) : List String := r.frequencyCaps.map (·.fcapId)

/-- Read an allotment. -/
def Allotment.decode : Decoder Allotment := record do
  let priorityClass ← required "class" int32
  let total ← required "total" word64
  return { priorityClass, total }

/-- Write an allotment. -/
def Allotment.encode (x : Allotment) : Json :=
  ofFields [member "class" (.int x.priorityClass), member "total" (.nat x.total)]

/-- Read a schedule. -/
def Schedule.decode : Decoder Schedule := record do
  let planId ← required "planId" text
  let start ← required "startTimeStamp" instant
  let finish ← required "endTimeStamp" instant
  let updated ← required "updatedTimeStamp" instant
  let tokens ← defaulted "tokens" (list Allotment.decode) []
  return { planId, start, finish, updated, tokens }

/-- Write a schedule. -/
def Schedule.encode (x : Schedule) : Json := ofFields [
  member "planId" (.str x.planId),
  member "startTimeStamp" (encodeInstant x.start),
  member "endTimeStamp" (encodeInstant x.finish),
  member "updatedTimeStamp" (encodeInstant x.updated),
  member "tokens" (encodeList Allotment.encode x.tokens)]

/-- Read a price. -/
def Price.decode : Decoder Price := record do
  let cpm ← required "cpm" float
  let currency ← required "currency" text
  return { cpm, currency }

/-- Write a price. -/
def Price.encode (x : Price) : Json :=
  ofFields [member "cpm" (.float x.cpm), member "currency" (.str x.currency)]

/-- Read a frequency cap. -/
def FrequencyCap.decode : Decoder FrequencyCap := record do
  let fcapId ← required "fcapId" text
  let count ← defaulted "count" word64 0
  let periods ← defaulted "periods" word64 0
  let periodType ← defaulted "periodType" text ""
  return { fcapId, count, periods, periodType }

/-- Write a frequency cap. -/
def FrequencyCap.encode (x : FrequencyCap) : Json := ofFields [
  member "fcapId" (.str x.fcapId),
  member "count" (.nat x.count),
  member "periods" (.nat x.periods),
  member "periodType" (.str x.periodType)]

/-- Read a line item record. -/
def LineItemRecord.decode : Decoder LineItemRecord := record do
  let lineItemId ← required "lineItemId" text
  let extLineItemId ← optional "extLineItemId" text
  let dealId ← optional "dealId" text
  let sizes ← defaulted "sizes" (list Size.decode) []
  let accountId ← defaulted "accountId" text ""
  let source ← defaulted "source" text ""
  let price ← optional "price" Price.decode
  let relativePriority ← optional "relativePriority" int32
  let start ← required "startTimeStamp" instant
  let finish ← required "endTimeStamp" instant
  let updated ← optional "updatedTimeStamp" instant
  let status ← defaulted "status" text ""
  let frequencyCaps ← defaulted "frequencyCaps" (list FrequencyCap.decode) []
  let schedules ← defaulted "deliverySchedules" (list Schedule.decode) []
  let targeting ← optional "targeting" raw
  return {
    lineItemId, extLineItemId, dealId, sizes, accountId, source, price, relativePriority, start,
    finish, updated, status, frequencyCaps, schedules, targeting }

/-- Write a line item record. -/
def LineItemRecord.encode (x : LineItemRecord) : Json := ofFields [
  member "lineItemId" (.str x.lineItemId),
  optionalMember "extLineItemId" .str x.extLineItemId,
  optionalMember "dealId" .str x.dealId,
  member "sizes" (encodeList Size.encode x.sizes),
  member "accountId" (.str x.accountId),
  member "source" (.str x.source),
  optionalMember "price" Price.encode x.price,
  optionalMember "relativePriority" .int x.relativePriority,
  member "startTimeStamp" (encodeInstant x.start),
  member "endTimeStamp" (encodeInstant x.finish),
  optionalMember "updatedTimeStamp" encodeInstant x.updated,
  member "status" (.str x.status),
  member "frequencyCaps" (encodeList FrequencyCap.encode x.frequencyCaps),
  member "deliverySchedules" (encodeList Schedule.encode x.schedules),
  rawMember "targeting" x.targeting]

/-- The records among the elements of a planner response, and the positions of the elements that
are none. -/
def LineItemRecord.ofElements (elements : List Json) : List LineItemRecord × List Nat :=
  (elements.filterMap decode,
    elements.zipIdx.filterMap fun (element, i) => if (decode element).isNone then some i else none)

/-- Read a planner response: the text of an array of records. -/
def LineItemRecord.decodeAll (response : String) : Option (List LineItemRecord × List Nat) :=
  (Json.parse response).bind fun v => v.asArray?.map ofElements

end DealPacing
