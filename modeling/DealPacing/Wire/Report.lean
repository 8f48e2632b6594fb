import DealPacing.Wire.Codec

/-!
# Delivery reports

What is reported about the delivery of line items: the progress of each line item in a reporting
window or over its life, batches of such reports, and the snapshot of a single line item.

## Main definitions

* `TokenReport`, `ScheduleReport`: serves of a plan per priority class
* `LineItemReport`: the counters of a line item
* `ProgressReport`, `ReportBatch`: reports of a window, split for upload
* `LineItemSnapshot`: the pacing state of a line item
-/

namespace DealPacing

open Wire

/-- Serves of one priority class: granted, spent in the reported window, and spent in all. -/
structure TokenReport where
  priorityClass : Int
  total : Nat
  spent : Nat
  totalSpent : Option Nat
deriving DecidableEq, Repr

/-- A delivery plan and its serves. -/
structure ScheduleReport where
  planId : String
  planStart : String
  planExpiration : String
  planUpdated : String
  tokens : List TokenReport
deriving DecidableEq, Repr

/-- How often something happened to a line item. -/
structure EventReport where
  eventType : String
  count : Nat
deriving DecidableEq, Repr

/-- How often a line item lost to a competitor. -/
structure LostToReport where
  lineItemSource : Option String
  lineItemId : String
  count : Nat
deriving DecidableEq, Repr

/-- The counters of a line item. -/
structure LineItemReport where
  lineItemId : String
  lineItemSource : Option String
  dealId : Option String
  extLineItemId : Option String
  accountAuctions : Option Nat
  domainMatched : Nat
  targetMatched : Nat
  targetMatchedButFcapped : Nat
  targetMatchedButFcapLookupFailed : Nat
  pacingDeferred : Nat
  sentToBidder : Nat
  sentToBidderAsTopMatch : Nat
  receivedFromBidder : Nat
  receivedFromBidderInvalidated : Nat
  sentToClient : Nat
  sentToClientAsTopMatch : Nat
  lostToLineItems : List LostToReport
  events : List EventReport
  deliverySchedule : List ScheduleReport
  readyAt : Option String
  spentTokens : Option Nat
  pacingFrequency : Option Int
deriving DecidableEq, Repr

/-- A report on a reporting window, or on all windows together. -/
structure ProgressReport where
  reportId : String
  instanceId : Option String
  region : Option String
  vendor : Option String
  reportTimeStamp : Option String
  windowStart : Option String
  windowEnd : Option String
  clientAuctions : Nat
  lineItemStatus : List LineItemReport
deriving DecidableEq, Repr

/-- Reports on one window that are uploaded one by one. -/
structure ReportBatch where
  reportId : String
  windowEnd : Option String
  reports : List ProgressReport
deriving DecidableEq, Repr

/-- The pacing state of a registered line item. -/
structure LineItemSnapshot where
  lineItemId : String
  accountId : Option String
  deliverySchedule : Option ScheduleReport
  readyToServe : Option Instant
  spentTokens : Option Nat
  pacingFrequency : Option Int
  target : Option Json
deriving BEq

/-- Read the serves of a class. -/
def TokenReport.decode : Decoder TokenReport := record do
  let priorityClass ← required "class" int32
  let total ← required "total" word64
  let spent ← required "spent" word64
  let totalSpent ← optional "totalSpent" word64
  return { priorityClass, total, spent, totalSpent }

/-- Write the serves of a class. -/
def TokenReport.encode (x : TokenReport) : Json := ofFields [
  member "class" (.int x.priorityClass),
  member "total" (.nat x.total),
  member "spent" (.nat x.spent),
  optionalMember "totalSpent" .nat x.totalSpent]

/-- Read a reported plan. -/
def ScheduleReport.decode : Decoder ScheduleReport := record do
  let planId ← required "planId" text
  let planStart ← required "planStartTimeStamp" text
  let planExpiration ← required "planExpirationTimeStamp" text
  let planUpdated ← required "planUpdatedTimeStamp" text
  let tokens ← required "tokens" (list TokenReport.decode)
  return { planId, planStart, planExpiration, planUpdated, tokens }

/-- Write a reported plan. -/
def ScheduleReport.encode (x : ScheduleReport) : Json := ofFields [
  member "planId" (.str x.planId),
  member "planStartTimeStamp" (.str x.planStart),
  member "planExpirationTimeStamp" (.str x.planExpiration),
  member "planUpdatedTimeStamp" (.str x.planUpdated),
  member "tokens" (encodeList TokenReport.encode x.tokens)]

/-- Read an event count. -/
def EventReport.decode : Decoder EventReport := record do
  let eventType ← required "type" text
  let count ← required "count" word64
  return { eventType, count }

/-- Write an event count. -/
def EventReport.encode (x : EventReport) : Json :=
  ofFields [member "type" (.str x.eventType), member "count" (.nat x.count)]

/-- Read a competitor. -/
def LostToReport.decode : Decoder LostToReport := record do
  let lineItemSource ← optional "lineItemSource" text
  let lineItemId ← required "lineItemId" text
  let count ← required "count" word64
  return { lineItemSource, lineItemId, count }

/-- Write a competitor. -/
def LostToReport.encode (x : LostToReport) : Json := ofFields [
  optionalMember "lineItemSource" .str x.lineItemSource,
  member "lineItemId" (.str x.lineItemId),
  member "count" (.nat x.count)]

/-- Read the counters of a line item. -/
def LineItemReport.decode : Decoder LineItemReport := record do
  let lineItemId ← required "lineItemId" text
  let lineItemSource ← optional "lineItemSource" text
  let dealId ← optional "dealId" text
  let extLineItemId ← optional "extLineItemId" text
  let accountAuctions ← optional "accountAuctions" word64
  let domainMatched ← required "domainMatched" word64
  let targetMatched ← required "targetMatched" word64
  let targetMatchedButFcapped ← required "targetMatchedButFcapped" word64
  let targetMatchedButFcapLookupFailed ← required "targetMatchedButFcapLookupFailed" word64
  let pacingDeferred ← required "pacingDeferred" word64
  let sentToBidder ← required "sentToBidder" word64
  let sentToBidderAsTopMatch ← required "sentToBidderAsTopMatch" word64
  let receivedFromBidder ← required "receivedFromBidder" word64
  let receivedFromBidderInvalidated ← required "receivedFromBidderInvalidated" word64
  let sentToClient ← required "sentToClient" word64
  let sentToClientAsTopMatch ← required "sentToClientAsTopMatch" word64
  let lostToLineItems ← defaulted "lostToLineItems" (list LostToReport.decode) []
  let events ← defaulted "events" (list EventReport.decode) []
  let deliverySchedule ← defaulted "deliverySchedule" (list ScheduleReport.decode) []
  let readyAt ← optional "readyAt" text
  let spentTokens ← optional "spentTokens" word64
  let pacingFrequency ← optional "pacingFrequency" int64
  return {
    lineItemId, lineItemSource, dealId, extLineItemId, accountAuctions, domainMatched,
    targetMatched, targetMatchedButFcapped, targetMatchedButFcapLookupFailed, pacingDeferred,
    sentToBidder, sentToBidderAsTopMatch, receivedFromBidder, receivedFromBidderInvalidated,
    sentToClient, sentToClientAsTopMatch, lostToLineItems, events, deliverySchedule, readyAt,
    spentTokens, pacingFrequency }

/-- Write the counters of a line item. -/
def LineItemReport.encode (x : LineItemReport) : Json := ofFields [
  member "lineItemId" (.str x.lineItemId),
  optionalMember "lineItemSource" .str x.lineItemSource,
  optionalMember "dealId" .str x.dealId,
  optionalMember "extLineItemId" .str x.extLineItemId,
  optionalMember "accountAuctions" .nat x.accountAuctions,
  member "domainMatched" (.nat x.domainMatched),
  member "targetMatched" (.nat x.targetMatched),
  member "targetMatchedButFcapped" (.nat x.targetMatchedButFcapped),
  member "targetMatchedButFcapLookupFailed" (.nat x.targetMatchedButFcapLookupFailed),
  member "pacingDeferred" (.nat x.pacingDeferred),
  member "sentToBidder" (.nat x.sentToBidder),
  member "sentToBidderAsTopMatch" (.nat x.sentToBidderAsTopMatch),
  member "receivedFromBidder" (.nat x.receivedFromBidder),
  member "receivedFromBidderInvalidated" (.nat x.receivedFromBidderInvalidated),
  member "sentToClient" (.nat x.sentToClient),
  member "sentToClientAsTopMatch" (.nat x.sentToClientAsTopMatch),
  member "lostToLineItems" (encodeList LostToReport.encode x.lostToLineItems),
  member "events" (encodeList EventReport.encode x.events),
  member "deliverySchedule" (encodeList ScheduleReport.encode x.deliverySchedule),
  optionalMember "readyAt" .str x.readyAt,
  optionalMember "spentTokens" .nat x.spentTokens,
  optionalMember "pacingFrequency" .int x.pacingFrequency]

/-- Read a report. -/
def ProgressReport.decode : Decoder ProgressReport := record do
  let reportId ← required "reportId" text
  let instanceId ← optional "instanceId" text
  let region ← optional "region" text
  let vendor ← optional "vendor" text
  let reportTimeStamp ← optional "reportTimeStamp" text
  let windowStart ← optional "dataWindowStartTimeStamp" text
  let windowEnd ← optional "dataWindowEndTimeStamp" text
  let clientAuctions ← required "clientAuctions" word64
  let lineItemStatus ← defaulted "lineItemStatus" (list LineItemReport.decode) []
  return {
    reportId, instanceId, region, vendor, reportTimeStamp, windowStart, windowEnd, clientAuctions,
    lineItemStatus }

/-- Write a report. -/
def ProgressReport.encode (x : ProgressReport) : Json := ofFields [
  member "reportId" (.str x.reportId),
  optionalMember "instanceId" .str x.instanceId,
  optionalMember "region" .str x.region,
  optionalMember "vendor" .str x.vendor,
  optionalMember "reportTimeStamp" .str x.reportTimeStamp,
  optionalMember "dataWindowStartTimeStamp" .str x.windowStart,
  optionalMember "dataWindowEndTimeStamp" .str x.windowEnd,
  member "clientAuctions" (.nat x.clientAuctions),
  member "lineItemStatus" (encodeList LineItemReport.encode x.lineItemStatus)]

/-- Read a batch. -/
def ReportBatch.decode : Decoder ReportBatch := record do
  let reportId ← required "reportId" text
  let windowEnd ← optional "dataWindowEndTimeStamp" text
  let reports ← required "reports" (list ProgressReport.decode)
  return { reportId, windowEnd, reports }

/-- Write a batch. -/
def ReportBatch.encode (x : ReportBatch) : Json := ofFields [
  member "reportId" (.str x.reportId),
  optionalMember "dataWindowEndTimeStamp" .str x.windowEnd,
  member "reports" (encodeList ProgressReport.encode x.reports)]

/-- Read a snapshot. -/
def LineItemSnapshot.decode : Decoder LineItemSnapshot := record do
  let lineItemId ← required "lineItemId" text
  let accountId ← optional "accountId" text
  let deliverySchedule ← optional "deliverySchedule" ScheduleReport.decode
  let readyToServe ← optional "readyToServeTimestamp" instant
  let spentTokens ← optional "spentTokens" word64
  let pacingFrequency ← optional "pacingFrequency" int64
  let target ← optional "target" raw
  return {
    lineItemId, accountId, deliverySchedule, readyToServe, spentTokens, pacingFrequency, target }

/-- Write a snapshot. -/
def LineItemSnapshot.encode (x : LineItemSnapshot) : Json := ofFields [
  member "lineItemId" (.str x.lineItemId),
  optionalMember "accountId" .str x.accountId,
  optionalMember "deliverySchedule" ScheduleReport.encode x.deliverySchedule,
  optionalMember "readyToServeTimestamp" encodeInstant x.readyToServe,
  optionalMember "spentTokens" .nat x.spentTokens,
  optionalMember "pacingFrequency" .int x.pacingFrequency,
  rawMember "target" x.target]

end DealPacing
