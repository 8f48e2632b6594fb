import DealPacing.Auction.Matching
import DealPacing.Targeting.Definition
import DealPacing.Text.Blank

/-!
# The registry of line items

The registry holds the line items that can be offered. The planner sends the records of all line
items it knows; as long as it responds, its records are entered or refreshed, and line items that
ended or became inactive are removed. Line items that a response does not name are kept. A malformed
record concerns its own line item only.

## Main definitions

* `Pricing`, `Pricing.cpm`: prices in the currency of the ad server
* `Registry`: the registered line items
* `Registry.update`: apply a response of the planner
* `Registry.advance`: move line items on to their next plans
* `Registry.spend`: take a serve of a line item
* `Registry.findMatching`: match an account's line items to an impression
-/

namespace DealPacing

open Targeting

/-- The currency of the ad server and the rates of the others. -/
structure Pricing where
  currency : String
  rates : Rates

/-- The price of a record in the currency of the ad server. -/
def Pricing.cpm (p : Pricing) (record : LineItemRecord) : Except RecordError (Option Float) :=
  match record.price with
  | none => .ok none
  | some price =>
    if Text.sameIgnoringLatinCase price.currency p.currency then .ok (some price.cpm)
    else
      match p.rates.convert price.cpm price.currency p.currency with
      | .ok cpm => .ok (some cpm)
      | .error e => .error (.currency record.lineItemId e)

/-- Refuse a record that lacks its id, account or source, or that ends before it starts. -/
def LineItemRecord.validate (r : LineItemRecord) : Except RecordError Unit :=
  if r.lineItemId.isEmpty then .error .emptyId
  else if r.accountId.isEmpty then .error (.missingAccount r.lineItemId)
  else if r.source.isEmpty then .error (.missingSource r.lineItemId)
  else if r.finish < r.start then .error (.invalidWindow r.lineItemId)
  else .ok ()

/-- The expression of a record's targeting; a malformed definition leaves none. -/
def LineItemRecord.expression? (r : LineItemRecord) : Option Expression :=
  r.targeting.bind fun v => (Expression.parse v (some r.lineItemId)).toOption

/-- What is reported about a record's targeting. -/
def LineItemRecord.targetingEvents (r : LineItemRecord) : List Event :=
  match r.targeting with
  | none => [.missingTargeting r.lineItemId]
  | some v =>
    match Expression.parse v (some r.lineItemId) with
    | .ok _ => []
    | .error e => [.malformedTargeting r.lineItemId r.accountId r.source e.message]

/-- The record makes its line item disappear: it is not active, or it has ended. -/
def LineItemRecord.isRetired (r : LineItemRecord) (now : Instant) : Bool :=
  !r.isActive || r.isExpired now

/-- The registered line items, and whether the planner responds. -/
structure Registry where
  lineItems : IdMap LineItem
  plannerResponds : Bool

namespace Registry

/-- A registry without line items. -/
def empty : Registry := ⟨∅, true⟩

/-- The line item with an id. -/
def get? (r : Registry) (id : String) : Option LineItem := r.lineItems[id]?

/-- The line items in the order of their ids. -/
def toList (r : Registry) : List LineItem := r.lineItems.toList.map Prod.snd

/-- The ids of the line items in ascending order. -/
def ids (r : Registry) : List String := r.lineItems.toList.map Prod.fst

/-- Enter a line item under its id. -/
def put (r : Registry) (x : LineItem) : Registry :=
  { r with lineItems := r.lineItems.insert x.id x }

/-- Remove the line items with the given ids. -/
def eraseAll (r : Registry) (ids : List String) : Registry :=
  { r with lineItems := ids.foldl (·.erase ·) r.lineItems }

/-- The account has a line item whose plan covers the instant. -/
def hasDeals (r : Registry) (accountId : String) (now : Instant) : Bool :=
  !accountId.isEmpty && r.toList.any fun x => x.accountId == accountId && x.isActiveAt now

/-- The line items that a response retires: those that its records retire, and those that ended. -/
def retired (r : Registry) (records : List LineItemRecord) (now : Instant) : List String :=
  let named := IdSet.ofList ((records.filter (·.isRetired now)).map (·.lineItemId))
  (r.lineItems.toList.filter fun (id, x) => named.contains id || x.record.isExpired now).map
    Prod.fst

/-- Enter a record: refresh the line item of its id, or register a new one. -/
def enter (r : Registry) (record : LineItemRecord) (cpm : Option Float) (now : Instant) :
    StateM Spending Registry := do
  match r.lineItems[record.lineItemId]? with
  | some x => return r.put (← x.refreshed record cpm record.expression? now)
  | none => return r.put (← LineItem.register record cpm record.expression? now)

/-- What is reported about a record that is entered. -/
def enterEvents (r : Registry) (record : LineItemRecord) : List Event :=
  record.targetingEvents ++
    if r.lineItems.contains record.lineItemId then []
    else [.registered record.lineItemId record.accountId record.source]

/-- The price of a record that can be entered. -/
def accept (pricing : Pricing) (record : LineItemRecord) : Except RecordError (Option Float) := do
  record.validate
  pricing.cpm record

/-- Apply one record of a response. -/
def applyRecord (pricing : Pricing) (now : Instant) (sofar : Registry × List Event)
    (record : LineItemRecord) : StateM Spending (Registry × List Event) := do
  let (r, events) := sofar
  if record.isRetired now then return sofar
  else
    match accept pricing record with
    | .error e => return (r, events ++ [.malformedRecord e])
    | .ok cpm => return (← r.enter record cpm now, events ++ r.enterEvents record)

/-- Apply a response of the planner. -/
def update (pricing : Pricing) (r : Registry) (records : List LineItemRecord)
    (plannerResponds : Bool) (now : Instant) : StateM Spending (Registry × List Event) := do
  let r := { r with plannerResponds }
  if plannerResponds then
    let gone := r.retired records now
    let events := if gone.isEmpty then [] else [.dropped gone]
    records.foldlM (applyRecord pricing now) (r.eraseAll gone, events)
  else return (r, [])

/-- Move a line item on to its next plan. -/
def advanceOne (now : Instant) (sofar : Registry × List Event) (x : LineItem) :
    StateM Spending (Registry × List Event) := do
  let (r, events) := sofar
  match ← x.advance? now r.plannerResponds with
  | none => return sofar
  | some next =>
    return (r.put next, events ++ [.advanced next.id (next.plan.map (·.id))])

/-- Move every line item whose plan is over on to its next plan. -/
def advance (r : Registry) (now : Instant) : StateM Spending (Registry × List Event) :=
  r.toList.foldlM (advanceOne now) (r, [])

/-- Take a serve of a line item. -/
def spend (r : Registry) (id : String) : StateM Spending (Registry × Option TokenSpend) := do
  match r.get? id with
  | none => return (r, none)
  | some x =>
    let (x, spent) ← x.spend
    return ({ r with lineItems := r.lineItems.insert id x }, spent)

/-- Match the line items of the auction's account to an impression. Blanks around the account id do
not count, and an empty id has no line items. -/
def findMatching (settings : MatchSettings) (s : Spending) (r : Registry) (ctx : AuctionContext)
    (imp : Impression) (bidder : Option String) (now : Instant) : Selection :=
  let accountId := Text.trim ctx.accountId
  if accountId.isEmpty then ⟨[], ctx.log, []⟩
  else
    let candidates := r.toList.filter (·.accountId == accountId)
    if candidates.isEmpty then ⟨[], ctx.log, [.noLineItems accountId]⟩
    else matchLineItems settings s candidates ctx imp bidder now

end Registry

end DealPacing
