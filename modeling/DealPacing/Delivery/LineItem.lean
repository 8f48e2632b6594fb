import DealPacing.Delivery.Plan
import DealPacing.Targeting.Expression

/-!
# Line items

A registered line item is the planner's record together with its price in the currency of the ad
server, its parsed targeting, and its pacing state: the active plan and the instant at which the
next serve is due. A refresh of the record keeps the pacing state as far as the plan stays the same.

## Main definitions

* `LineItem`: line items
* `LineItem.register`, `LineItem.refreshed`: a new line item, and a new record for an old one
* `LineItem.spend`: take a serve and put off the next one
* `LineItem.advance?`: move on to the next plan
-/

namespace DealPacing

/-- A registered line item. A line item without `readyAt` is never due. -/
structure LineItem where
  record : LineItemRecord
  cpm : Option Float
  targeting : Option Targeting.Expression
  plan : Option Plan
  readyAt : Option Instant

/-- A serve that was taken: the plan and the class it came from. -/
structure TokenSpend where
  planId : String
  priorityClass : Int
deriving DecidableEq, Repr

namespace LineItem

/-- The id of the line item. -/
def id (x : LineItem) : String := x.record.lineItemId

/-- The bidder, or alias of a bidder, that the line item is offered to. -/
def source (x : LineItem) : String := x.record.source

/-- The account that the line item belongs to. -/
def accountId (x : LineItem) : String := x.record.accountId

/-- The deal that the line item is sold under. -/
def dealId (x : LineItem) : Option String := x.record.dealId

/-- An instant cut to milliseconds. -/
def dueAt (t : Instant) : Instant := Instant.ofMillis t.millis

/-- A line item that has just been registered: the schedule that covers `now` becomes its plan and
the first serve is due at once. -/
def register (record : LineItemRecord) (cpm : Option Float)
    (targeting : Option Targeting.Expression) (now : Instant) : StateM Spending LineItem := do
  match record.scheduleAt? now with
  | some x =>
    let plan ← Plan.ofSchedule x
    return ⟨record, cpm, targeting, some plan, some (dueAt now)⟩
  | none => return ⟨record, cpm, targeting, none, none⟩

/-- The pacing state under a new record: a newer revision of the active plan keeps its counters and
sets the next serve anew, an older one changes nothing, another plan starts afresh, and without a
schedule that covers `now` there is no plan. -/
def refreshedPlan (x : LineItem) (record : LineItemRecord) (now : Instant) :
    StateM Spending (Option Plan × Option Instant) := do
  match record.scheduleAt? now, x.plan with
  | none, _ => return (none, none)
  | some next, none => return (some (← Plan.ofSchedule next), some (dueAt now))
  | some next, some current =>
    if current.id = next.planId then
      if current.isUpdatedBy next then
        let updated ← current.withUpdatedSchedule next
        return (some updated, (updated.readyAt? (← get)).map dueAt)
      else return (some current, x.readyAt)
    else return (some (← Plan.ofSchedule next), some (dueAt now))

/-- The line item with a new record. -/
def refreshed (x : LineItem) (record : LineItemRecord) (cpm : Option Float)
    (targeting : Option Targeting.Expression) (now : Instant) : StateM Spending LineItem := do
  let (plan, readyAt) ← x.refreshedPlan record now
  return ⟨record, cpm, targeting, plan, readyAt⟩

/-- The next serve is due. -/
def isReadyAt (x : LineItem) (now : Instant) : Bool :=
  match x.readyAt with
  | some t => t ≤ now
  | none => false

/-- The active plan covers the instant. -/
def isActiveAt (x : LineItem) (now : Instant) : Bool :=
  match x.plan with
  | some p => p.covers now
  | none => false

/-- The lowest class of the active plan with a serve left. -/
def highestUnspentClass (x : LineItem) (s : Spending) : Option Int :=
  x.plan.bind (·.highestUnspentClass s)

/-- A serve is left in the active plan, or there is no plan. -/
def hasUnspentTokens (x : LineItem) (s : Spending) : Bool :=
  match x.plan with
  | some p => (p.highestUnspentClass s).isSome
  | none => true

/-- Take a serve of the active plan and put off the next one. -/
def spend (x : LineItem) : StateM Spending (LineItem × Option TokenSpend) := do
  match x.plan with
  | none => return (x, none)
  | some p =>
    match ← p.spend with
    | none => return (x, none)
    | some priorityClass =>
      let readyAt := (p.readyAt? (← get)).map dueAt
      return ({ x with readyAt }, some ⟨p.id, priorityClass⟩)

/-- The plan that follows the active one: that of the schedule covering `now`. While the planner
does not respond, the active plan is carried on in it. -/
def nextPlan (x : LineItem) (now : Instant) (plannerResponds : Bool) :
    StateM Spending (Option Plan) := do
  match x.record.scheduleAt? now with
  | none => return none
  | some next =>
    let plan ← Plan.ofSchedule next
    match x.plan, plannerResponds with
    | some previous, false => return some (← plan.mergedWithPrevious previous)
    | _, _ => return some plan

/-- Move on to the next plan once the active plan is over; `none` when nothing changes. -/
def advance? (x : LineItem) (now : Instant) (plannerResponds : Bool) :
    StateM Spending (Option LineItem) := do
  if x.isActiveAt now then return none
  else
    match ← x.nextPlan now plannerResponds, x.plan with
    | none, none => return none
    | none, some _ => return some { x with plan := none, readyAt := none }
    | some plan, _ => return some { x with plan := some plan, readyAt := some (dueAt now) }

end LineItem

end DealPacing
