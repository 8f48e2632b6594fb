import DealPacing.Progress.Window
import DealPacing.Wire.Report

/-!
# Reports on windows

A report lists the statuses of a window in the order of the line item ids. A report on a single
window leaves out line items without a delivery plan in that window; a report on the overall
progress leaves out line items that are not registered, and adds the live pacing state of the
others. Reports can be split into batches of limited size.

## Main definitions

* `Reporter`: who reports, and how many competitors are listed
* `Reporter.report`: the report on a window
* `Reporter.batch`: the report split into several
* `Reporter.snapshot?`: the pacing state of one line item
-/

namespace DealPacing

/-- Who reports, and how many competitors are listed for each line item. -/
structure Reporter where
  hostId : Option String
  region : Option String
  vendor : Option String
  competitors : Nat

/-- A count as a report shows it: counts are 64-bit words. -/
def reportedCount (n : Nat) : Nat := n % Token.wordSize

/-- A plan as it is reported; the spend in all windows is taken from `overall`. -/
def Plan.report (p : Plan) (overall : Option Plan) (s : Spending) : ScheduleReport :=
  let overallTokens := (overall.map (·.tokens)).getD []
  let overallSpent : Plan.ByClass Nat :=
    Std.ExtTreeMap.ofList (overallTokens.map fun t => (t.priorityClass, t.spent s))
  { planId := p.id
    planStart := p.start.formatMillis
    planExpiration := p.finish.formatMillis
    planUpdated := p.updated.formatMillis
    tokens := p.tokens.map fun t =>
      { priorityClass := t.priorityClass
        total := t.total
        spent := t.spent s
        totalSpent := overallSpent[t.priorityClass]? } }

/-- A plan as it is reported before anything is spent. -/
def Plan.unspentReport (p : Plan) : ScheduleReport :=
  { planId := p.id
    planStart := p.start.formatMillis
    planExpiration := p.finish.formatMillis
    planUpdated := p.updated.formatMillis
    tokens := p.tokens.map fun t =>
      { priorityClass := t.priorityClass, total := t.total, spent := 0, totalSpent := none } }

/-- The plans that are reported for a status, in the order of their ids; without any, the active
plan of the line item. -/
def Status.scheduleReports (st : Status) (overall : Option Status) (active : Option Plan)
    (s : Spending) : List ScheduleReport :=
  let plans := st.plans.mergeSort fun p q => p.id ≤ q.id
  if plans.isEmpty then active.toList.map Plan.unspentReport
  else plans.map fun p => p.report (overall.bind (·.plan? p.id)) s

namespace Reporter

/-- The competitors that a line item lost to most often. -/
def lostTo (c : Reporter) (r : Registry) (w : Window) (id : String) : List LostToReport :=
  let counted := (w.competitors id).toList.mergeSort fun a b => b.2 ≤ a.2
  (counted.take c.competitors).map fun (competitor, count) =>
    { lineItemSource := (r.get? competitor).map (·.source)
      lineItemId := competitor
      count := reportedCount count }

/-- The report on a line item's status, unless it is left out. -/
def lineItem? (c : Reporter) (r : Registry) (s : Spending) (w : Window) (overall : Option Window)
    (isOverall : Bool) (st : Status) : Option LineItemReport :=
  let registered := r.get? st.lineItemId
  let active := registered.bind (·.plan)
  let schedules :=
    st.scheduleReports (overall.bind (·.statuses[st.lineItemId]?)) active s
  if (if isOverall then registered.isNone else schedules.isEmpty) then none
  else
    let live := if isOverall then registered else none
    let livePlan := live.bind (·.plan)
    let count (t : Tally) := reportedCount (st.tallies.get t)
    some {
      lineItemId := st.lineItemId
      lineItemSource := st.source <|> registered.map (·.source)
      dealId := st.dealId <|> registered.bind (·.dealId)
      extLineItemId := st.extLineItemId <|> registered.bind (·.record.extLineItemId)
      accountAuctions :=
        (st.accountId <|> registered.map (·.accountId)).bind fun id =>
          (w.accountRequests? id).map reportedCount
      domainMatched := count .domainMatched
      targetMatched := count .targetMatched
      targetMatchedButFcapped := count .targetMatchedButFcapped
      targetMatchedButFcapLookupFailed := count .targetMatchedButFcapLookupFailed
      pacingDeferred := count .pacingDeferred
      sentToBidder := count .sentToBidder
      sentToBidderAsTopMatch := count .sentToBidderAsTopMatch
      receivedFromBidder := count .receivedFromBidder
      receivedFromBidderInvalidated := count .receivedFromBidderInvalidated
      sentToClient := count .sentToClient
      sentToClientAsTopMatch := count .sentToClientAsTopMatch
      lostToLineItems := c.lostTo r w st.lineItemId
      events := st.events.toList.map fun (name, n) => ⟨name, reportedCount n⟩
      deliverySchedule := schedules
      readyAt := (live.bind (·.readyAt)).map Instant.formatMillis
      spentTokens := livePlan.map (·.spentTokens s)
      pacingFrequency := livePlan.bind (·.rate?) }

/-- A report on a window with the given line items. -/
def header (c : Reporter) (reportId : String) (w : Window) (now : Option Instant) (isOverall : Bool)
    (lineItems : List LineItemReport) : ProgressReport :=
  { reportId
    instanceId := c.hostId
    region := c.region
    vendor := c.vendor
    reportTimeStamp := now.map Instant.formatMillis
    windowStart := if isOverall then none else some w.start.formatMillis
    windowEnd := if isOverall then none else w.finish.map Instant.formatMillis
    clientAuctions := reportedCount w.requests
    lineItemStatus := lineItems }

/-- The report on a window. -/
def report (c : Reporter) (r : Registry) (s : Spending) (reportId : String) (w : Window)
    (now : Option Instant) (isOverall : Bool) : ProgressReport :=
  c.header reportId w now isOverall
    (w.statusList.filterMap (c.lineItem? r s w (some w) isOverall))

/-- Cut a list into pieces of a length. -/
def pieces {α : Type} (length : Nat) (xs : List α) : List (List α) :=
  match xs with
  | [] => []
  | x :: rest => (x :: rest.take (length - 1)) :: pieces length (rest.drop (length - 1))
termination_by xs.length
decreasing_by simp only [List.length_drop, List.length_cons]; omega

/-- The reports on a window, each on at most `size` statuses. The spend of plans in all windows is
taken from `overall`. -/
def batch (c : Reporter) (r : Registry) (s : Spending) (reportId : String) (w : Window)
    (overall : Option Window) (now : Option Instant) (size : Nat) (isOverall : Bool) :
    ReportBatch :=
  { reportId
    windowEnd := if isOverall then none else w.finish.map Instant.formatMillis
    reports := (pieces (max size 1) w.statusList).map fun part =>
      c.header reportId w now isOverall
        (part.filterMap (c.lineItem? r s w overall isOverall)) }

/-- What is said about the statuses that a batch leaves out. -/
def unreported (w : Window) (b : ReportBatch) : List Event :=
  let reported := (b.reports.flatMap (·.lineItemStatus)).map (·.lineItemId)
  let left := (w.statusList.map (·.lineItemId)).filter fun id => !reported.contains id
  if left.isEmpty then [] else [.unreported left]

/-- The pacing state of a registered line item. -/
def snapshot? (r : Registry) (s : Spending) (id : String) : Option LineItemSnapshot :=
  (r.get? id).map fun x =>
    { lineItemId := id
      accountId := some x.accountId
      deliverySchedule := x.plan.map (·.report none s)
      readyToServe := x.readyAt
      spentTokens := x.plan.map (·.spentTokens s)
      pacingFrequency := x.plan.bind (·.rate?)
      target := x.record.targeting }

end Reporter

/-- The report with the time at which it is sent. -/
def ProgressReport.stamped (report : ProgressReport) (now : Instant) : ProgressReport :=
  { report with reportTimeStamp := some now.formatMillis }

end DealPacing
