import DealPacing.Progress.Buffer
import DealPacing.Progress.Reporting

/-!
# Delivery progress

Auctions are recorded in the open window. From time to time the window is closed: it is added to the
overall progress and reported, and a new window is opened. The overall progress grows by finished
windows only, and loses what is known about line items that ended long ago.

## Main definitions

* `Progress`: the open window and the overall progress
* `Progress.recordAuction`: spend the serves of an auction and take in its log
* `Progress.trackPlans`: keep the active plans of all line items
* `Progress.rotate`, `Progress.clean`: close the window, and forget old line items
* `Progress.overallReport`: the report on all windows, the open one included
-/

namespace DealPacing

/-- The open window and the overall progress. -/
structure Progress where
  reporter : Reporter
  batchSize : Nat
  /-- Statuses are forgotten this many seconds after their line item ended. -/
  statusTtl : Int
  /-- This many plans are kept for each line item. -/
  keptPlans : Nat
  current : Window
  overall : Window

namespace Progress

/-- Take a serve of a line item and note the class it came from. -/
def serve (sofar : Registry × IdMap Int) (id : String) :
    StateM Spending (Registry × IdMap Int) := do
  let (r, classes) := sofar
  match ← r.spend id with
  | (r, some spent) => return (r, classes.insert spent.planId spent.priorityClass)
  | (r, none) => return (r, classes)

/-- Take in a finished auction: every line item that the client took as its first choice spends a
serve, and the log goes to the open window. -/
def recordAuction (p : Progress) (r : Registry) (log : AuctionLog) (accountId : String) :
    StateM Spending (Registry × Progress) := do
  let (r, classes) ← log.sentToClientAsTopMatch.toList.foldlM serve (r, ∅)
  let current ← p.current.recordAuction r log classes accountId
  return (r, { p with current })

/-- Take in that a line item won. -/
def recordWin (p : Progress) (r : Registry) (id : String) : Progress :=
  { p with current := p.current.recordWin r id }

/-- Keep the active plan of a line item in both windows. -/
def trackPlan (r : Registry) (p : Progress) (x : LineItem) : StateM Spending Progress := do
  let overall ← p.overall.trackPlan r x
  let current ← p.current.trackPlan r x
  return { p with overall, current }

/-- Keep the active plans of all line items. -/
def trackPlans (p : Progress) (r : Registry) : StateM Spending Progress :=
  r.toList.foldlM (trackPlan r) p

/-- Close the open window, add it to the overall progress, and report on it. -/
def rotate (p : Progress) (r : Registry) (reportId : String) (now : Instant) :
    StateM Spending (Progress × ReportBatch × List Event) := do
  let finished := p.current.close now
  let overall ← p.overall.merge r finished
  let batch :=
    p.reporter.batch r (← get) reportId finished (some overall) none p.batchSize false
  let events := Reporter.unreported finished batch ++
    [.windowClosed batch.reports.length finished.requests,
      .overallUpdated finished.statuses.size]
  return ({ p with overall, current := Window.opened now }, batch, events)

/-- Forget line items that ended long ago. -/
def clean (p : Progress) (r : Registry) (now : Instant) : Progress :=
  { p with overall := p.overall.clean r now p.statusTtl p.keptPlans }

/-- The report on all windows, the open one included. -/
def overallReport (p : Progress) (r : Registry) (s : Spending) (reportId : String)
    (now : Instant) : ProgressReport :=
  let (overall, s) := (p.overall.merge r p.current).run s
  p.reporter.report r s reportId overall (some now) true

/-- Forget line items, or all of them. -/
def forget (p : Progress) : Option (List String) → Progress
  | some ids => { p with current := p.current.forget ids, overall := p.overall.forget ids }
  | none => { p with current := p.current.forgetAll, overall := p.overall.forgetAll }

end Progress

end DealPacing
