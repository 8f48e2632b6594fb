import DealPacing.Config
import DealPacing.Progress.Tracker

/-!
# The engine

The engine ties the registry of line items, their spend counters, the delivery progress and the
report buffer together. Every operation yields the engine that results from it and what it reports.

## Main definitions

* `Engine`, `Engine.start`: the engine, and the engine of a configuration
* `Engine.update`, `Engine.receive?`, `Engine.advance`: planner responses and plan changes
* `Engine.findMatching`, `Engine.recordAuction`: matching and finished auctions
* `Engine.rotate`, `Engine.shutDown`: reports on finished windows
* `Engine.pace`: the periodic work
-/

namespace DealPacing

/-- The engine. -/
structure Engine where
  settings : MatchSettings
  pricing : Pricing
  registry : Registry
  spending : Spending
  progress : Progress
  buffer : ReportBuffer ReportBatch
  /-- The number of reports made so far, which names the next one. -/
  reports : Nat

/-- An engine and what it reports. -/
abbrev Engine.Outcome := Engine × List Event

namespace Engine

/-- The engine of a configuration, whose first window opens at `now`. Line items of equal rank are
arranged anew for every call; that they stay in their order is one of the ways. -/
def start (c : Config) (now : Instant) : Engine :=
  { settings :=
      { maxDealsPerBidder := c.maxDealsPerBidder
        catalog := ⟨IdSet.ofList c.bidders, IdSet.ofList c.deprecatedBidders⟩ }
    pricing := ⟨c.adServerCurrency, Rates.ofList c.adServerCurrency c.currencyRates⟩
    registry := Registry.empty
    spending := Spending.empty
    progress :=
      { reporter := ⟨c.hostId, c.region, c.vendor, c.competitorsNumber⟩
        batchSize := c.reportBatchSize
        statusTtl := c.lineItemStatusTtlSecs
        keptPlans := c.cachedPlansNumber
        current := Window.opened now
        overall := Window.opened now }
    buffer := ReportBuffer.new c.reportBufferCapacity
    reports := 0 }

/-- The id of the next report. -/
def nextReportId (e : Engine) : String := "report-" ++ Nat.repr e.reports

/-- Apply a response of the planner. -/
def update (e : Engine) (records : List LineItemRecord) (plannerResponds : Bool) (now : Instant) :
    Outcome :=
  let ((registry, events), spending) :=
    (e.registry.update e.pricing records plannerResponds now).run e.spending
  ({ e with registry, spending }, events)

/-- Apply a response of the planner that comes as text; `none` when the text is not a JSON array.
Elements that are no records are reported and passed over. -/
def receive? (e : Engine) (response : String) (plannerResponds : Bool) (now : Instant) :
    Option Outcome := do
  let (records, undecodable) ← LineItemRecord.decodeAll response
  let (e, events) := e.update records plannerResponds now
  return (e, undecodable.map .undecodableRecord ++ events)

/-- Note whether the planner responds. -/
def setPlannerResponds (e : Engine) (plannerResponds : Bool) : Engine :=
  { e with registry := { e.registry with plannerResponds } }

/-- Move line items on to their next plans. -/
def advance (e : Engine) (now : Instant) : Outcome :=
  let ((registry, events), spending) := (e.registry.advance now).run e.spending
  ({ e with registry, spending }, events)

/-- Remove line items, or all of them. -/
def removeLineItems (e : Engine) (ids : Option (List String)) : Outcome :=
  match ids with
  | some ids => ({ e with registry := e.registry.eraseAll ids }, [.removed ids])
  | none =>
    let ids := e.registry.ids
    ({ e with registry := e.registry.eraseAll ids }, [.removed ids])

/-- Take a serve of a line item. -/
def spend (e : Engine) (id : String) : Engine × Option TokenSpend :=
  let ((registry, spent), spending) := (e.registry.spend id).run e.spending
  ({ e with registry, spending }, spent)

/-- Match the line items of an auction's account to an impression. -/
def findMatching (e : Engine) (ctx : AuctionContext) (imp : Impression) (bidder : Option String)
    (now : Instant) : Selection :=
  e.registry.findMatching e.settings e.spending ctx imp bidder now

/-- Take in a finished auction. -/
def recordAuction (e : Engine) (log : AuctionLog) (accountId : String) : Engine :=
  let ((registry, progress), spending) :=
    (e.progress.recordAuction e.registry log accountId).run e.spending
  { e with registry, progress, spending }

/-- Take in that a line item won. -/
def recordWin (e : Engine) (id : String) : Engine :=
  { e with progress := e.progress.recordWin e.registry id }

/-- Keep the active plans of all line items in the progress. -/
def trackPlans (e : Engine) : Engine :=
  let (progress, spending) := (e.progress.trackPlans e.registry).run e.spending
  { e with progress, spending }

/-- Close the open window and hand its reports over. -/
def handOver (e : Engine) (now : Instant) : Outcome :=
  let ((progress, batch, events), spending) :=
    (e.progress.rotate e.registry e.nextReportId now).run e.spending
  let (buffer, dropped) := e.buffer.accept batch
  ({ e with progress, spending, buffer, reports := e.reports + 1 }, events ++ dropped)

/-- Close the open window, hand its reports over, and forget line items that ended long ago. -/
def rotate (e : Engine) (now : Instant) : Outcome :=
  let (e, events) := e.handOver now
  ({ e with progress := e.progress.clean e.registry now }, events)

/-- Hand the reports on the open window over for the last time. -/
def shutDown (e : Engine) (now : Instant) : Outcome :=
  let (e, events) := e.handOver now
  (e, events ++ [.flushed])

/-- The report on all windows, the open one included. -/
def overallReport (e : Engine) (now : Instant) : ProgressReport :=
  e.progress.overallReport e.registry e.spending e.nextReportId now

/-- The pacing state of a registered line item. -/
def snapshot? (e : Engine) (id : String) : Option LineItemSnapshot :=
  Reporter.snapshot? e.registry e.spending id

/-- Forget the progress of line items, or of all of them. -/
def forgetProgress (e : Engine) (ids : Option (List String)) : Engine :=
  { e with progress := e.progress.forget ids }

/-- Do the periodic work that is due: move line items on to their next plans, and rotate. -/
def pace (e : Engine) (advanceIsDue reportIsDue : Bool) (now : Instant) : Outcome :=
  let (e, events) :=
    if advanceIsDue then
      let (e, events) := e.advance now
      (e.trackPlans, events)
    else (e, [])
  if reportIsDue then
    let (e, more) := e.rotate now
    (e, events ++ more)
  else (e, events)

end Engine

end DealPacing
