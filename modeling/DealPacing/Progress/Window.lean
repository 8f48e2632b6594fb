import DealPacing.Progress.Status
import DealPacing.Registry

/-!
# Reporting windows

A reporting window counts auctions, by account and in all, and keeps the statuses of line items and
how often they lost to which competitors. A finished window is added to the overall progress, which
is a window as well.

## Main definitions

* `Window`: reporting windows
* `Window.recordAuction`: take in the log of an auction
* `Window.recordWin`, `Window.trackPlan`: take in a win, and a line item's active plan
* `Window.merge`: add another window
* `Window.clean`: drop what is known about line items that ended
-/

namespace DealPacing

/-- A reporting window. -/
structure Window where
  start : Instant
  finish : Option Instant
  requests : Nat
  accounts : Histogram
  statuses : IdMap Status
  /-- How often each line item lost to each competitor. -/
  lostTo : IdMap Histogram

namespace Window

/-- A window that opens at an instant. -/
def opened (start : Instant) : Window := ⟨start, none, 0, ∅, ∅, ∅⟩

/-- Close the window, unless it is closed already. -/
def close (w : Window) (now : Instant) : Window := { w with finish := w.finish <|> some now }

/-- The number of auctions of an account. -/
def accountRequests? (w : Window) (accountId : String) : Option Nat := w.accounts[accountId]?

/-- The statuses in the order of the line item ids. -/
def statusList (w : Window) : List Status := w.statuses.toList.map Prod.snd

/-- The competitors that a line item lost to. -/
def competitors (w : Window) (id : String) : Histogram := w.lostTo.getD id ∅

/-- The status of a line item; one that is made now takes the identity from the registry. -/
def status (w : Window) (r : Registry) (id : String) : Status :=
  match w.statuses[id]? with
  | some st => st
  | none => ((r.get? id).map Status.ofLineItem).getD (Status.new id)

/-- Keep a status. -/
def putStatus (w : Window) (id : String) (st : Status) : Window :=
  { w with statuses := w.statuses.insert id st }

/-- Add one to a tally of a line item. -/
def count (r : Registry) (t : Tally) (w : Window) (id : String) : Window :=
  w.putStatus id ((w.status r id).add t 1)

/-- Add one to a tally of every line item in a set. -/
def countAll (r : Registry) (w : Window) (entry : IdSet × Tally) : Window :=
  entry.1.toList.foldl (count r entry.2) w

/-- The sets of a log with the tallies they count for. -/
def tallySets (log : AuctionLog) : List (IdSet × Tally) := [
  (log.sentToClientAsTopMatch, .sentToClientAsTopMatch),
  (log.sentToClient, .sentToClient),
  (log.matchedDomain, .domainMatched),
  (log.matchedWhole, .targetMatched),
  (log.fcapped, .targetMatchedButFcapped),
  (log.fcapLookupFailed, .targetMatchedButFcapLookupFailed),
  (log.pacingDeferred, .pacingDeferred),
  (log.responseInvalidated, .receivedFromBidderInvalidated)]

/-- The sets of each source of a log with the tallies they count for. -/
def tallySourceSets (log : AuctionLog) : List (IdSet × Tally) :=
  let sets (m : IdMap IdSet) (t : Tally) := m.toList.map fun entry => (entry.2, t)
  sets log.sentToBidder .sentToBidder ++
    sets log.sentToBidderAsTopMatch .sentToBidderAsTopMatch ++
    sets log.receivedFromBidder .receivedFromBidder

/-- Count a serve of a line item in the window's copy of its active plan. -/
def recordServe (r : Registry) (classes : IdMap Int) (w : Window) (id : String) :
    StateM Spending Window := do
  match (r.get? id).bind (·.plan) with
  | none => return w
  | some active =>
    let (st, p) ← (w.status r id).planOrInsert active.id active.withoutSpent
    match classes[p.id]? with
    | some priorityClass =>
      let _ ← p.recordSpent priorityClass
      return w.putStatus id st
    | none => return w.putStatus id st

/-- Count the competitors that a line item lost to. -/
def recordLosses (w : Window) (entry : String × IdSet) : Window :=
  let counted := entry.2.toList.foldl (fun h id => Histogram.addTo h id 1) (w.competitors entry.1)
  { w with lostTo := w.lostTo.insert entry.1 counted }

/-- Take in the log of an auction of an account. `classes` gives the class that each plan spent for
the serves in the log. -/
def recordAuction (w : Window) (r : Registry) (log : AuctionLog) (classes : IdMap Int)
    (accountId : String) : StateM Spending Window := do
  let w := {
    w with
    requests := w.requests + 1
    accounts := Histogram.addTo w.accounts accountId 1 }
  let w := (tallySets log ++ tallySourceSets log).foldl (countAll r) w
  let w ← log.sentToClientAsTopMatch.toList.foldlM (recordServe r classes) w
  return (log.lostMatchingTo.toList ++ log.lostAuctionTo.toList).foldl recordLosses w

/-- Take in that a line item won. -/
def recordWin (w : Window) (r : Registry) (id : String) : Window :=
  w.putStatus id ((w.status r id).recordEvent winEvent)

/-- Keep the active plan of a line item. -/
def trackPlan (w : Window) (r : Registry) (x : LineItem) : StateM Spending Window := do
  match x.plan with
  | none => return w
  | some p => return w.putStatus x.id (← (w.status r x.id).mergePlan p)

/-- Add a status of another window. -/
def mergeStatus (r : Registry) (w : Window) (st : Status) : StateM Spending Window := do
  return w.putStatus st.lineItemId (← (w.status r st.lineItemId).merge st)

/-- Add everything that another window holds. -/
def merge (w : Window) (r : Registry) (other : Window) : StateM Spending Window := do
  let w := {
    w with
    requests := w.requests + other.requests
    accounts := Histogram.merge w.accounts other.accounts }
  let w ← other.statusList.foldlM (mergeStatus r) w
  return {
    w with
    lostTo := other.lostTo.toList.foldl
      (fun m entry => m.insert entry.1 (Histogram.merge (m.getD entry.1 ∅) entry.2)) w.lostTo }

/-- The line item is registered and did not end more than `ttl` seconds ago. -/
def isCurrent (r : Registry) (now : Instant) (ttl : Int) (id : String) : Bool :=
  match r.get? id with
  | some x => now.nanosSince x.record.finish ≤ ttl * 1000000000
  | none => false

/-- Drop the statuses of line items that are not registered or ended more than `ttl` seconds ago,
and all but the latest plans of the others. -/
def clean (w : Window) (r : Registry) (now : Instant) (ttl : Int) (plans : Nat) : Window :=
  let kept := w.statuses.filter fun id _ => isCurrent r now ttl id
  { w with statuses := kept.map fun _ st => st.retainLatest plans }

/-- Forget line items. -/
def forget (w : Window) (ids : List String) : Window :=
  { w with
    statuses := ids.foldl (·.erase ·) w.statuses
    lostTo := ids.foldl (·.erase ·) w.lostTo }

/-- Forget all line items. -/
def forgetAll (w : Window) : Window := { w with statuses := ∅, lostTo := ∅ }

end Window

end DealPacing
