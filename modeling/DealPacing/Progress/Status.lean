import DealPacing.Auction.Log
import DealPacing.Delivery.LineItem

/-!
# The delivery status of a line item

A reporting window keeps a status for every line item that something happened to: tallies of what
happened in auctions, counts of events, and copies of the delivery plans that were active. The
identity of the line item is taken down when the status is made, so that it is still known when the
line item is gone.

## Main definitions

* `Tally`: what is counted in auctions
* `Status`: the status of a line item
* `Status.mergePlan`, `Status.planOrInsert`: keep a plan in a status
* `Status.merge`: add another status
* `Status.retainLatest`: keep the plans that end last
-/

namespace DealPacing

/-- Something that is counted per line item and auction. -/
inductive Tally where
  | domainMatched
  | targetMatched
  | targetMatchedButFcapped
  | targetMatchedButFcapLookupFailed
  | pacingDeferred
  | sentToBidder
  | sentToBidderAsTopMatch
  | receivedFromBidder
  | receivedFromBidderInvalidated
  | sentToClient
  | sentToClientAsTopMatch
deriving DecidableEq, Repr

namespace Tally

/-- All tallies. -/
def all : List Tally := [
  .domainMatched, .targetMatched, .targetMatchedButFcapped, .targetMatchedButFcapLookupFailed,
  .pacingDeferred, .sentToBidder, .sentToBidderAsTopMatch, .receivedFromBidder,
  .receivedFromBidderInvalidated, .sentToClient, .sentToClientAsTopMatch]

/-- The place of a tally among all. -/
def index : Tally → Fin 11
  | .domainMatched => 0
  | .targetMatched => 1
  | .targetMatchedButFcapped => 2
  | .targetMatchedButFcapLookupFailed => 3
  | .pacingDeferred => 4
  | .sentToBidder => 5
  | .sentToBidderAsTopMatch => 6
  | .receivedFromBidder => 7
  | .receivedFromBidderInvalidated => 8
  | .sentToClient => 9
  | .sentToClientAsTopMatch => 10

theorem index_injective {t u : Tally} (h : t.index = u.index) : t = u := by
  revert h; cases t <;> cases u <;> decide

/-- The name of a tally. -/
def name : Tally → String
  | .domainMatched => "DomainMatched"
  | .targetMatched => "TargetMatched"
  | .targetMatchedButFcapped => "TargetMatchedButFcapped"
  | .targetMatchedButFcapLookupFailed => "TargetMatchedButFcapLookupFailed"
  | .pacingDeferred => "PacingDeferred"
  | .sentToBidder => "SentToBidder"
  | .sentToBidderAsTopMatch => "SentToBidderAsTopMatch"
  | .receivedFromBidder => "ReceivedFromBidder"
  | .receivedFromBidderInvalidated => "ReceivedFromBidderInvalidated"
  | .sentToClient => "SentToClient"
  | .sentToClientAsTopMatch => "SentToClientAsTopMatch"

/-- The tally with a name. -/
def ofName? (name : String) : Option Tally := all.find? (·.name == name)

end Tally

/-- The counts of all tallies. -/
structure Tallies where
  counts : Vector Nat 11
deriving DecidableEq, Repr

namespace Tallies

/-- Nothing counted. -/
def zero : Tallies := ⟨Vector.replicate 11 0⟩

/-- The count of a tally. -/
def get (ts : Tallies) (t : Tally) : Nat := ts.counts[t.index]

/-- Add to a tally. -/
def add (ts : Tallies) (t : Tally) (n : Nat) : Tallies :=
  ⟨ts.counts.set t.index (ts.get t + n)⟩

/-- Add all counts of another list of tallies. -/
def merge (ts other : Tallies) : Tallies := ⟨Vector.zipWith (· + ·) ts.counts other.counts⟩

theorem get_zero (t : Tally) : zero.get t = 0 := by simp [zero, get]

theorem get_add (ts : Tallies) (t u : Tally) (n : Nat) :
    (ts.add t n).get u = ts.get u + if t = u then n else 0 := by
  by_cases h : t = u
  · subst h; simp [add, get]
  · have : (t.index : Nat) ≠ u.index := fun e => h (Tally.index_injective (Fin.ext e))
    simp [add, get, h, this]

theorem get_merge (ts other : Tallies) (t : Tally) :
    (ts.merge other).get t = ts.get t + other.get t := by simp [merge, get]

end Tallies

/-- Counts by name. -/
abbrev Histogram := IdMap Nat

namespace Histogram

/-- Add to the count of a name. -/
def addTo (h : Histogram) (name : String) (n : Nat) : Histogram := h.insert name (h.getD name 0 + n)

/-- Add all counts of another histogram. -/
def merge (h other : Histogram) : Histogram :=
  other.toList.foldl (fun h entry => Histogram.addTo h entry.1 entry.2) h

end Histogram

/-- The event of winning an auction. -/
def winEvent : String := "win"

/-- The status of a line item in a reporting window. -/
structure Status where
  lineItemId : String
  source : Option String
  dealId : Option String
  extLineItemId : Option String
  accountId : Option String
  tallies : Tallies
  events : Histogram
  plans : List Plan

namespace Status

/-- The status of a line item that is not registered. -/
def new (id : String) : Status := ⟨id, none, none, none, none, .zero, ∅, []⟩

/-- The status of a registered line item. -/
def ofLineItem (x : LineItem) : Status :=
  { new x.id with
    source := some x.source
    dealId := x.dealId
    extLineItemId := x.record.extLineItemId
    accountId := some x.accountId }

/-- Add to a tally. -/
def add (st : Status) (t : Tally) (n : Nat) : Status := { st with tallies := st.tallies.add t n }

/-- Count an event. -/
def recordEvent (st : Status) (name : String) : Status :=
  { st with events := Histogram.addTo st.events name 1 }

/-- How often an event happened. -/
def eventCount (st : Status) (name : String) : Nat := st.events.getD name 0

/-- The plan with an id. -/
def plan? (st : Status) (planId : String) : Option Plan := st.plans.find? (·.id == planId)

/-- The plan with an id; without one the plan that `make` yields is kept and returned. -/
def planOrInsert (st : Status) (planId : String) (make : StateM Spending Plan) :
    StateM Spending (Status × Plan) := do
  match st.plan? planId with
  | some p => return (st, p)
  | none =>
    let p ← make
    return ({ st with plans := st.plans ++ [p] }, p)

/-- Replace the first plan with the id of `p`, or keep the plan that `absent` yields. -/
def updatePlans (p : Plan) (present : Plan → StateM Spending Plan) (absent : StateM Spending Plan) :
    List Plan → StateM Spending (List Plan)
  | [] => return [← absent]
  | q :: rest => do
    if q.id = p.id then return (← present q) :: rest
    else return q :: (← updatePlans p present absent rest)

/-- Keep a plan: a new one without its spend, a newer revision of a kept one with the spend counted
so far. -/
def mergePlan (st : Status) (p : Plan) : StateM Spending Status := do
  let plans ← updatePlans p
    (fun q => if q.isSupersededBy p then q.withScheduleOf p else pure q) p.withoutSpent st.plans
  return { st with plans }

/-- Add the spend of a plan to the kept ones. -/
def addPlan (plans : List Plan) (p : Plan) : StateM Spending (List Plan) :=
  updatePlans p (fun q => q.mergedSpentWith p) p.clone plans

/-- Add the tallies, events and plans of another status. -/
def merge (st other : Status) : StateM Spending Status := do
  let plans ← other.plans.foldlM addPlan st.plans
  return {
    st with
    tallies := st.tallies.merge other.tallies
    events := Histogram.merge st.events other.events
    plans }

/-- Count a serve of a class of a plan; `none` when the plan is not kept. -/
def recordSpent (st : Status) (planId : String) (priorityClass : Int) :
    StateM Spending (Option Bool) := do
  match st.plan? planId with
  | some p => return some (← p.recordSpent priorityClass)
  | none => return none

/-- Keep at most `limit` plans, those that end last. -/
def retainLatest (st : Status) (limit : Nat) : Status :=
  if st.plans.length ≤ limit then st
  else { st with plans := (st.plans.mergeSort fun p q => q.finish ≤ p.finish).take limit }

end Status

end DealPacing
