import DealPacing.Auction.Ranking
import DealPacing.Event
import DealPacing.Market.Bidders
import DealPacing.Targeting.Evaluation

/-!
# Matching line items to an impression

A candidate line item competes for an impression when its source can be offered to the bidders and
its targeting holds. It is then held back by the first gate it fails: frequency caps that could not
be looked up, a frequency cap that is reached, no serve left, or a serve that is not due yet. The
candidates that pass are grouped by source. Each group is ranked; the line items in front that were
offered first on an earlier impression are passed over, later line items of a deal are dropped, and
the group is cut to the number of deals per bidder.

## Main definitions

* `AuctionContext`: what is known about an auction
* `Gate`, `gate`: where a matching candidate ends
* `consider`: judge one candidate
* `rankedSelection`: the line items of one source that are offered
* `offers`: the offers of all sources
* `matchLineItems`: match candidates to an impression
-/

namespace DealPacing

open Targeting

/-- What is known about an auction; its log goes on over all its impressions. -/
structure AuctionContext where
  request : BidRequest
  accountId : String
  /-- The frequency caps that the user has reached, unless the look-up failed. -/
  fcapIds : Option (List String)
  ignorePacing : Bool
  log : AuctionLog

/-- Limits and knowledge of the host that matching depends on. -/
structure MatchSettings where
  maxDealsPerBidder : Nat
  catalog : BidderCatalog
  /-- An arrangement of line items that are about to be ranked; it decides between equal ranks. -/
  arrange : List LineItem → List LineItem := id
  /-- An arrangement neither drops line items nor repeats them. -/
  arrange_perm : ∀ xs, (arrange xs).Perm xs := by exact List.Perm.refl

/-- Where a matching candidate ends: at the first gate that it fails, or ready to serve. -/
inductive Gate where
  | lookupFailed
  | capped (fcapId : String)
  | exhausted
  | notReady
  | passed
deriving DecidableEq, Repr

/-- The gate of pacing. -/
def pacingGate (s : Spending) (now : Instant) (x : LineItem) : Gate :=
  if !x.hasUnspentTokens s then .exhausted
  else if !x.isReadyAt now then .notReady
  else .passed

/-- The first gate that a candidate fails. -/
def gate (ctx : AuctionContext) (s : Spending) (now : Instant) (x : LineItem) : Gate :=
  let afterCaps := if ctx.ignorePacing then .passed else pacingGate s now x
  if x.record.fcapIds.isEmpty then afterCaps
  else
    match ctx.fcapIds with
    | none => .lookupFailed
    | some reached =>
      match x.record.fcapIds.find? reached.contains with
      | some fcapId => .capped fcapId
      | none => afterCaps

/-- Record where a matching candidate ended. -/
def AuctionLog.recordGate (log : AuctionLog) (id : String) : Gate → AuctionLog
  | .lookupFailed => { log with fcapLookupFailed := log.fcapLookupFailed.insert id }
  | .capped _ => { log with fcapped := log.fcapped.insert id }
  | .exhausted | .notReady => { log with pacingDeferred := log.pacingDeferred.insert id }
  | .passed => { log with readyToServe := log.readyToServe.insert id }

/-- What is reported about a candidate that fails a gate. -/
def Gate.events (x : LineItem) (now : Instant) : Gate → List Event
  | .lookupFailed => [.fcapLookupFailed x.id x.source]
  | .capped fcapId => [.fcapped x.id x.source fcapId]
  | .exhausted => [.exhausted x.id x.source]
  | .notReady => [.notReady x.id x.source x.readyAt now]
  | .passed => []

/-- The candidates judged so far: the log, those that are ready, and what is reported. -/
structure Judged where
  log : AuctionLog
  ready : List LineItem
  events : List Event

/-- The source of the candidate can be offered to the bidders. -/
def isOffered (aliases : Aliases) (bidders : IdSet) (x : LineItem) : Bool :=
  aliases.inScope x.source bidders

/-- Judge a candidate whose targeting holds. -/
def judgeMatching (ctx : AuctionContext) (s : Spending) (now : Instant) (x : LineItem)
    (j : Judged) : Judged :=
  let g := gate ctx s now x
  let log := { j.log with matchedWhole := j.log.matchedWhole.insert x.id }
  { log := log.recordGate x.id g
    ready := if g = .passed then j.ready ++ [x] else j.ready
    events := j.events ++ g.events x now }

/-- Judge a candidate. -/
def consider (ctx : AuctionContext) (s : Spending) (imp : Impression) (aliases : Aliases)
    (bidders : IdSet) (now : Instant) (j : Judged) (x : LineItem) : Judged :=
  if isOffered aliases bidders x then
    match x.targeting with
    | none => { j with events := j.events ++ [.untargeted x.id] }
    | some targeting =>
      match targeting.evaluate ⟨ctx.request, imp⟩ j.log with
      | (true, log) => judgeMatching ctx s now x { j with log }
      | (false, log) => { j with log }
  else j

/-- Record for each line item the ones ranked ahead of it; the first lost to none. -/
def recordLosses (log : AuctionLog) (ahead : List String) : List LineItem → AuctionLog
  | [] => log
  | x :: rest =>
    let log := if ahead.isEmpty then log else log.recordLostMatchingTo x.id ahead
    recordLosses log (ahead ++ [x.id]) rest

/-- The first line item of each deal; line items without a deal count as one deal. -/
def firstOfEachDeal (seen : List (Option String)) : List LineItem → List LineItem
  | [] => []
  | x :: rest =>
    if seen.contains x.dealId then firstOfEachDeal seen rest
    else x :: firstOfEachDeal (x.dealId :: seen) rest

/-- The line items of one source that are offered, best first. -/
structure Selection where
  offered : List LineItem
  log : AuctionLog
  events : List Event

/-- Rank the ready line items of one source and cut them down to those that are offered. -/
def rankedSelection (settings : MatchSettings) (s : Spending) (imp : Impression) (log : AuctionLog)
    (ready : List LineItem) : Selection :=
  let ranked := (settings.arrange ready).mergeSort (ranksBefore s)
  let repeated := ranked.takeWhile fun x => log.isTopMatch x.id
  let remaining := ranked.drop repeated.length
  let distinct := firstOfEachDeal [] remaining
  { offered := distinct.take settings.maxDealsPerBidder
    log := recordLosses log [] remaining
    events := repeated.map (fun x => .repeatedTopMatch x.id imp.id) ++
      (distinct.drop settings.maxDealsPerBidder).map fun x =>
        .beyondDealLimit x.id settings.maxDealsPerBidder }

/-- Record the line items that are offered to a source, the first of them as top match. -/
def AuctionLog.recordOffer (log : AuctionLog) (source : String) (offered : List LineItem) :
    AuctionLog :=
  match offered with
  | [] => log
  | top :: _ =>
    offered.foldl (fun log x => log.recordSentToBidder source x.id)
      (log.recordSentToBidderAsTopMatch source top.id)

/-- Select from the ready line items of one source and record the offer. -/
def offerSource (settings : MatchSettings) (s : Spending) (imp : Impression)
    (ready : List LineItem) (sofar : Selection) (source : String) : Selection :=
  let chosen := rankedSelection settings s imp sofar.log (ready.filter (·.source == source))
  { offered := sofar.offered ++ chosen.offered
    log := chosen.log.recordOffer source chosen.offered
    events := sofar.events ++ chosen.events }

/-- The sources of line items in ascending order. -/
def sourcesOf (xs : List LineItem) : List String := (IdSet.ofList (xs.map (·.source))).toList

/-- Make an offer to each source of the ready line items, one after the other. -/
def offers (settings : MatchSettings) (s : Spending) (imp : Impression) (ready : List LineItem)
    (sofar : Selection) : Selection :=
  (sourcesOf ready).foldl (offerSource settings s imp ready) sofar

/-- Match candidates to an impression, for all its bidders or for one bidder. -/
def matchLineItems (settings : MatchSettings) (s : Spending) (candidates : List LineItem)
    (ctx : AuctionContext) (imp : Impression) (bidder : Option String) (now : Instant) :
    Selection :=
  let aliases := Aliases.ofRequest ctx.request
  let bidders := match bidder with
    | some bidder => IdSet.ofList [bidder]
    | none => imp.bidders settings.catalog aliases
  let judged :=
    candidates.foldl (consider ctx s imp aliases bidders now) ⟨ctx.log, [], []⟩
  offers settings s imp judged.ready ⟨[], judged.log, judged.events⟩

end DealPacing
