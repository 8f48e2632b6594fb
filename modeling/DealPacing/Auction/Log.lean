import DealPacing.Json.Basic
import Std.Data.ExtTreeMap
import Std.Data.ExtTreeSet

/-!
# Auction logs

The log of one auction records what happened to each line item while its impressions were matched
and its bids came in. Logs are sets of line item ids, so an auction counts a line item at most once
under each heading, however many impressions it has.

## Main definitions

* `IdSet`, `IdMap`: finite sets of ids, and finite maps from ids
* `AuctionLog`: the log of an auction
* `AuctionLog.record…`: the entries of the log
* `AuctionLog.isTopMatch`: a line item was already offered first to some bidder
* `AuctionLog.encode`: the log as an object
-/

namespace DealPacing

/-- A finite set of ids. -/
abbrev IdSet := Std.ExtTreeSet String

/-- A finite map from ids. -/
abbrev IdMap (α : Type) := Std.ExtTreeMap String α

/-- The log of an auction. -/
structure AuctionLog where
  /-- Line items with a matching test of the site's domain. -/
  matchedDomain : IdSet := ∅
  /-- Line items whose whole targeting matched. -/
  matchedWhole : IdSet := ∅
  /-- Matched line items with a frequency cap that the user has reached. -/
  fcapped : IdSet := ∅
  /-- Matched line items whose frequency caps could not be looked up. -/
  fcapLookupFailed : IdSet := ∅
  /-- Matched line items held back by pacing. -/
  pacingDeferred : IdSet := ∅
  /-- Matched line items that passed every gate. -/
  readyToServe : IdSet := ∅
  /-- Line items sent to the client. -/
  sentToClient : IdSet := ∅
  /-- Line items sent to the client as its first choice. -/
  sentToClientAsTopMatch : IdSet := ∅
  /-- Line items whose bids were rejected. -/
  responseInvalidated : IdSet := ∅
  /-- Line items offered to a bidder, by source. -/
  sentToBidder : IdMap IdSet := ∅
  /-- Line items offered to a bidder first, by source. -/
  sentToBidderAsTopMatch : IdMap IdSet := ∅
  /-- Line items that a bidder answered with, by source. -/
  receivedFromBidder : IdMap IdSet := ∅
  /-- The line items ranked ahead of a line item when an impression was matched. -/
  lostMatchingTo : IdMap IdSet := ∅
  /-- The line items that beat a line item in the auction. -/
  lostAuctionTo : IdMap IdSet := ∅

/-- The set of the ids in a list. -/
def IdSet.ofList (ids : List String) : IdSet := Std.ExtTreeSet.ofList ids

/-- Add an id to the set under a key. -/
def IdMap.addTo (m : IdMap IdSet) (key id : String) : IdMap IdSet :=
  m.insert key ((m.getD key ∅).insert id)

/-- Add the ids of a list to the set under a key. -/
def IdMap.addAllTo (m : IdMap IdSet) (key : String) (ids : List String) : IdMap IdSet :=
  m.insert key (ids.foldl (·.insert ·) (m.getD key ∅))

namespace AuctionLog

/-- A log without entries. -/
def empty : AuctionLog := {}

instance : Inhabited AuctionLog := ⟨empty⟩

/-- Record that a line item was offered to the bidder of its source. -/
def recordSentToBidder (log : AuctionLog) (source id : String) : AuctionLog :=
  { log with sentToBidder := log.sentToBidder.addTo source id }

/-- Record that a line item was offered first to the bidder of its source. -/
def recordSentToBidderAsTopMatch (log : AuctionLog) (source id : String) : AuctionLog :=
  { log with sentToBidderAsTopMatch := log.sentToBidderAsTopMatch.addTo source id }

/-- Record that a bidder answered with a line item. -/
def recordReceivedFromBidder (log : AuctionLog) (source id : String) : AuctionLog :=
  { log with receivedFromBidder := log.receivedFromBidder.addTo source id }

/-- Record the line items ranked ahead of a line item, in place of those recorded before. -/
def recordLostMatchingTo (log : AuctionLog) (id : String) (winners : List String) : AuctionLog :=
  { log with lostMatchingTo := log.lostMatchingTo.insert id (IdSet.ofList winners) }

/-- Record line items that beat a line item, beside those recorded before. -/
def recordLostAuctionTo (log : AuctionLog) (id : String) (winners : List String) : AuctionLog :=
  { log with lostAuctionTo := log.lostAuctionTo.addAllTo id winners }

/-- The line item was offered first to some bidder on an earlier impression. -/
def isTopMatch (log : AuctionLog) (id : String) : Bool :=
  log.sentToBidderAsTopMatch.toList.any fun entry => entry.2.contains id

/-- The ids of a set in ascending order. -/
def encodeIds (ids : IdSet) : Json := .arr (ids.toList.map .str)

/-- A heading of a log that has entries. -/
def heading (name : String) (ids : IdSet) : List (String × Json) :=
  if ids.isEmpty then [] else [(name, encodeIds ids)]

/-- A heading of a log whose entries are grouped, if it has any group. -/
def groupedHeading (name : String) (groups : IdMap IdSet) : List (String × Json) :=
  if groups.isEmpty then []
  else [(name, .obj (groups.toList.map fun (key, ids) => (key, encodeIds ids)))]

/-- The headings of a log that have entries. -/
def encode (log : AuctionLog) : Json := .obj <|
  heading "line_items_matched_domain_targeting" log.matchedDomain ++
  heading "line_items_matched_whole_targeting" log.matchedWhole ++
  heading "line_items_matched_targeting_fcapped" log.fcapped ++
  heading "line_items_matched_targeting_fcap_lookup_failed" log.fcapLookupFailed ++
  heading "line_items_pacing_deferred" log.pacingDeferred ++
  heading "line_items_ready_to_serve" log.readyToServe ++
  heading "line_items_sent_to_client" log.sentToClient ++
  heading "line_items_sent_to_client_as_top_match" log.sentToClientAsTopMatch ++
  heading "line_items_response_invalidated" log.responseInvalidated ++
  groupedHeading "line_items_sent_to_bidder" log.sentToBidder ++
  groupedHeading "line_items_sent_to_bidder_as_top_match" log.sentToBidderAsTopMatch ++
  groupedHeading "line_items_received_from_bidder" log.receivedFromBidder ++
  groupedHeading "lost_matching_to_line_items" log.lostMatchingTo ++
  groupedHeading "lost_auction_to_line_items" log.lostAuctionTo

end AuctionLog

end DealPacing
