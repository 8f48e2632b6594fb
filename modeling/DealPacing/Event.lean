import DealPacing.Market.Currency
import DealPacing.Time.Rfc3339

/-!
# Events

The engine reports what it does as events, each with a level, the part of the engine it comes from,
a message, and fields that name the line items and values concerned.

## Main definitions

* `RecordError`: why a line item record is refused
* `BufferError`: why a report buffer refuses a batch or has none
* `Event`: everything that is reported
* `Event.entry`: the level, origin, message and fields of an event
-/

namespace DealPacing

/-- Why a line item record is refused. -/
inductive RecordError where
  | emptyId
  | missingAccount (id : String)
  | missingSource (id : String)
  | invalidWindow (id : String)
  | currency (id : String) (cause : CurrencyError)

/-- The text of an error. -/
def RecordError.message : RecordError → String
  | .emptyId => "Line item id is empty"
  | .missingAccount id => "Line item " ++ id ++ " has no account id"
  | .missingSource id => "Line item " ++ id ++ " has no source"
  | .invalidWindow id => "Line item " ++ id ++ " ends before it starts"
  | .currency id cause => "Line item " ++ id ++ " price could not be converted: " ++ cause.message

/-- Why a report buffer refuses a batch or has none. -/
inductive BufferError where
  | full
  | empty
  | disconnected
deriving DecidableEq, Repr

/-- The text of an error. -/
def BufferError.message : BufferError → String
  | .full => "Report buffer is full"
  | .empty => "Report buffer is empty"
  | .disconnected => "Report buffer disconnected"

/-- Something that the engine reports. -/
inductive Event where
  /-- A candidate has no targeting. -/
  | untargeted (id : String)
  /-- A candidate was already offered first on another impression. -/
  | repeatedTopMatch (id impId : String)
  /-- A candidate exceeds the number of deals per bidder. -/
  | beyondDealLimit (id : String) (limit : Nat)
  /-- The frequency caps of a candidate could not be looked up. -/
  | fcapLookupFailed (id source : String)
  /-- The user has reached a frequency cap of a candidate. -/
  | fcapped (id source fcapId : String)
  /-- A candidate has no serve left. -/
  | exhausted (id source : String)
  /-- The next serve of a candidate is not due yet. -/
  | notReady (id source : String) (readyAt : Option Instant) (now : Instant)
  /-- A line item moved on to its next plan. -/
  | advanced (id : String) (planId : Option String)
  /-- An account has no line items. -/
  | noLineItems (accountId : String)
  /-- A record was refused. -/
  | malformedRecord (error : RecordError)
  /-- Line items ended or became inactive. -/
  | dropped (ids : List String)
  /-- A line item was registered. -/
  | registered (id accountId source : String)
  /-- Line items were removed on request. -/
  | removed (ids : List String)
  /-- An element of a planner response is no record. -/
  | undecodableRecord (index : Nat)
  /-- A record has no targeting definition. -/
  | missingTargeting (id : String)
  /-- The targeting definition of a record is malformed. -/
  | malformedTargeting (id accountId source error : String)
  /-- The last window was handed over. -/
  | flushed
  /-- A window was closed. -/
  | windowClosed (reports auctions : Nat)
  /-- The overall progress took in a window. -/
  | overallUpdated (lineItems : Nat)
  /-- A batch of reports found no room. -/
  | batchDropped (error : BufferError)
  /-- Line items of a window have nothing to report. -/
  | unreported (ids : List String)

/-- How much attention an event wants. -/
inductive Level where
  | debug
  | info
  | warn
deriving DecidableEq, Repr

/-- The name of a level. -/
def Level.name : Level → String
  | .debug => "DEBUG"
  | .info => "INFO"
  | .warn => "WARN"

/-- An event as it is written. -/
structure LogEntry where
  level : Level
  origin : String
  message : String
  fields : List (String × String)
deriving DecidableEq, Repr

/-- Ids as one text. -/
def joinIds (ids : List String) : String := ", ".intercalate ids

/-- An event as it is written; the fields are sorted by name. -/
def Event.entry : Event → LogEntry
  | .untargeted id =>
    ⟨.debug, "matcher", "Line item targeting was not defined or has incorrect format",
      [("line_item_id", id)]⟩
  | .repeatedTopMatch id impId =>
    ⟨.debug, "matcher", "Line item dropped because it was top match in another imp",
      [("imp_id", impId), ("line_item_id", id)]⟩
  | .beyondDealLimit id limit =>
    ⟨.debug, "matcher", "Line item dropped by max deals per bidder limit",
      [("line_item_id", id), ("max_deals_per_bidder", Nat.repr limit)]⟩
  | .fcapLookupFailed id source =>
    ⟨.debug, "matcher",
      "Failed to match fcap for line item because of bad response from user data service",
      [("line_item_id", id), ("source", source)]⟩
  | .fcapped id source fcapId =>
    ⟨.debug, "matcher", "Matched line item is frequency capped",
      [("fcap_id", fcapId), ("line_item_id", id), ("source", source)]⟩
  | .exhausted id source =>
    ⟨.debug, "matcher", "Matched line item does not have unspent tokens to be served",
      [("line_item_id", id), ("source", source)]⟩
  | .notReady id source readyAt now =>
    ⟨.debug, "matcher", "Matched line item not ready to serve",
      [("line_item_id", id), ("now", now.formatMillis),
        ("ready_at", (readyAt.map Instant.formatMillis).getD "never"), ("source", source)]⟩
  | .advanced id planId =>
    ⟨.debug, "line_item", "Advanced to next delivery plan",
      [("line_item_id", id), ("plan_id", planId.getD "")]⟩
  | .noLineItems accountId =>
    ⟨.debug, "line_item_service", "There are no line items for account",
      [("account_id", accountId)]⟩
  | .malformedRecord error =>
    ⟨.warn, "line_item_service", "Skipping malformed line item record",
      [("error", error.message)]⟩
  | .dropped ids =>
    ⟨.info, "line_item_service", "Line items were dropped as expired or inactive",
      [("line_item_ids", joinIds ids)]⟩
  | .registered id accountId source =>
    ⟨.info, "line_item_service", "Line item registered",
      [("account_id", accountId), ("line_item_id", id), ("source", source)]⟩
  | .removed ids =>
    ⟨.info, "line_item_service", "Line items were removed", [("line_item_ids", joinIds ids)]⟩
  | .undecodableRecord index =>
    ⟨.warn, "line_item_service", "Skipping undecodable line item record",
      [("index", Nat.repr index)]⟩
  | .missingTargeting id =>
    ⟨.warn, "line_item_service", "Line item has no targeting definition", [("line_item_id", id)]⟩
  | .malformedTargeting id accountId source error =>
    ⟨.warn, "line_item_service", "Line item targeting parsing failed",
      [("account_id", accountId), ("error", error), ("line_item_id", id), ("source", source)]⟩
  | .flushed => ⟨.info, "delivery_progress", "Delivery progress flushed on shutdown", []⟩
  | .windowClosed reports auctions =>
    ⟨.info, "delivery_progress", "Delivery progress window closed",
      [("client_auctions", Nat.repr auctions), ("reports", Nat.repr reports)]⟩
  | .overallUpdated lineItems =>
    ⟨.debug, "delivery_progress", "Overall delivery progress updated",
      [("line_items", Nat.repr lineItems)]⟩
  | .batchDropped error =>
    ⟨.warn, "delivery_progress", "Dropping delivery progress report batch",
      [("error", error.message)]⟩
  | .unreported ids =>
    ⟨.info, "delivery_progress",
      "Line items will not be reported, no active delivery schedule during report window",
      [("line_item_ids", joinIds ids)]⟩

/-- Compare lists by their first difference; a start of a list comes before it. -/
def compareLists {α : Type} (compare : α → α → Ordering) : List α → List α → Ordering
  | [], [] => .eq
  | [], _ :: _ => .lt
  | _ :: _, [] => .gt
  | x :: xs, y :: ys => (compare x y).then (compareLists compare xs ys)

/-- Compare entries by level name, origin, message and fields. -/
def LogEntry.compare (a b : LogEntry) : Ordering :=
  (Ord.compare a.level.name b.level.name).then <|
  (Ord.compare a.origin b.origin).then <|
  (Ord.compare a.message b.message).then <|
  compareLists (fun x y => (Ord.compare x.1 y.1).then (Ord.compare x.2 y.2)) a.fields b.fields

/-- The entries of events in a fixed order. -/
def Event.entries (events : List Event) : List LogEntry :=
  (events.map Event.entry).mergeSort fun a b => a.compare b != .gt

end DealPacing
