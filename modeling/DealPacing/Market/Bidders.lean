import DealPacing.Auction.Log
import DealPacing.Json.Pointer
import DealPacing.Wire.BidRequest

/-!
# Bidders and their aliases

The host knows its bidders by name, some of them as deprecated. A bid request can give a bidder
further names. Line items have a source, which is a bidder or an alias.

## Main definitions

* `BidderCatalog`: the bidders of the host
* `Aliases`, `Aliases.ofRequest`: the aliases of a bid request
* `Aliases.inScope`: a source can be offered to one of several bidders
* `Impression.bidders`: the bidders that an impression is offered to
-/

namespace DealPacing

/-- The bidders of the host. -/
structure BidderCatalog where
  valid : IdSet
  deprecated : IdSet

/-- The bidder that each alias stands for. -/
abbrev Aliases := IdMap String

/-- The members of the object at a pointer. -/
def membersAt (v : Option Json) (pointer : String) : List (String × Json) :=
  (((v.bind (·.pointer? pointer)).bind Json.asObject?)).getD []

namespace Aliases

/-- The aliases that a bid request defines. -/
def ofRequest (request : BidRequest) : Aliases :=
  Std.ExtTreeMap.ofList ((membersAt request.ext "/prebid/aliases").filterMap fun (name, v) =>
    v.asString?.map (name, ·))

/-- The name is an alias. -/
def isDefined (aliases : Aliases) (name : String) : Bool := aliases.contains name

/-- The bidder that an alias stands for; any other name stands for itself. -/
def resolve (aliases : Aliases) (name : String) : String := aliases.getD name name

/-- A source can be offered to one of the bidders: it is one of them, an alias of one of them, or
the bidder that one of them is an alias of. -/
def inScope (aliases : Aliases) (source : String) (bidders : IdSet) : Bool :=
  bidders.contains source || bidders.contains (aliases.resolve source) ||
    bidders.toList.any fun bidder => aliases[bidder]? == some source

end Aliases

/-- The bidders that an impression is offered to: those it names, if they are not deprecated and are
either known or aliases. -/
def Impression.bidders (imp : Impression) (catalog : BidderCatalog) (aliases : Aliases) : IdSet :=
  IdSet.ofList (((membersAt imp.ext "/prebid/bidder").map Prod.fst).filter fun name =>
    !catalog.deprecated.contains name &&
      (catalog.valid.contains name || aliases.isDefined name))

end DealPacing
