import DealPacing.Engine
import DealPacing.Proofs.Auction.Classification

/-!
# Top matches of an auction

The calls of an auction share one log. Whatever happens to the engine between them, a line item that
one call offered first to some source is not offered first by a later call, and the log lists for
each source the line items that were offered first to it.

## Main definitions

* `MatchCall`: a matching call and the engine that answers it
* `AuctionContext.matchAll`: the calls of an auction, one after the other
* `TopMatches`: what calls add to the top matches of a log
* `mediaCall`, `mediaAuction`: small auctions of line items for media types

## Main results

* `MatchCall.topMatches`, `AuctionContext.topMatches_matchAll`: one call, and all calls
* `AuctionContext.tops_matchAll`: no line item is a top match twice, and the log lists them all
-/

namespace DealPacing

/-! ## Auctions -/

/-- A matching call, for all bidders of an impression or for one, and the engine that answers it.
The engine of the next call may have taken in anything meanwhile. -/
structure MatchCall where
  engine : Engine
  imp : Impression
  bidder : Option String
  now : Instant

/-- The answer to a matching call. -/
def MatchCall.run (c : MatchCall) (ctx : AuctionContext) : Selection :=
  c.engine.findMatching ctx c.imp c.bidder c.now

/-- The answers to the calls of an auction, each made on the log that the call before it left, and
the log in the end. -/
def AuctionContext.matchAll (ctx : AuctionContext) : List MatchCall → List Selection × AuctionLog
  | [] => ([], ctx.log)
  | c :: rest =>
    let sel := c.run ctx
    let (sels, log) := matchAll { ctx with log := sel.log } rest
    (sel :: sels, log)

theorem AuctionContext.matchAll_cons (ctx : AuctionContext) (c : MatchCall)
    (rest : List MatchCall) :
    ctx.matchAll (c :: rest) =
      (c.run ctx :: ({ ctx with log := (c.run ctx).log }.matchAll rest).1,
        ({ ctx with log := (c.run ctx).log }.matchAll rest).2) := rfl

/-- No line item is offered first by both of two answers. -/
def Selection.TopsDiffer (a b : Selection) : Prop :=
  ∀ {source source' x y}, a.first? source = some x → b.first? source' = some y → x.id ≠ y.id

/-! ## What calls add to a log -/

/-- What calls with the answers `sels` add to the top matches of the log `base`. -/
structure TopMatches (base : AuctionLog) (sels : List Selection) (log : AuctionLog) : Prop where
  new : ∀ {sel source x}, sel ∈ sels → sel.first? source = some x → base.isTopMatch x.id = false
  differ : sels.Pairwise Selection.TopsDiffer
  sources : ∀ source, source ∈ log.sentToBidderAsTopMatch ↔
    source ∈ base.sentToBidderAsTopMatch ∨ ∃ sel ∈ sels, (sel.first? source).isSome
  ids : ∀ source id, id ∈ log.sentToBidderAsTopMatch.getD source ∅ ↔
    id ∈ base.sentToBidderAsTopMatch.getD source ∅ ∨
      ∃ sel ∈ sels, ∃ x, sel.first? source = some x ∧ x.id = id

namespace TopMatches

variable {base log log' : AuctionLog} {sels sels' : List Selection}

theorem nil (log : AuctionLog) : TopMatches log [] log where
  new := by simp
  differ := .nil
  sources := by simp
  ids := by simp

theorem isTopMatch_of_base (h : TopMatches base sels log) {id : String}
    (hbase : base.isTopMatch id = true) : log.isTopMatch id = true := by
  obtain ⟨source, hid⟩ := AuctionLog.isTopMatch_iff.mp hbase
  exact AuctionLog.isTopMatch_iff.mpr ⟨source, (h.ids source id).mpr (.inl hid)⟩

theorem isTopMatch_of_first? (h : TopMatches base sels log) {sel : Selection} {source : String}
    {x : LineItem} (hsel : sel ∈ sels) (hx : sel.first? source = some x) :
    log.isTopMatch x.id = true := by
  apply AuctionLog.isTopMatch_iff.mpr
  exact ⟨source, (h.ids source x.id).mpr (.inr ⟨sel, hsel, x, hx, rfl⟩)⟩

/-- Calls after calls: what the earlier ones offered first is recorded when the later ones begin. -/
theorem append (h : TopMatches base sels log) (h' : TopMatches log sels' log') :
    TopMatches base (sels ++ sels') log' where
  new := by
    intro sel source x hsel hx
    rcases List.mem_append.mp hsel with hsel | hsel
    · exact h.new hsel hx
    · rw [Bool.eq_false_iff]
      intro hbase
      have hlog := h.isTopMatch_of_base hbase
      rw [h'.new hsel hx] at hlog
      cases hlog
  differ := by
    rw [List.pairwise_append]
    refine ⟨h.differ, h'.differ, ?_⟩
    intro a ha b hb source source' x y hx hy hid
    -- the earlier call recorded it, so that it was not new to the later one
    have hlog := h.isTopMatch_of_first? ha hx
    rw [hid, h'.new hb hy] at hlog
    cases hlog
  sources source := by
    rw [h'.sources, h.sources, or_assoc]
    simp only [List.mem_append, or_and_right, exists_or]
  ids source id := by
    rw [h'.ids, h.ids, or_assoc]
    simp only [List.mem_append, or_and_right, exists_or]

end TopMatches

/-! ## One call and all calls -/

/-- **One call** offers nothing first that the log lists as top match, and lists what it does. -/
theorem MatchCall.topMatches (c : MatchCall) (ctx : AuctionContext) :
    TopMatches ctx.log [c.run ctx] (c.run ctx).log := by
  obtain ⟨j, hjudged, hoffered⟩ := c.engine.registry.exists_matching c.engine.settings
    c.engine.spending ctx c.imp c.bidder c.now
  change Offering _ _ j.ready j.log (sourcesOf j.ready) (c.run ctx) at hoffered
  generalize c.run ctx = answer at hoffered ⊢
  -- judging the candidates leaves the top matches alone
  have htops := hjudged.sentToBidderAsTopMatch_eq
  constructor
  case new =>
    intro sel source x hsel hx
    obtain rfl := List.mem_singleton.mp hsel
    have hnew := (hoffered.justified_of_sourcesOf source).first_new x hx
    rw [Bool.eq_false_iff, ← hjudged.isTopMatch_eq]
    exact fun hbase => hnew (.inl hbase)
  case differ => exact List.pairwise_singleton _ _
  case sources =>
    intro source
    rw [hoffered.topSources, htops]
    simp
  case ids =>
    intro source id
    rw [hoffered.tops, htops]
    simp

/-- **All calls** of an auction, from any log on. -/
theorem AuctionContext.topMatches_matchAll (ctx : AuctionContext) (calls : List MatchCall) :
    TopMatches ctx.log (ctx.matchAll calls).1 (ctx.matchAll calls).2 := by
  induction calls generalizing ctx with
  | nil => exact .nil ctx.log
  | cons c rest ih =>
    have hfirst := c.topMatches ctx
    rw [matchAll_cons]
    generalize c.run ctx = answer at hfirst ⊢
    exact hfirst.append (ih { ctx with log := answer.log })

/-- **No line item is a top match twice**: no two calls of an auction offer it first, and the log
lists under each source exactly the line items that were offered first to it. -/
theorem AuctionContext.tops_matchAll (ctx : AuctionContext) (calls : List MatchCall) :
    let auction := { ctx with log := .empty }.matchAll calls
    auction.1.Pairwise Selection.TopsDiffer ∧
      (∀ source, source ∈ auction.2.sentToBidderAsTopMatch ↔
        ∃ sel ∈ auction.1, (sel.first? source).isSome) ∧
      ∀ source id, id ∈ auction.2.sentToBidderAsTopMatch.getD source ∅ ↔
        ∃ sel ∈ auction.1, ∃ x, sel.first? source = some x ∧ x.id = id := by
  intro auction
  have h : TopMatches .empty auction.1 auction.2 :=
    topMatches_matchAll { ctx with log := .empty } calls
  have hnone : ∀ source, source ∉ AuctionLog.empty.sentToBidderAsTopMatch := fun _ =>
    Std.ExtTreeMap.not_mem_empty
  refine ⟨h.differ, fun source => ?_, fun source id => ?_⟩
  · rw [h.sources, or_iff_right (hnone source)]
  · rw [h.ids, or_iff_right]
    simp [AuctionLog.empty]

/-! ## Auctions of media line items -/

/-- A line item for impressions of some media types; a lower priority ranks it higher. -/
def mediaItem (id : String) (priority : Int) (mediaTypes : List String) : LineItem :=
  ⟨{ twoHours [] [] (hour 0) with
      lineItemId := id, dealId := some id, relativePriority := some priority },
    none, some (.leaf (.intersectsStrings .mediaType mediaTypes)), none, none⟩

/-- A registry with these line items. -/
def mediaRegistry (items : List LineItem) : Registry := items.foldl .put .empty

theorem keyed_mediaRegistry (items : List LineItem) : (mediaRegistry items).Keyed :=
  foldl_of_prefix (I := fun _ (r : Registry) => r.Keyed) Registry.valid_empty.toKeyed
    fun _ x _ _ h => h.put x

theorem get?_mediaRegistry {items : List LineItem} (hids : (items.map (·.id)).Nodup) :
    ∀ x ∈ items, (mediaRegistry items).get? x.id = some x := by
  refine foldl_of_prefix (I := fun done (r : Registry) => ∀ x ∈ done, r.get? x.id = some x)
    (by simp) fun done y r hdone h x hx => ?_
  rw [Registry.get?_put]
  rcases List.mem_append.mp hx with hx | hx
  · have hne : y.id ≠ x.id := by
      intro heq
      have hprefix := hdone.map (·.id)
      rw [List.map_append] at hprefix
      exact not_mem_of_prefix_concat hids hprefix (List.mem_map.mpr ⟨x, hx, heq.symm⟩)
    rw [if_neg hne]
    exact h x hx
  · obtain rfl := List.mem_singleton.mp hx
    rw [if_pos rfl]

/-- A call for a banner or a video impression, made for the bidder of these line items. -/
def mediaCall (items : List LineItem) (banner video : Bool) : MatchCall where
  engine := { Engine.start {} (hour 0) with registry := mediaRegistry items }
  imp := { (default : Impression) with
    banner := if banner then some ⟨[], none⟩ else none
    video := if video then some .null else none }
  bidder := some "bidder"
  now := hour 0

/-- An auction of the account of these line items, before its first call. -/
def mediaAuction : AuctionContext := ⟨default, "account", some [], true, .empty⟩

end DealPacing
