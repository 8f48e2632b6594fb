import DealPacing.Proofs.Auction.Classification
import DealPacing.Proofs.Auction.Judgements

/-!
# The sources of a call do not interfere

A line item has one source. So what a call offers first to one source does not count as top match
before when the turn of another source comes, and each source is offered what it would be offered if
it were alone, on the log with which the call began. The same holds for the losses that the call
records.

## Main definitions

* `remaining`, `offerTo`: what is left of the ranking of a source, and what the source is offered
* `idsAhead`: the line items ahead of one of them
* `Sourcewise`: what holds while the sources are gone through

## Main results

* `Sourcewise.offerSource`, `sourcewise_offers`: one offer, and all offers
* `Registry.Keyed.offered_findMatching`, `Registry.Keyed.lostMatchingTo_findMatching`: what a
  matching call offers and which losses it records
-/

namespace DealPacing

/-! ## Losses -/

/-- The ids of the line items ahead of the one with the id `id`; none if it is not among them. -/
def idsAhead (id : String) (xs : List LineItem) : List String :=
  if xs.any (·.id == id) then (xs.takeWhile (·.id != id)).map (·.id) else []

theorem idsAhead_of_not_mem {id : String} {xs : List LineItem} (h : id ∉ xs.map (·.id)) :
    idsAhead id xs = [] := by
  have hany : xs.any (·.id == id) = false := by
    rw [List.any_eq_false]
    intro x hx hid
    exact h (List.mem_map.mpr ⟨x, hx, beq_iff_eq.mp hid⟩)
  rw [idsAhead, hany]
  rfl

theorem exists_mem_of_idsAhead_ne_nil {id : String} {xs : List LineItem}
    (h : idsAhead id xs ≠ []) : ∃ x ∈ xs, x.id = id := by
  by_contra hnone
  refine h (idsAhead_of_not_mem fun hmem => hnone ?_)
  simpa using hmem

theorem idsAhead_cons_self (x : LineItem) (xs : List LineItem) : idsAhead x.id (x :: xs) = [] := by
  simp [idsAhead]

theorem idsAhead_cons_of_mem {id : String} {x : LineItem} {xs : List LineItem} (hne : x.id ≠ id)
    (hmem : id ∈ xs.map (·.id)) : idsAhead id (x :: xs) = x.id :: idsAhead id xs := by
  have hany : xs.any (·.id == id) = true := by
    rw [List.any_eq_true]
    obtain ⟨y, hy, rfl⟩ := List.mem_map.mp hmem
    exact ⟨y, hy, beq_self_eq_true _⟩
  simp [idsAhead, hany, hne]

/-- The line items of a list lose to those of `ahead` and to those before them in the list. What was
recorded before for a line item is replaced. -/
theorem getElem?_lostMatchingTo_recordLosses {xs : List LineItem} (log : AuctionLog)
    (ahead : List String) (hids : (xs.map (·.id)).Nodup) (id : String) :
    (recordLosses log ahead xs).lostMatchingTo[id]? =
      if id ∈ xs.map (·.id) ∧ ahead ++ idsAhead id xs ≠ [] then
        some (IdSet.ofList (ahead ++ idsAhead id xs))
      else log.lostMatchingTo[id]? := by
  induction xs generalizing log ahead with
  | nil => simp [recordLosses]
  | cons x rest ih =>
    rw [List.map_cons, List.nodup_cons] at hids
    rw [recordLosses, ih _ _ hids.2]
    simp only [List.map_cons, List.mem_cons]
    by_cases hx : x.id = id
    · subst hx
      -- the line item comes once, so the rest leaves its losses alone
      rw [idsAhead_cons_self]
      cases ahead <;> simp [hids.1, AuctionLog.recordLostMatchingTo]
    by_cases hmem : id ∈ rest.map (·.id)
    · rw [idsAhead_cons_of_mem hx hmem]
      simp [hmem]
    · cases ahead <;>
        simp [hmem, hx, Ne.symm hx, AuctionLog.recordLostMatchingTo, Std.ExtTreeMap.getElem?_insert]

/-! ## What each source is offered -/

section Offers

variable (settings : MatchSettings) (s : Spending) (log : AuctionLog) (ready : List LineItem)
  (source : String)

/-- The ready line items of a source, best first, without those in front that were top match
before. -/
def remaining : List LineItem :=
  (ranking settings s (readyOf ready source)).dropWhile fun x => log.isTopMatch x.id

/-- What a source is offered. -/
def offerTo : List LineItem :=
  (firstOfEachDeal [] (remaining settings s log ready source)).take settings.maxDealsPerBidder

theorem remaining_sublist :
    (remaining settings s log ready source).Sublist (ranking settings s (readyOf ready source)) :=
  List.dropWhile_sublist _

theorem offerTo_sublist :
    (offerTo settings s log ready source).Sublist (remaining settings s log ready source) :=
  (List.take_sublist _ _).trans (firstOfEachDeal_sublist _ _)

variable {settings s log ready source}

theorem mem_readyOf_of_mem_remaining {x : LineItem}
    (hx : x ∈ remaining settings s log ready source) : x ∈ readyOf ready source :=
  (ranking_perm settings s _).mem_iff.mp ((remaining_sublist settings s log ready source).mem hx)

theorem mem_readyOf_of_mem_offerTo {x : LineItem}
    (hx : x ∈ offerTo settings s log ready source) : x ∈ readyOf ready source :=
  mem_readyOf_of_mem_remaining ((offerTo_sublist settings s log ready source).mem hx)

theorem nodup_ids_remaining (hids : (ready.map (·.id)).Nodup) :
    ((remaining settings s log ready source).map (·.id)).Nodup := by
  have hranked : ((ranking settings s (readyOf ready source)).map (·.id)).Nodup := by
    rw [((ranking_perm settings s _).map _).nodup_iff]
    exact hids.sublist (List.filter_sublist.map _)
  exact hranked.sublist ((remaining_sublist settings s log ready source).map _)

theorem dropWhile_congr {α : Type} {p q : α → Bool} {xs : List α} (h : ∀ a ∈ xs, p a = q a) :
    xs.dropWhile p = xs.dropWhile q := by
  induction xs with
  | nil => rfl
  | cons a rest ih =>
    rw [List.forall_mem_cons] at h
    rw [List.dropWhile_cons, List.dropWhile_cons, h.1, ih h.2]

/-- What is left for a source depends on the top matches among its own line items only. -/
theorem remaining_congr {log' : AuctionLog}
    (h : ∀ x ∈ readyOf ready source, log.isTopMatch x.id = log'.isTopMatch x.id) :
    remaining settings s log ready source = remaining settings s log' ready source :=
  dropWhile_congr fun x hx => h x ((ranking_perm settings s _).mem_iff.mp hx)

end Offers

/-! ## One source after the other -/

/-- The ids of the line items ahead of the one with the id `id` among what is left for its source;
none if it is not left for any of the sources. -/
def idsAheadIn (settings : MatchSettings) (s : Spending) (log : AuctionLog) (ready : List LineItem)
    (sources : List String) (id : String) : List String :=
  sources.flatMap fun source => idsAhead id (remaining settings s log ready source)

/-- What holds when the sources `done` have been gone through: each got its own offer, and each line
item lost to those left ahead of it. -/
structure Sourcewise (settings : MatchSettings) (s : Spending) (ready : List LineItem)
    (base : AuctionLog) (done : List String) (sel : Selection) : Prop
    extends Offering settings s ready base done sel where
  offered_eq : sel.offered = done.flatMap (offerTo settings s base ready)
  lost : ∀ id, sel.log.lostMatchingTo[id]? =
    if idsAheadIn settings s base ready done id = [] then base.lostMatchingTo[id]?
    else some (IdSet.ofList (idsAheadIn settings s base ready done id))

namespace Sourcewise

variable {settings : MatchSettings} {s : Spending} {imp : Impression} {ready : List LineItem}
  {base : AuctionLog} {done : List String} {sel : Selection} {source : String}

theorem start (settings : MatchSettings) (s : Spending) (ready : List LineItem) (base : AuctionLog)
    (events : List Event) : Sourcewise settings s ready base [] ⟨[], base, events⟩ where
  toOffering := Offering.start settings s ready base events
  offered_eq := rfl
  lost _ := rfl

/-- A line item of a source whose turn has not come was not offered first to another one. -/
theorem isTopMatch_eq (h : Sourcewise settings s ready base done sel)
    (hids : (ready.map (·.id)).Nodup) (hnew : source ∉ done) {x : LineItem}
    (hx : x ∈ readyOf ready source) : sel.log.isTopMatch x.id = base.isTopMatch x.id := by
  obtain ⟨hready, hsource⟩ := mem_readyOf.mp hx
  rw [Bool.eq_iff_iff, h.isTopMatch_iff]
  refine or_iff_left ?_
  rintro ⟨earlier, y, hfirst, hid⟩
  have hdone := h.mem_done_of_first? hfirst
  obtain ⟨hy, hysource⟩ := mem_readyOf.mp
    ((h.justified earlier hdone).mem_ready (List.mem_of_head? hfirst))
  -- the id names one line item, and it has one source
  obtain rfl := List.inj_on_of_nodup_map hids hy hready hid
  rw [← hsource, hysource] at hnew
  exact hnew hdone

theorem remaining_eq (h : Sourcewise settings s ready base done sel)
    (hids : (ready.map (·.id)).Nodup) (hnew : source ∉ done) :
    remaining settings s sel.log ready source = remaining settings s base ready source :=
  remaining_congr fun _ hx => h.isTopMatch_eq hids hnew hx

/-- A line item that is left for a source is not left for another one. -/
theorem idsAheadIn_eq_nil (hids : (ready.map (·.id)).Nodup) (hnew : source ∉ done) {id : String}
    (hid : idsAhead id (remaining settings s base ready source) ≠ []) :
    idsAheadIn settings s base ready done id = [] := by
  obtain ⟨x, hx, rfl⟩ := exists_mem_of_idsAhead_ne_nil hid
  obtain ⟨hready, hsource⟩ := mem_readyOf.mp (mem_readyOf_of_mem_remaining hx)
  rw [idsAheadIn, List.flatMap_eq_nil_iff]
  intro earlier hdone
  apply idsAhead_of_not_mem
  intro hmem
  obtain ⟨y, hy, hyid⟩ := List.mem_map.mp hmem
  obtain ⟨hyready, hysource⟩ := mem_readyOf.mp (mem_readyOf_of_mem_remaining hy)
  obtain rfl := List.inj_on_of_nodup_map hids hyready hready hyid
  rw [← hsource, hysource] at hnew
  exact hnew hdone

/-- What is reported does not matter. -/
theorem withEvents (h : Sourcewise settings s ready base done sel) (events : List Event) :
    Sourcewise settings s ready base done { sel with events } where
  source_mem := h.source_mem
  justified := h.justified
  sent := h.sent
  tops := h.tops
  topSources := h.topSources
  others := h.others
  offered_eq := h.offered_eq
  lost := h.lost

theorem lostMatchingTo_offerSource (settings : MatchSettings) (s : Spending) (imp : Impression)
    (ready : List LineItem) (sel : Selection) (source : String) :
    (offerSource settings s imp ready sel source).log.lostMatchingTo =
      (recordLosses sel.log [] (remaining settings s sel.log ready source)).lostMatchingTo := by
  obtain ⟨_, _, hoffer, -⟩ := AuctionLog.exists_recordOffer
    (rankedSelection settings s imp sel.log (readyOf ready source)).log source
    (rankedSelection settings s imp sel.log (readyOf ready source)).offered
  rw [log_offerSource, hoffer, log_rankedSelection]
  rfl

/-- **One more source**. -/
theorem offerSource (h : Sourcewise settings s ready base done sel)
    (hids : (ready.map (·.id)).Nodup) (hlast : ∀ k ∈ done, compare k source = .lt) :
    Sourcewise settings s ready base (done ++ [source])
      (offerSource settings s imp ready sel source) := by
  have hself : compare source source ≠ .lt := by simp
  have hnew : source ∉ done := fun hmem => hself (hlast source hmem)
  have hremaining := h.remaining_eq hids hnew
  constructor
  case toOffering => exact h.toOffering.offerSource hlast
  case offered_eq =>
    rw [offered_offerSource, offered_rankedSelection, h.offered_eq, List.flatMap_append,
      List.flatMap_singleton, offerTo, ← hremaining]
    rfl
  case lost =>
    intro id
    have hconcat : idsAheadIn settings s base ready (done ++ [source]) id =
        idsAheadIn settings s base ready done id ++
          idsAhead id (remaining settings s base ready source) := by
      simp [idsAheadIn]
    rw [lostMatchingTo_offerSource, hremaining,
      getElem?_lostMatchingTo_recordLosses _ _ (nodup_ids_remaining hids), List.nil_append, hconcat]
    by_cases hid : idsAhead id (remaining settings s base ready source) = []
    · simp [hid, h.lost]
    · have hmem : id ∈ (remaining settings s base ready source).map (·.id) := by
        by_contra hnot
        exact hid (idsAhead_of_not_mem hnot)
      rw [idsAheadIn_eq_nil hids hnew hid, List.nil_append, if_pos ⟨hmem, hid⟩, if_neg hid]

end Sourcewise

/-- **All sources** of ready line items with different ids. -/
theorem sourcewise_offers (settings : MatchSettings) (s : Spending) (imp : Impression)
    {ready : List LineItem} (hids : (ready.map (·.id)).Nodup) (base : AuctionLog)
    (events : List Event) : Sourcewise settings s ready base (sourcesOf ready)
      (offers settings s imp ready ⟨[], base, events⟩) := by
  refine foldl_of_prefix (I := Sourcewise settings s ready base)
    (Sourcewise.start settings s ready base events) fun done source sel hdone h => ?_
  refine h.offerSource hids fun k hk => ?_
  have hsorted := (pairwise_sourcesOf ready).sublist hdone.sublist
  exact (List.pairwise_append.mp hsorted).2.2 k hk source (List.mem_singleton.mpr rfl)

/-! ## Matching calls -/

namespace Registry

section Call

variable (settings : MatchSettings) (s : Spending) (r : Registry) (ctx : AuctionContext)
  (imp : Impression) (bidder : Option String) (now : Instant)

/-- The ids of the line items that a matching call ranks ahead of the one with the id `id`, once
those in front that were top match before are dropped. -/
def aheadFor (id : String) : List String :=
  idsAheadIn settings s ctx.log (r.readyFor settings s ctx imp bidder now)
    (sourcesOf (r.readyFor settings s ctx imp bidder now)) id

end Call

variable {settings : MatchSettings} {s : Spending} {r : Registry} {ctx : AuctionContext}
  {imp : Impression} {bidder : Option String} {now : Instant}

theorem Keyed.nodup_ids_readyFor (h : r.Keyed) :
    ((r.readyFor settings s ctx imp bidder now).map (·.id)).Nodup := by
  have hcandidates : (r.candidates ctx).Sublist r.toList := by
    unfold candidates
    split
    · exact List.nil_sublist _
    · exact List.filter_sublist
  have hready : (r.readyFor settings s ctx imp bidder now).Sublist (r.candidates ctx) := by
    unfold readyFor readyAmong
    exact List.filter_sublist
  have hids := (hready.trans hcandidates).map LineItem.id
  exact h.nodup_ids.sublist hids

theorem remaining_judgedFor (source : String) :
    remaining settings s (r.judgedFor settings s ctx imp bidder now).log
        (r.readyFor settings s ctx imp bidder now) source =
      remaining settings s ctx.log (r.readyFor settings s ctx imp bidder now) source :=
  remaining_congr fun x _ => (judging_judgedFor settings s r ctx imp bidder now).isTopMatch_eq x.id

/-- **A matching call goes through the sources one by one**. -/
theorem Keyed.sourcewise (h : r.Keyed) :
    Sourcewise settings s (r.readyFor settings s ctx imp bidder now)
      (r.judgedFor settings s ctx imp bidder now).log
      (sourcesOf (r.readyFor settings s ctx imp bidder now))
      (r.findMatching settings s ctx imp bidder now) := by
  obtain ⟨events, hcall⟩ := r.exists_findMatching_eq settings s ctx imp bidder now
  rw [hcall]
  exact (sourcewise_offers settings s imp h.nodup_ids_readyFor _ _).withEvents events

/-- **What a matching call offers**, source by source. -/
theorem Keyed.offered_findMatching (h : r.Keyed) :
    (r.findMatching settings s ctx imp bidder now).offered =
      (sourcesOf (r.readyFor settings s ctx imp bidder now)).flatMap
        (offerTo settings s ctx.log (r.readyFor settings s ctx imp bidder now)) := by
  rw [h.sourcewise.offered_eq]
  refine List.flatMap_congr fun source _ => ?_
  rw [offerTo, offerTo, remaining_judgedFor]

theorem Keyed.mem_offered_iff (h : r.Keyed) {x : LineItem} :
    x ∈ (r.findMatching settings s ctx imp bidder now).offered ↔
      x ∈ offerTo settings s ctx.log (r.readyFor settings s ctx imp bidder now) x.source := by
  rw [h.offered_findMatching, List.mem_flatMap]
  constructor
  · rintro ⟨source, -, hx⟩
    obtain rfl := (mem_readyOf.mp (mem_readyOf_of_mem_offerTo hx)).2
    exact hx
  · intro hx
    have hready := (mem_readyOf.mp (mem_readyOf_of_mem_offerTo hx)).1
    exact ⟨x.source, mem_sourcesOf.mpr ⟨x, hready, rfl⟩, hx⟩

/-- Only line items that are ready are offered. -/
theorem Keyed.mem_readyFor_of_mem_offered (h : r.Keyed) {x : LineItem}
    (hx : x ∈ (r.findMatching settings s ctx imp bidder now).offered) :
    x ∈ r.readyFor settings s ctx imp bidder now :=
  (mem_readyOf.mp (mem_readyOf_of_mem_offerTo (h.mem_offered_iff.mp hx))).1

/-- **What a matching call records as lost**: the line items ahead on this impression in place of
those recorded before, and nothing for a line item that has none ahead. -/
theorem Keyed.lostMatchingTo_findMatching (h : r.Keyed) (id : String) :
    (r.findMatching settings s ctx imp bidder now).log.lostMatchingTo[id]? =
      if r.aheadFor settings s ctx imp bidder now id = [] then ctx.log.lostMatchingTo[id]?
      else some (IdSet.ofList (r.aheadFor settings s ctx imp bidder now id)) := by
  have hahead : idsAheadIn settings s (r.judgedFor settings s ctx imp bidder now).log
      (r.readyFor settings s ctx imp bidder now)
      (sourcesOf (r.readyFor settings s ctx imp bidder now)) id =
        r.aheadFor settings s ctx imp bidder now id := by
    unfold aheadFor idsAheadIn
    refine List.flatMap_congr fun source _ => ?_
    rw [remaining_judgedFor]
  obtain ⟨_, _, _, _, _, _, hlog⟩ := (judging_judgedFor settings s r ctx imp bidder now).others
  rw [h.sourcewise.lost, hahead, hlog]

end Registry

end DealPacing
