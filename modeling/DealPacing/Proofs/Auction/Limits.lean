import DealPacing.Proofs.Auction.Classification

/-!
# The limits of a bidder

The number of line items and their deals are limited for each source. A bidder can be offered line
items of several sources: its own, those of its aliases, and those of the bidder that it is an alias
of. So the limits hold for a bidder if all its line items have one source, and not otherwise.

## Main definitions

* `WithinLimits`: few line items, with different deals
* `Aliases.HasOneSource`: all line items that can be offered to a bidder have one source

## Main results

* `Registry.withinLimits_ofSource`: the limits hold for each source
* `Registry.withinLimits_iff_hasOneSource`: the limits hold for a bidder if and only if it has one
  source, or nothing is offered at all
-/

namespace DealPacing

/-- As many line items as the limit admits at most, no two of them with the same deal; line items
without a deal count as one deal. -/
structure WithinLimits (limit : Nat) (offered : List LineItem) : Prop where
  length_le : offered.length ≤ limit
  nodup_dealId : (offered.map (·.dealId)).Nodup

/-- All line items that can be offered to the bidder have one source; no line item has the empty
one. -/
def Aliases.HasOneSource (aliases : Aliases) (bidder : String) : Prop :=
  ∀ a b, a ≠ "" → b ≠ "" → aliases.inScope a (IdSet.ofList [bidder]) = true →
    aliases.inScope b (IdSet.ofList [bidder]) = true → a = b

theorem LineItemRecord.source_ne_of_validate {record : LineItemRecord}
    (h : record.validate = .ok ()) : record.source ≠ "" := by
  intro hsource
  simp only [validate, hsource] at h
  split at h
  · cases h
  split at h
  · cases h
  · cases h

/-! ## A line item that is alone -/

/-- Something new is offered first if there is anything. -/
theorem Justified.offered_ne_nil {s : Spending} {recorded : String → Prop} {limit : Nat}
    {ready ranked offered : List LineItem} (h : Justified s recorded limit ready ranked offered)
    (hlimit : 0 < limit) (hready : ready ≠ []) (hnew : ∀ x ∈ ready, ¬ recorded x.id) :
    offered ≠ [] := by
  cases ranked with
  | nil => exact absurd h.ranked_perm.nil_eq.symm hready
  | cons top rest =>
    rintro rfl
    -- nothing ranks ahead of the best line item, so no reason to pass it over is left
    have htop : top ∈ ready := h.ranked_perm.mem_iff.mp List.mem_cons_self
    rcases h.passedOver (List.nil_append (top :: rest)).symm List.not_mem_nil with
      hrun | ⟨front, back, y, hsplit, -, -⟩ | ⟨-, hlength⟩
    · exact hnew top htop (hrun top (List.mem_singleton.mpr rfl))
    · cases front <;> cases hsplit
    · rw [← hlength] at hlimit
      exact absurd hlimit (Nat.lt_irrefl 0)

namespace Offering

variable {settings : MatchSettings} {s : Spending} {ready : List LineItem} {base : AuctionLog}
  {sel : Selection} {x : LineItem}

/-- A new line item is not offered to another source before its turn comes. -/
theorem not_recorded (h : Offering settings s ready base (sourcesOf ready) sel)
    (hids : ∀ y ∈ ready, y.id = x.id → y = x) (hnew : base.isTopMatch x.id = false) :
    ¬ Recorded base sel x.source x.id := by
  rintro (hbase | ⟨earlier, y, hlt, hfirst, hid⟩)
  · rw [hnew] at hbase
    cases hbase
  · obtain ⟨hmem, hsource⟩ := Selection.mem_ofSource.mp (List.mem_of_head? hfirst)
    -- the id names one line item, which is offered under its own source only
    obtain rfl := hids y (h.mem_ready hmem) hid
    rw [← hsource] at hlt
    simp at hlt

/-- **A new line item that is alone of its source is offered**. -/
theorem mem_offered_of_alone (h : Offering settings s ready base (sourcesOf ready) sel)
    (hlimit : 0 < settings.maxDealsPerBidder) (hx : x ∈ ready)
    (halone : ∀ y ∈ ready, y.source = x.source → y = x)
    (hids : ∀ y ∈ ready, y.id = x.id → y = x) (hnew : base.isTopMatch x.id = false) :
    x ∈ sel.offered := by
  have hjustified := h.justified_of_sourcesOf x.source
  have hreadyOf : ∀ y ∈ readyOf ready x.source, y = x := by
    intro y hy
    obtain ⟨hmem, hsource⟩ := mem_readyOf.mp hy
    exact halone y hmem hsource
  have hne : sel.ofSource x.source ≠ [] := by
    apply hjustified.offered_ne_nil hlimit
    · exact List.ne_nil_of_mem (mem_readyOf.mpr ⟨hx, rfl⟩)
    · intro y hy
      rw [hreadyOf y hy]
      exact h.not_recorded hids hnew
  obtain ⟨y, hy⟩ := List.exists_mem_of_ne_nil _ hne
  obtain rfl := hreadyOf y (hjustified.mem_ready hy)
  exact (Selection.mem_ofSource.mp hy).1

end Offering

/-! ## Limits -/

namespace Registry

variable (settings : MatchSettings) (r : Registry) (s : Spending) (ctx : AuctionContext)
  (imp : Impression) (bidder : Option String) (now : Instant)

/-- **The limits hold for each source**. -/
theorem withinLimits_ofSource (source : String) : WithinLimits settings.maxDealsPerBidder
    ((r.findMatching settings s ctx imp bidder now).ofSource source) := by
  obtain ⟨j, -, hoffered⟩ := r.exists_matching settings s ctx imp bidder now
  have hjustified := hoffered.justified_of_sourcesOf source
  exact ⟨hjustified.length_le, hjustified.nodup_dealId⟩

variable {settings r s ctx imp bidder now}

/-- What is returned is registered and competes. -/
theorem Keyed.competing_of_mem_offered (h : r.Keyed) {x : LineItem}
    (hx : x ∈ (r.findMatching settings s ctx imp bidder now).offered) :
    r.Competing ctx imp (offeredBidders settings ctx.request imp bidder) x.id x := by
  obtain ⟨j, hjudged, hoffered⟩ := r.exists_matching settings s ctx imp bidder now
  obtain ⟨hmem, hcompetes, -⟩ := (hjudged.ready x).mp (hoffered.mem_ready hx)
  exact h.competing_iff.mpr ⟨hmem, hcompetes, rfl⟩

theorem withinLimits_of_sources_eq
    (h : ∀ x ∈ (r.findMatching settings s ctx imp bidder now).offered,
      ∀ y ∈ (r.findMatching settings s ctx imp bidder now).offered, x.source = y.source) :
    WithinLimits settings.maxDealsPerBidder
      (r.findMatching settings s ctx imp bidder now).offered := by
  cases hoffered : (r.findMatching settings s ctx imp bidder now).offered with
  | nil => exact ⟨Nat.zero_le _, List.nodup_nil⟩
  | cons top rest =>
    have hlimits := r.withinLimits_ofSource settings s ctx imp bidder now top.source
    rw [Selection.ofSource, List.filter_eq_self.mpr] at hlimits
    · exact hoffered ▸ hlimits
    · intro x hx
      exact beq_iff_eq.mpr (h x hx top (hoffered ▸ List.mem_cons_self))

theorem offered_eq_nil_of_limit_zero (hlimit : settings.maxDealsPerBidder = 0) :
    (r.findMatching settings s ctx imp bidder now).offered = [] := by
  rw [List.eq_nil_iff_forall_not_mem]
  intro x hx
  have hlength := (r.withinLimits_ofSource settings s ctx imp bidder now x.source).length_le
  rw [hlimit, Nat.le_zero, List.length_eq_zero_iff] at hlength
  have hmem := Selection.mem_ofSource.mpr ⟨hx, rfl⟩
  rw [hlength] at hmem
  cases hmem

/-- A ready line item that competes, alone of its source, is returned. -/
theorem Keyed.mem_offered_of_alone (h : r.Keyed) {id : String} {x : LineItem}
    (hlimit : 0 < settings.maxDealsPerBidder) (hnew : ctx.log.isTopMatch id = false)
    (hx : r.Competing ctx imp (offeredBidders settings ctx.request imp bidder) id x)
    (hready : x.EndsAt ctx s now .ready)
    (halone : ∀ y ∈ r.toList, y.source = x.source → y = x) :
    x ∈ (r.findMatching settings s ctx imp bidder now).offered := by
  obtain ⟨j, hjudged, hoffered⟩ := r.exists_matching settings s ctx imp bidder now
  have hregistered : ∀ y ∈ j.ready, y ∈ r.toList := fun y hy =>
    ((mem_candidates r ctx).mp ((hjudged.ready y).mp hy).1).1
  obtain ⟨hmem, hcompetes, rfl⟩ := h.competing_iff.mp hx
  apply hoffered.mem_offered_of_alone hlimit
  · exact (hjudged.ready x).mpr ⟨hmem, hcompetes, hready⟩
  · intro y hy
    exact halone y (hregistered y hy)
  · intro y hy hid
    have hget := h.get?_of_mem_toList (hregistered y hy)
    rw [hid, hx.registered] at hget
    exact (Option.some.inj hget).symm
  · rw [hjudged.isTopMatch_eq]
    exact hnew

end Registry

/-! ## One bidder -/

/-- A line item of a deal that wants every impression. -/
def dealItem (id source : String) : LineItem :=
  .eager { twoHours [] [] (hour 0) with lineItemId := id, source, dealId := some "deal" } none

/-- Two line items of one deal from two sources. -/
def sharedDeal (a b : String) : Registry :=
  (Registry.empty.put (dealItem "first" a)).put (dealItem "second" b)

section SharedDeal

variable {a b : String}

theorem validate_dealItem {id source : String} (hid : id ≠ "") (hsource : source ≠ "") :
    (dealItem id source).record.validate = .ok () := by
  have hwindow : ¬ hour 2 < hour 0 := by decide
  simp [dealItem, LineItem.eager, LineItemRecord.validate, twoHours, hid, hsource, hwindow]

theorem valid_sharedDeal (ha : a ≠ "") (hb : b ≠ "") : (sharedDeal a b).Valid :=
  (Registry.valid_empty.put (validate_dealItem (by decide) ha)).put
    (validate_dealItem (by decide) hb)

theorem get?_sharedDeal (id : String) : (sharedDeal a b).get? id =
    if "second" = id then some (dealItem "second" b)
    else if "first" = id then some (dealItem "first" a) else none := by
  rw [sharedDeal, Registry.get?_put, Registry.get?_put]
  rfl

theorem keyed_sharedDeal (a b : String) : (sharedDeal a b).Keyed := by
  refine ⟨fun {id x} hx => ?_⟩
  rw [get?_sharedDeal] at hx
  split at hx
  · next hid => exact Option.some.inj hx ▸ hid
  split at hx
  · next hid => exact Option.some.inj hx ▸ hid
  · cases hx

theorem eq_of_mem_sharedDeal {x : LineItem} (hx : x ∈ (sharedDeal a b).toList) :
    x = dealItem "first" a ∨ x = dealItem "second" b := by
  have hget := (keyed_sharedDeal a b).get?_of_mem_toList hx
  rw [get?_sharedDeal] at hget
  split at hget
  · exact .inr (Option.some.inj hget).symm
  split at hget
  · exact .inl (Option.some.inj hget).symm
  · cases hget

/-- Each of two line items from different sources is returned when both sources are in scope. -/
theorem mem_offered_sharedDeal {settings : MatchSettings} {request : BidRequest}
    {bidder source : String} (id : String) (hlimit : 0 < settings.maxDealsPerBidder) (hab : a ≠ b)
    (hget : (sharedDeal a b).get? id = some (dealItem id source))
    (hscope : (Aliases.ofRequest request).inScope source (IdSet.ofList [bidder]) = true) :
    dealItem id source ∈ ((sharedDeal a b).findMatching settings .empty
      ⟨request, "account", some [], true, .empty⟩ default (some bidder) (hour 0)).offered := by
  have hkeyed := keyed_sharedDeal a b
  have hid : (dealItem id source).id = id := rfl
  have haccount : Text.trim "account" = "account" := by decide
  have hne : "account" ≠ "" := by decide
  have hself := eq_of_mem_sharedDeal (hkeyed.mem_toList_iff.mpr (hid.symm ▸ hget))
  apply hkeyed.mem_offered_of_alone hlimit
  · simp [AuctionLog.isTopMatch, AuctionLog.empty]
  · exact ⟨hget, haccount.symm ▸ hne, haccount.symm, LineItem.competes_eager.mpr hscope⟩
  · exact LineItem.endsAt_iff.mpr rfl
  · intro y hy hsource
    rcases eq_of_mem_sharedDeal hy with rfl | rfl <;> rcases hself with hself | hself <;>
      rw [hself] at hsource ⊢
    · exact absurd hsource hab
    · exact absurd hsource.symm hab

/-- **Two sources of a bidder break its limits**. -/
theorem not_withinLimits_sharedDeal {settings : MatchSettings} {request : BidRequest}
    {bidder : String} (hlimit : 0 < settings.maxDealsPerBidder) (hab : a ≠ b)
    (ha : (Aliases.ofRequest request).inScope a (IdSet.ofList [bidder]) = true)
    (hb : (Aliases.ofRequest request).inScope b (IdSet.ofList [bidder]) = true) :
    ¬ WithinLimits settings.maxDealsPerBidder ((sharedDeal a b).findMatching settings .empty
      ⟨request, "account", some [], true, .empty⟩ default (some bidder) (hour 0)).offered := by
  intro hlimits
  have hfirst := mem_offered_sharedDeal "first" hlimit hab (get?_sharedDeal _) ha
  have hsecond := mem_offered_sharedDeal "second" hlimit hab (get?_sharedDeal _) hb
  have hsame := List.inj_on_of_nodup_map hlimits.nodup_dealId hfirst hsecond rfl
  exact hab (congrArg LineItem.source hsame)

end SharedDeal

/-- **The limits hold for a bidder if and only if it has one source**, unless nothing is offered at
all. -/
theorem withinLimits_iff_hasOneSource (settings : MatchSettings) (request : BidRequest)
    (bidder : String) :
    (∀ (r : Registry) (s : Spending) (ctx : AuctionContext) (imp : Impression) (now : Instant),
        r.Valid → ctx.request = request → WithinLimits settings.maxDealsPerBidder
          (r.findMatching settings s ctx imp (some bidder) now).offered) ↔
      settings.maxDealsPerBidder = 0 ∨ (Aliases.ofRequest request).HasOneSource bidder := by
  constructor
  · intro hlimits
    by_contra hnot
    simp only [not_or, Aliases.HasOneSource, not_forall] at hnot
    obtain ⟨hlimit, a, b, ha, hb, hscopea, hscopeb, hab⟩ := hnot
    -- one line item of each source
    exact not_withinLimits_sharedDeal (Nat.pos_of_ne_zero hlimit) hab hscopea hscopeb
      (hlimits _ _ _ _ _ (valid_sharedDeal ha hb) rfl)
  · rintro (hlimit | hone) r s ctx imp now hvalid rfl
    · rw [Registry.offered_eq_nil_of_limit_zero hlimit]
      exact ⟨Nat.zero_le _, List.nodup_nil⟩
    · refine Registry.withinLimits_of_sources_eq fun x hx y hy => ?_
      have hcompetingx := hvalid.competing_of_mem_offered hx
      have hcompetingy := hvalid.competing_of_mem_offered hy
      apply hone
      · exact LineItemRecord.source_ne_of_validate (hvalid.validate_eq hcompetingx.registered)
      · exact LineItemRecord.source_ne_of_validate (hvalid.validate_eq hcompetingy.registered)
      · exact hcompetingx.competes.inScope
      · exact hcompetingy.competes.inScope

/-- A request with an alias of a bidder. -/
def aliasRequest : BidRequest :=
  { (default : BidRequest) with
    ext := some (.obj [("prebid", .obj [("aliases", .obj [("rubiAlias", .str "rubicon")])])]) }

/-- A bidder with an alias is offered two line items of one deal where one line item is allowed. -/
theorem not_forall_withinLimits :
    ¬ ∀ (settings : MatchSettings) (r : Registry) (s : Spending) (ctx : AuctionContext)
        (imp : Impression) (bidder : String) (now : Instant), r.Valid →
      WithinLimits settings.maxDealsPerBidder
        (r.findMatching settings s ctx imp (some bidder) now).offered := by
  intro hlimits
  have h := hlimits { maxDealsPerBidder := 1, catalog := ⟨∅, ∅⟩ } (sharedDeal "rubiAlias" "rubicon")
    .empty ⟨aliasRequest, "account", some [], true, .empty⟩ default "rubicon" (hour 0)
    (valid_sharedDeal (by decide) (by decide))
  have htwo := h.length_le
  revert htwo
  decide +kernel

end DealPacing
