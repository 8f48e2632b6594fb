import DealPacing.Proofs.Auction.Sources
import DealPacing.Proofs.Auction.TopMatches
import Mathlib.Data.List.Dedup

/-!
# When a top match comes back

Only the line items in front of a ranking are passed over as top matches of earlier impressions. So
a line item that an earlier call offered first is offered again as soon as a new line item ranks
ahead of it, unless its deal is taken or there is no room for it.

## Main definitions

* `LineItem.FindsRoom`: what keeps a line item in an offer behind the leading run
* `MatchCall.ranked`: the ready line items of a source, ranked for a call

## Main results

* `mem_take_firstOfEachDeal_iff`: which line items of a ranking are offered
* `MatchCall.mem_offered_again_iff`: when a top match of an earlier call is offered again
* `MatchCall.mem_offered_of_outranked`: a new line item that ranks ahead brings one back
-/

namespace DealPacing

/-! ## Places in an offer -/

/-- Behind the leading run of recorded line items, those ahead have other deals than the line item,
and fewer deals than the limit admits. -/
structure LineItem.FindsRoom (recorded : String → Bool) (limit : Nat) (ahead : List LineItem)
    (x : LineItem) : Prop where
  deal_new : ∀ y ∈ ahead.dropWhile (recorded ·.id), y.dealId ≠ x.dealId
  deals_lt : ((ahead.dropWhile (recorded ·.id)).map (·.dealId)).dedup.length < limit

section Places

variable {seen : List (Option String)} {xs : List LineItem}

theorem mem_map_dealId_firstOfEachDeal {deal : Option String} :
    deal ∈ (firstOfEachDeal seen xs).map (·.dealId) ↔
      deal ∉ seen ∧ deal ∈ xs.map (·.dealId) := by
  induction xs generalizing seen with
  | nil => simp [firstOfEachDeal]
  | cons x rest ih =>
    by_cases hx : x.dealId ∈ seen
    · rw [firstOfEachDeal_cons_of_mem hx, ih, List.map_cons, List.mem_cons]
      constructor
      · rintro ⟨hnew, hmem⟩
        exact ⟨hnew, .inr hmem⟩
      · rintro ⟨hnew, rfl | hmem⟩
        · exact absurd hx hnew
        · exact ⟨hnew, hmem⟩
    · rw [firstOfEachDeal_cons_of_not_mem hx, List.map_cons, List.mem_cons, ih, List.map_cons,
        List.mem_cons, List.mem_cons, not_or]
      constructor
      · rintro (rfl | ⟨⟨-, hnew⟩, hmem⟩)
        · exact ⟨hx, .inl rfl⟩
        · exact ⟨hnew, .inr hmem⟩
      · rintro ⟨hnew, heq | hmem⟩
        · exact .inl heq
        · by_cases heq : deal = x.dealId
          · exact .inl heq
          · exact .inr ⟨⟨heq, hnew⟩, hmem⟩

/-- As many line items are kept as there are deals. -/
theorem length_firstOfEachDeal (xs : List LineItem) :
    (firstOfEachDeal [] xs).length = (xs.map (·.dealId)).dedup.length := by
  rw [← List.length_map (·.dealId)]
  apply List.Perm.length_eq
  -- both lists have each deal once
  rw [List.perm_ext_iff_of_nodup (nodup_dealId_firstOfEachDeal [] xs) (List.nodup_dedup _)]
  intro deal
  rw [mem_map_dealId_firstOfEachDeal, List.mem_dedup]
  simp

/-- A line item that is kept is the first of its deal, and those kept ahead of it come from those
ahead of it. -/
theorem exists_append_of_firstOfEachDeal {front back : List LineItem} {x : LineItem}
    (h : firstOfEachDeal seen xs = front ++ x :: back) :
    ∃ ahead behind, xs = ahead ++ x :: behind ∧ firstOfEachDeal seen ahead = front ∧
      ∀ y ∈ ahead, y.dealId ≠ x.dealId := by
  have hnew : x.dealId ∉ seen := by
    have hx : x ∈ firstOfEachDeal seen xs := by simp [h]
    exact dealId_not_mem_of_mem_firstOfEachDeal hx
  induction xs generalizing seen front with
  | nil => simp [firstOfEachDeal] at h
  | cons y rest ih =>
    by_cases hy : y.dealId ∈ seen
    · -- the line item in front is dropped, and has another deal than the one that is kept
      rw [firstOfEachDeal_cons_of_mem hy] at h
      obtain ⟨ahead, behind, rfl, hfront, hdeals⟩ := ih h hnew
      refine ⟨y :: ahead, behind, rfl, ?_, ?_⟩
      · rw [firstOfEachDeal_cons_of_mem hy, hfront]
      · rw [List.forall_mem_cons]
        exact ⟨fun heq => hnew (heq ▸ hy), hdeals⟩
    · rw [firstOfEachDeal_cons_of_not_mem hy] at h
      cases front with
      | nil =>
        obtain ⟨rfl, -⟩ := List.cons.inj h
        exact ⟨[], rest, rfl, rfl, by simp⟩
      | cons z front =>
        obtain ⟨rfl, hkept⟩ := List.cons.inj h
        -- the deal of the line item in front is taken from there on
        have hnew' : x.dealId ∉ y.dealId :: seen := by
          have hx : x ∈ firstOfEachDeal (y.dealId :: seen) rest := by simp [hkept]
          exact dealId_not_mem_of_mem_firstOfEachDeal hx
        obtain ⟨ahead, behind, rfl, hfront, hdeals⟩ := ih hkept hnew'
        refine ⟨y :: ahead, behind, rfl, ?_, ?_⟩
        · rw [firstOfEachDeal_cons_of_not_mem hy, hfront]
        · rw [List.forall_mem_cons]
          exact ⟨fun heq => hnew' (heq ▸ List.mem_cons_self), hdeals⟩

theorem exists_append_of_mem_take {α : Type} {xs : List α} {n : Nat} {a : α}
    (h : a ∈ xs.take n) : ∃ front back, xs = front ++ a :: back ∧ front.length < n := by
  obtain ⟨front, back, hsplit⟩ := List.append_of_mem h
  refine ⟨front, back ++ xs.drop n, ?_, ?_⟩
  · calc
      xs = xs.take n ++ xs.drop n := (List.take_append_drop n xs).symm
      _ = front ++ a :: (back ++ xs.drop n) := by rw [hsplit, List.append_assoc, List.cons_append]
  · have hlength := List.length_take_le n xs
    rw [hsplit, List.length_append, List.length_cons] at hlength
    omega

/-- **Which line items of a ranking are offered**: those that end the leading run or come behind it,
and find room there. -/
theorem mem_take_firstOfEachDeal_iff {recorded : String → Bool} {limit : Nat}
    {ranked : List LineItem} {x : LineItem} :
    x ∈ (firstOfEachDeal [] (ranked.dropWhile (recorded ·.id))).take limit ↔
      ∃ ahead behind, ranked = ahead ++ x :: behind ∧
        (∃ y ∈ ahead ++ [x], recorded y.id = false) ∧ x.FindsRoom recorded limit ahead := by
  constructor
  · intro hx
    -- from the cut back to the first of each deal, to what is left, to the ranking
    obtain ⟨front, back, hkept, hlength⟩ := exists_append_of_mem_take hx
    obtain ⟨rest, behind, hleft, rfl, hdeals⟩ := exists_append_of_firstOfEachDeal hkept
    obtain ⟨ahead, hranked, rfl, hends⟩ := exists_append_of_dropWhile_eq hleft
    rw [length_firstOfEachDeal] at hlength
    exact ⟨ahead, behind, hranked, hends, hdeals, hlength⟩
  · rintro ⟨ahead, behind, rfl, ⟨y, hy, hends⟩, hdeals, hlength⟩
    have hrun : ¬ ∀ y ∈ ahead ++ [x], recorded y.id = true := fun hall => by
      rw [hall y hy] at hends
      cases hends
    rw [dropWhile_append_cons_of_not_forall hrun]
    obtain ⟨rest, hrest⟩ := firstOfEachDeal_append_cons behind
      (List.not_mem_nil (a := x.dealId)) hdeals
    rw [hrest]
    by_contra hnot
    -- the cut leaves room for every deal ahead, and so for this one
    have hcut := le_length_of_not_mem_take hnot
    rw [length_firstOfEachDeal] at hcut
    omega

end Places

/-! ## Top matches of earlier calls -/

namespace MatchCall

/-- The line items that are ready for a call. -/
def ready (c : MatchCall) (ctx : AuctionContext) : List LineItem :=
  c.engine.registry.readyFor c.engine.settings c.engine.spending ctx c.imp c.bidder c.now

/-- The ready line items of a source, ranked for a call. -/
def ranked (c : MatchCall) (ctx : AuctionContext) (source : String) : List LineItem :=
  ranking c.engine.settings c.engine.spending (readyOf (c.ready ctx) source)

/-- The line items that a call offers are those that end the leading run of their source or come
behind it, and find room there. -/
theorem mem_offered_iff (c : MatchCall) (ctx : AuctionContext) (x : LineItem)
    (hkeyed : c.engine.registry.Keyed) :
    x ∈ (c.run ctx).offered ↔ ∃ ahead behind, c.ranked ctx x.source = ahead ++ x :: behind ∧
      (∃ y ∈ ahead ++ [x], ctx.log.isTopMatch y.id = false) ∧
      x.FindsRoom ctx.log.isTopMatch c.engine.settings.maxDealsPerBidder ahead := by
  rw [run, Engine.findMatching, hkeyed.mem_offered_iff]
  exact mem_take_firstOfEachDeal_iff

/-- Only line items that are ready are offered. -/
theorem mem_ready_of_mem_offered (c : MatchCall) (ctx : AuctionContext) {x : LineItem}
    (hkeyed : c.engine.registry.Keyed) (hx : x ∈ (c.run ctx).offered) : x ∈ c.ready ctx := by
  rw [run, Engine.findMatching] at hx
  exact hkeyed.mem_readyFor_of_mem_offered hx

/-- **When a top match comes back**: a line item that a call offered first is offered again by a
later call of the auction if and only if it is ready then, a line item of its source that is no top
match yet ranks ahead of it, and it finds room behind the leading run. -/
theorem mem_offered_again_iff (ctx : AuctionContext) (earlier : List MatchCall) (c : MatchCall)
    (x : LineItem) (hkeyed : c.engine.registry.Keyed)
    (htop : ∃ sel ∈ (ctx.matchAll earlier).1, ∃ source top, sel.first? source = some top ∧
      top.id = x.id) :
    let again := { ctx with log := (ctx.matchAll earlier).2 }
    x ∈ (c.run again).offered ↔
      ∃ ahead behind, c.ranked again x.source = ahead ++ x :: behind ∧
        (∃ y ∈ ahead, again.log.isTopMatch y.id = false) ∧
        x.FindsRoom again.log.isTopMatch c.engine.settings.maxDealsPerBidder ahead := by
  intro again
  obtain ⟨sel, hsel, source, top, hfirst, hid⟩ := htop
  have hrecorded : again.log.isTopMatch x.id = true := by
    rw [← hid]
    exact (ctx.topMatches_matchAll earlier).isTopMatch_of_first? hsel hfirst
  rw [c.mem_offered_iff again x hkeyed]
  -- the line item itself does not end the leading run
  have hends : ∀ ahead : List LineItem,
      (∃ y ∈ ahead ++ [x], again.log.isTopMatch y.id = false) ↔
        ∃ y ∈ ahead, again.log.isTopMatch y.id = false := by
    intro ahead
    rw [exists_mem_concat, hrecorded]
    simp
  simp only [hends]

/-- A line item that was top match comes back behind one that only the second impression admits. -/
theorem mem_offered_again_iff_outranked :
    let items := [mediaItem "first" 2 ["banner", "video"], mediaItem "second" 1 ["video"]]
    let video := mediaCall items false true
    let x := mediaItem "first" 2 ["banner", "video"]
    let earlier := mediaAuction.matchAll [mediaCall items true false]
    let again := { mediaAuction with log := earlier.2 }
    (video.engine.registry.Keyed ∧ ∃ sel ∈ earlier.1, ∃ source top,
      sel.first? source = some top ∧ top.id = x.id) ∧
    (x ∈ (video.run again).offered ↔
      ∃ ahead behind, video.ranked again x.source = ahead ++ x :: behind ∧
        (∃ y ∈ ahead, again.log.isTopMatch y.id = false) ∧
        x.FindsRoom again.log.isTopMatch video.engine.settings.maxDealsPerBidder ahead) := by
  intro items video x earlier again
  have hkeyed : video.engine.registry.Keyed := keyed_mediaRegistry items
  have hfirst : (((mediaCall items true false).run mediaAuction).first? "bidder").map (·.id) =
      some x.id := by decide +kernel
  have htop : ∃ sel ∈ earlier.1, ∃ source top, sel.first? source = some top ∧ top.id = x.id :=
    ⟨_, List.mem_cons_self, "bidder", Option.map_eq_some_iff.mp hfirst⟩
  exact ⟨⟨hkeyed, htop⟩, mem_offered_again_iff mediaAuction _ video x hkeyed htop⟩

/-- A new line item that ranks ahead brings a line item back, if the ready line items of the source
have different deals and are no more than the limit admits. -/
theorem mem_offered_of_outranked (c : MatchCall) (ctx : AuctionContext) {x y : LineItem}
    (hkeyed : c.engine.registry.Keyed) (hx : x ∈ c.ready ctx)
    (hy : y ∈ readyOf (c.ready ctx) x.source) (hnew : ctx.log.isTopMatch y.id = false)
    (hahead : compareLineItems c.engine.spending y x = .lt)
    (hdeals : ((readyOf (c.ready ctx) x.source).map (·.dealId)).Nodup)
    (hlimit : (readyOf (c.ready ctx) x.source).length ≤ c.engine.settings.maxDealsPerBidder) :
    x ∈ (c.run ctx).offered := by
  have hperm : (c.ranked ctx x.source).Perm (readyOf (c.ready ctx) x.source) :=
    ranking_perm _ _ _
  have hxready : x ∈ readyOf (c.ready ctx) x.source := mem_readyOf.mpr ⟨hx, rfl⟩
  obtain ⟨ahead, behind, hranked⟩ := List.append_of_mem (hperm.mem_iff.mpr hxready)
  have hyahead : y ∈ ahead := mem_ahead_of_compare_lt hranked hy hahead
  have hlength := hperm.length_eq
  rw [hranked, List.length_append, List.length_cons] at hlength
  have hdeal : ((c.ranked ctx x.source).map (·.dealId)).Nodup :=
    (hperm.map _).nodup_iff.mpr hdeals
  rw [hranked, List.map_append, List.map_cons, List.nodup_append] at hdeal
  rw [c.mem_offered_iff ctx x hkeyed]
  refine ⟨ahead, behind, hranked, ⟨y, List.mem_append_left _ hyahead, hnew⟩, ?_, ?_⟩
  · intro z hz
    apply hdeal.2.2
    · exact List.mem_map_of_mem (List.dropWhile_subset _ hz)
    · exact List.mem_cons_self
  · have hrest := (List.dropWhile_sublist (ctx.log.isTopMatch ·.id) (l := ahead)).length_le
    have hdistinct := (List.dedup_sublist
      ((ahead.dropWhile (ctx.log.isTopMatch ·.id)).map (·.dealId))).length_le
    rw [List.length_map] at hdistinct
    omega

/-- Line items of a media auction that compete and pass every gate are ready. -/
theorem subset_ready_mediaCall {items xs : List LineItem} (hids : (items.map (·.id)).Nodup)
    (hxs : xs ⊆ items) (banner video : Bool) {ctx : AuctionContext}
    (hctx : ctx.accountId = "account") (hall : ∀ x ∈ xs, x.accountId = "account" ∧
      x.Competes ctx (mediaCall items banner video).imp (IdSet.ofList ["bidder"]) ∧
      x.EndsAt ctx .empty (hour 0) .ready) : xs ⊆ (mediaCall items banner video).ready ctx := by
  intro x hx
  obtain ⟨haccount, hcompetes, hends⟩ := hall x hx
  have hmem : x ∈ (mediaRegistry items).toList :=
    (keyed_mediaRegistry items).mem_toList_iff.mpr (get?_mediaRegistry hids x (hxs hx))
  have htrim : Text.trim ctx.accountId = "account" := by rw [hctx]; decide
  have hcandidate : x ∈ (mediaRegistry items).candidates ctx :=
    (Registry.mem_candidates _ _).mpr ⟨hmem, by rw [htrim]; decide, by rw [htrim, haccount]⟩
  exact (Registry.mem_readyFor _ _ _ _ _ _ _).mpr ⟨hcandidate, hcompetes, hends⟩

/-- A top match is not always passed over: it is offered again behind a new line item. -/
theorem not_forall_not_mem_offered_again :
    ¬ ∀ (ctx : AuctionContext) (first second : MatchCall) (source : String) (x y : LineItem),
      first.engine.registry.Keyed → second.engine.registry.Keyed →
      (first.run ctx).first? source = some x →
      y ∈ (second.run { ctx with log := (first.run ctx).log }).offered → y.id ≠ x.id := by
  intro hall
  let items := [mediaItem "first" 2 ["banner", "video"], mediaItem "second" 1 ["video"]]
  let video := mediaCall items false true
  let again := { mediaAuction with log := ((mediaCall items true false).run mediaAuction).log }
  have hfirst : (((mediaCall items true false).run mediaAuction).first? "bidder").map (·.id) =
      some "first" := by decide +kernel
  obtain ⟨x, hx, hid⟩ := Option.map_eq_some_iff.mp hfirst
  have hready : items ⊆ video.ready again :=
    subset_ready_mediaCall (by decide) (List.Subset.refl items) false true rfl (by decide +kernel)
  have hagain : mediaItem "first" 2 ["banner", "video"] ∈ (video.run again).offered := by
    apply mem_offered_of_outranked (y := mediaItem "second" 1 ["video"]) video again
      (keyed_mediaRegistry items)
    · exact hready (by simp [items])
    · exact mem_readyOf.mpr ⟨hready (by simp [items]), rfl⟩
    · decide +kernel
    · decide +kernel
    · decide +kernel
    · decide +kernel
  exact hall mediaAuction (mediaCall items true false) video "bidder" x _
    (keyed_mediaRegistry items) (keyed_mediaRegistry items) hx hagain hid.symm

end MatchCall

end DealPacing
