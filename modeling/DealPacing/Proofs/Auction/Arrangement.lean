import DealPacing.Proofs.Auction.Judgements

/-!
# Matching does not depend on the arrangement

The candidates of an auction come in some order, and the ready line items of a source are shuffled
before they are ranked. Neither shows in what is offered or in the log as long as the comparison
tells the ready line items of each source apart: judging leaves entries that depend on the line item
only, and a ranking without ties is unique.

## Main definitions

* `Shuffle`, `MatchSettings.shuffledBy`: an outcome of shuffling, and settings with it
* `ToldApart`: no two line items of one source are equal in the comparison
* `Selection.Agrees`: two selections with the same offers and the same log

## Main results

* `ranking_eq_of_perm`: a ranking without ties is unique
* `agrees_offerSource`, `agrees_offers`: one source, and all sources
* `agrees_matchLineItems`: a matching call for an impression
-/

namespace DealPacing

/-- What shuffling makes of the line items that are about to be ranked. -/
structure Shuffle where
  arrange : List LineItem → List LineItem
  arrange_perm : ∀ xs, (arrange xs).Perm xs

/-- The settings with an outcome of shuffling. -/
def MatchSettings.shuffledBy (settings : MatchSettings) (shuffle : Shuffle) : MatchSettings :=
  { settings with arrange := shuffle.arrange, arrange_perm := shuffle.arrange_perm }

/-- The comparison tells the line items of each source apart. -/
def ToldApart (s : Spending) (ready : List LineItem) : Prop :=
  ∀ x ∈ ready, ∀ y ∈ ready, x.source = y.source → compareLineItems s x y = .eq → x = y

/-- Two selections with the same offers and the same log. -/
structure Selection.Agrees (sel sel' : Selection) : Prop where
  offered_eq : sel.offered = sel'.offered
  log_eq : sel.log = sel'.log

/-! ## Rankings -/

/-- **A ranking without ties is unique**, whatever the line items were arranged like. -/
theorem ranking_eq_of_perm (settings settings' : MatchSettings) {s : Spending}
    {xs ys : List LineItem} (hperm : xs.Perm ys)
    (happart : ∀ x ∈ xs, ∀ y ∈ xs, compareLineItems s x y = .eq → x = y) :
    ranking settings s xs = ranking settings' s ys := by
  have hxs := ranking_perm settings s xs
  have hys := (ranking_perm settings' s ys).trans hperm.symm
  apply List.Perm.eq_of_pairwise _ (ranking_pairwise settings s xs)
    (ranking_pairwise settings' s ys) (hxs.trans hys.symm)
  intro x y hx hy hxy hyx
  -- neither line item is worse than the other
  have hswap : compareLineItems s y x = (compareLineItems s x y).swap := Std.OrientedCmp.eq_swap
  apply happart x (hxs.mem_iff.mp hx) y (hys.mem_iff.mp hy)
  cases h : compareLineItems s x y with
  | eq => rfl
  | gt => exact absurd h hxy
  | lt =>
    rw [h] at hswap
    exact absurd hswap hyx

/-- Two line items are told apart if they are not equal in the comparison. -/
theorem toldApart_of_eq_or_eq {s : Spending} {ready : List LineItem} {x y : LineItem}
    (hready : ∀ z ∈ ready, z = x ∨ z = y) (hne : compareLineItems s x y ≠ .eq) :
    ToldApart s ready := by
  intro v hv w hw _ heq
  rcases hready v hv with rfl | rfl <;> rcases hready w hw with rfl | rfl
  · rfl
  · exact absurd heq hne
  · exact absurd (Std.OrientedCmp.eq_symm heq) hne
  · rfl

theorem sourcesOf_eq_of_perm {xs ys : List LineItem} (hperm : xs.Perm ys) :
    sourcesOf xs = sourcesOf ys := by
  have hset : IdSet.ofList (xs.map (·.source)) = IdSet.ofList (ys.map (·.source)) := by
    apply Std.ExtTreeSet.ext_mem
    intro source
    simp only [IdSet.mem_ofList, (hperm.map (·.source)).mem_iff]
  rw [sourcesOf, hset, sourcesOf]

/-! ## Offers -/

section Offers

variable {settings : MatchSettings} {s : Spending} {imp : Impression} {ready ready' : List LineItem}
  {sel sel' : Selection}

/-- How the ready line items of a source rank does not depend on the shuffle. -/
theorem ranking_readyOf_eq (shuffle shuffle' : Shuffle) (hperm : ready.Perm ready')
    (happart : ToldApart s ready) (source : String) :
    ranking (settings.shuffledBy shuffle) s (readyOf ready source) =
      ranking (settings.shuffledBy shuffle') s (readyOf ready' source) := by
  apply ranking_eq_of_perm _ _ (hperm.filter _)
  intro x hx y hy
  obtain ⟨hx, hxsource⟩ := mem_readyOf.mp hx
  obtain ⟨hy, hysource⟩ := mem_readyOf.mp hy
  exact happart x hx y hy (hxsource.trans hysource.symm)

/-- **One source**: its offer and the entries it leaves depend on the ranking only. -/
theorem agrees_offerSource (shuffle shuffle' : Shuffle) (hperm : ready.Perm ready')
    (happart : ToldApart s ready) (h : sel.Agrees sel') (source : String) :
    (offerSource (settings.shuffledBy shuffle) s imp ready sel source).Agrees
      (offerSource (settings.shuffledBy shuffle') s imp ready' sel' source) := by
  have hranking : ranking (settings.shuffledBy shuffle) s (readyOf ready source) =
      ranking (settings.shuffledBy shuffle') s (readyOf ready' source) :=
    ranking_readyOf_eq shuffle shuffle' hperm happart source
  have hoffered : (rankedSelection (settings.shuffledBy shuffle) s imp sel.log
      (readyOf ready source)).offered = (rankedSelection (settings.shuffledBy shuffle') s imp
        sel'.log (readyOf ready' source)).offered := by
    rw [offered_rankedSelection, offered_rankedSelection, hranking, h.log_eq]
    rfl
  have hlog : (rankedSelection (settings.shuffledBy shuffle) s imp sel.log
      (readyOf ready source)).log = (rankedSelection (settings.shuffledBy shuffle') s imp
        sel'.log (readyOf ready' source)).log := by
    rw [log_rankedSelection, log_rankedSelection, hranking, h.log_eq]
  constructor
  case offered_eq => rw [offered_offerSource, offered_offerSource, h.offered_eq, hoffered]
  case log_eq => rw [log_offerSource, log_offerSource, hlog, hoffered]

/-- **All sources** of ready line items that are told apart. -/
theorem agrees_offers (shuffle shuffle' : Shuffle) (hperm : ready.Perm ready')
    (happart : ToldApart s ready) (h : sel.Agrees sel') :
    (offers (settings.shuffledBy shuffle) s imp ready sel).Agrees
      (offers (settings.shuffledBy shuffle') s imp ready' sel') := by
  rw [offers, offers, sourcesOf_eq_of_perm hperm]
  exact List.foldl_rel h fun source _ _ _ h =>
    agrees_offerSource shuffle shuffle' hperm happart h source

end Offers

/-! ## Matching calls -/

/-- Shuffling has no part in the choice of the bidders. -/
@[simp] theorem offeredBidders_shuffledBy (settings : MatchSettings) (shuffle : Shuffle)
    (request : BidRequest) (imp : Impression) (bidder : Option String) :
    offeredBidders (settings.shuffledBy shuffle) request imp bidder =
      offeredBidders settings request imp bidder := by
  cases bidder <;> rfl

/-- **Matching does not depend on the arrangement**: with the candidates in any order and after any
shuffle, the same line items are offered in the same order and the log is the same, if the
comparison tells the ready candidates of each source apart. -/
theorem agrees_matchLineItems (settings : MatchSettings) (shuffle shuffle' : Shuffle)
    (s : Spending) {candidates candidates' : List LineItem} (ctx : AuctionContext)
    (imp : Impression) (bidder : Option String) (now : Instant)
    (hperm : candidates.Perm candidates')
    (happart : ToldApart s (readyAmong ctx s imp (offeredBidders settings ctx.request imp bidder)
      now candidates)) :
    (matchLineItems (settings.shuffledBy shuffle) s candidates ctx imp bidder now).Agrees
      (matchLineItems (settings.shuffledBy shuffle') s candidates' ctx imp bidder now) := by
  rw [matchLineItems_eq, matchLineItems_eq, offeredBidders_shuffledBy, offeredBidders_shuffledBy]
  apply agrees_offers shuffle shuffle' (readyAmong_perm hperm) happart
  exact ⟨rfl, log_judgeAll_of_perm hperm⟩

/-- Two candidates in both orders, once in reverse before they are ranked. -/
theorem agrees_matchLineItems_reversed :
    let item (id : String) (priority : Int) : LineItem :=
      .eager { twoHours [] [] (hour 0) with
        lineItemId := id, relativePriority := some priority } (some (hour 0))
    let settings : MatchSettings := { maxDealsPerBidder := 3, catalog := ⟨∅, ∅⟩ }
    let kept : Shuffle := ⟨id, fun xs => .refl xs⟩
    let reversed : Shuffle := ⟨List.reverse, List.reverse_perm⟩
    let ctx : AuctionContext := ⟨default, "account", some [], false, .empty⟩
    let candidates := [item "a" 1, item "b" 2]
    (candidates.Perm candidates.reverse ∧ ToldApart .empty (readyAmong ctx .empty default
      (offeredBidders settings ctx.request default (some "bidder")) (hour 0) candidates)) ∧
    (matchLineItems (settings.shuffledBy kept) .empty candidates ctx default (some "bidder")
      (hour 0)).Agrees (matchLineItems (settings.shuffledBy reversed) .empty candidates.reverse ctx
        default (some "bidder") (hour 0)) := by
  intro item settings kept reversed ctx candidates
  have hperm : candidates.Perm candidates.reverse := (List.reverse_perm candidates).symm
  have happart : ToldApart .empty (readyAmong ctx .empty default
      (offeredBidders settings ctx.request default (some "bidder")) (hour 0) candidates) := by
    -- the priorities of the two differ
    have hne : compareLineItems .empty (item "a" 1) (item "b" 2) ≠ .eq := by decide
    exact toldApart_of_eq_or_eq (fun x hx => List.mem_pair.mp (List.mem_of_mem_filter hx)) hne
  exact ⟨⟨hperm, happart⟩, agrees_matchLineItems settings kept reversed .empty ctx default
    (some "bidder") (hour 0) hperm happart⟩

end DealPacing
