import DealPacing.Proofs.Auction.Arrangement
import DealPacing.Proofs.Auction.Sources
import Mathlib.Data.List.Sort

/-!
# Matching for one bidder

A call for one bidder considers the line items with a source in scope of it, and asks neither
whether the impression names the bidder nor whether the host accepts it. If the bidder is one of
those that the impression is offered to, then the call offers what a call for all of them offers to
the sources in scope of the one. The two calls shuffle apart, so this takes ready line items without
ties.

## Main results

* `Aliases.inScope_iff`: the sources in scope of a set of bidders
* `Registry.readyFor_one`: what is ready for one bidder of the impression
* `Registry.Keyed.offered_one`: what a call for one bidder offers
-/

namespace DealPacing

/-! ## Scope -/

namespace Aliases

variable {aliases : Aliases} {source : String} {bidders bidders' : IdSet}

theorem inScope_iff : aliases.inScope source bidders = true ↔ ∃ bidder ∈ bidders,
    bidder = source ∨ bidder = aliases.resolve source ∨ aliases[bidder]? = some source := by
  rw [inScope, Bool.or_eq_true, Bool.or_eq_true, List.any_eq_true]
  constructor
  · rintro ((hself | hresolved) | ⟨bidder, hmem, halias⟩)
    · exact ⟨source, hself, .inl rfl⟩
    · exact ⟨_, hresolved, .inr (.inl rfl)⟩
    · exact ⟨bidder, Std.ExtTreeSet.mem_toList.mp hmem, .inr (.inr (beq_iff_eq.mp halias))⟩
  · rintro ⟨bidder, hmem, rfl | rfl | halias⟩
    · exact .inl (.inl hmem)
    · exact .inl (.inr hmem)
    · exact .inr ⟨bidder, Std.ExtTreeSet.mem_toList.mpr hmem, beq_iff_eq.mpr halias⟩

/-- More bidders have more sources in scope. -/
theorem inScope_mono (hsub : ∀ bidder ∈ bidders, bidder ∈ bidders')
    (h : aliases.inScope source bidders = true) : aliases.inScope source bidders' = true := by
  obtain ⟨bidder, hmem, hscope⟩ := inScope_iff.mp h
  exact inScope_iff.mpr ⟨bidder, hsub bidder hmem, hscope⟩

end Aliases

/-- The bidders that a call for one bidder and a call for all have in common. -/
theorem inScope_inter_iff {aliases : Aliases} {source b : String} {bidders : IdSet} :
    aliases.inScope source (IdSet.ofList [b] ∩ bidders) = true ↔
      b ∈ bidders ∧ aliases.inScope source (IdSet.ofList [b]) = true := by
  simp only [Aliases.inScope_iff, Std.ExtTreeSet.mem_inter_iff, IdSet.mem_ofList,
    List.mem_singleton]
  constructor
  · rintro ⟨bidder, ⟨rfl, hmem⟩, hscope⟩
    exact ⟨hmem, bidder, rfl, hscope⟩
  · rintro ⟨hmem, bidder, rfl, hscope⟩
    exact ⟨bidder, ⟨rfl, hmem⟩, hscope⟩

/-! ## Line items of some sources -/

section Sources

variable {p : String → Bool} {xs : List LineItem} {source : String}

theorem readyOf_filter (hp : p source = true) :
    readyOf (xs.filter (p ·.source)) source = readyOf xs source := by
  rw [readyOf, readyOf, List.filter_filter]
  refine List.filter_congr fun x _ => ?_
  by_cases hx : x.source = source
  · simp [hx, hp]
  · simp [hx]

theorem sourcesOf_filter : sourcesOf (xs.filter (p ·.source)) = (sourcesOf xs).filter p := by
  have hirrefl : Std.Irrefl fun a b : String => compare a b = .lt := ⟨fun a => by simp⟩
  have hantisymm : Std.Antisymm fun a b : String => compare a b = .lt := by
    refine ⟨fun a b hab hba => ?_⟩
    rw [← Std.OrientedCmp.gt_iff_lt, hab] at hba
    cases hba
  -- both sides are in strictly ascending order, so their members decide
  apply List.Pairwise.eq_of_mem_iff (pairwise_sourcesOf _) ((pairwise_sourcesOf xs).filter p)
  intro source
  simp only [mem_sourcesOf, List.mem_filter]
  constructor
  · rintro ⟨x, ⟨hx, hp⟩, rfl⟩
    exact ⟨⟨x, hx, rfl⟩, hp⟩
  · rintro ⟨⟨x, hx, rfl⟩, hp⟩
    exact ⟨x, ⟨hx, hp⟩, rfl⟩

theorem flatMap_filter_eq {α β : Type} {p : α → Bool} {q : β → Bool} {f : α → List β} {l : List α}
    (h : ∀ a, ∀ b ∈ f a, q b = p a) : (l.filter p).flatMap f = (l.flatMap f).filter q := by
  induction l with
  | nil => rfl
  | cons a rest ih =>
    rw [List.flatMap_cons, List.filter_append, ← ih]
    cases hp : p a with
    | true =>
      have hall : (f a).filter q = f a := List.filter_eq_self.mpr fun b hb => (h a b hb).trans hp
      rw [List.filter_cons_of_pos hp, List.flatMap_cons, hall]
    | false =>
      have hnone : (f a).filter q = [] := by
        rw [List.filter_eq_nil_iff]
        intro b hb
        rw [h a b hb, hp]
        exact Bool.false_ne_true
      rw [List.filter_cons_of_neg (Bool.eq_false_iff.mp hp), hnone, List.nil_append]

/-- Leaving sources out changes nothing for the others. -/
theorem flatMap_offerTo_filter (settings : MatchSettings) (s : Spending) (log : AuctionLog) :
    (sourcesOf (xs.filter (p ·.source))).flatMap
        (offerTo settings s log (xs.filter (p ·.source))) =
      ((sourcesOf xs).flatMap (offerTo settings s log xs)).filter (p ·.source) := by
  have hsource : ∀ source, ∀ x ∈ offerTo settings s log xs source, p x.source = p source := by
    intro source x hx
    rw [(mem_readyOf.mp (mem_readyOf_of_mem_offerTo hx)).2]
  rw [sourcesOf_filter, ← flatMap_filter_eq hsource]
  refine List.flatMap_congr fun source hmem => ?_
  rw [offerTo, offerTo, remaining, remaining, readyOf_filter (List.mem_filter.mp hmem).2]

end Sources

/-- Without ties, what a source is offered does not depend on the shuffle. -/
theorem offerTo_shuffledBy_eq {settings : MatchSettings} {s : Spending} {log : AuctionLog}
    {ready : List LineItem} (shuffle shuffle' : Shuffle) (happart : ToldApart s ready)
    (source : String) : offerTo (settings.shuffledBy shuffle) s log ready source =
      offerTo (settings.shuffledBy shuffle') s log ready source := by
  rw [offerTo, offerTo, remaining, remaining,
    ranking_readyOf_eq shuffle shuffle' (.refl ready) happart source]
  rfl

/-- An impression that names a bidder. -/
def Impression.naming (bidder : String) : Impression :=
  { (default : Impression) with
    ext := some (.obj [("prebid", .obj [("bidder", .obj [(bidder, .obj [])])])]) }

/-- Settings with a bidder that is known. -/
def accepting (bidder : String) : MatchSettings :=
  { maxDealsPerBidder := 3, catalog := ⟨.ofList [bidder], ∅⟩ }

/-- Settings with a bidder that is known, but deprecated. -/
def deprecating (bidder : String) : MatchSettings :=
  { maxDealsPerBidder := 3, catalog := ⟨.ofList [bidder], .ofList [bidder]⟩ }

/-! ## Calls for one bidder -/

namespace Registry

variable {settings : MatchSettings} {s : Spending} {r : Registry} {ctx : AuctionContext}
  {imp : Impression} {now : Instant} {b : String}

/-- What is ready for one bidder of the impression is what is ready for all of them and in scope of
the one. -/
theorem readyFor_one
    (hb : b ∈ imp.bidders settings.catalog (Aliases.ofRequest ctx.request)) :
    r.readyFor settings s ctx imp (some b) now = (r.readyFor settings s ctx imp none now).filter
      fun x => (Aliases.ofRequest ctx.request).inScope x.source (IdSet.ofList [b]) := by
  rw [readyFor, readyFor, readyAmong, readyAmong, List.filter_filter]
  refine List.filter_congr fun x _ => ?_
  have hall : (Aliases.ofRequest ctx.request).inScope x.source (IdSet.ofList [b]) = true →
      (Aliases.ofRequest ctx.request).inScope x.source
        (imp.bidders settings.catalog (Aliases.ofRequest ctx.request)) = true := by
    refine Aliases.inScope_mono fun bidder hbidder => ?_
    obtain rfl := List.mem_singleton.mp (IdSet.mem_ofList.mp hbidder)
    exact hb
  rw [Bool.eq_iff_iff, Bool.and_eq_true]
  simp only [decide_eq_true_eq, LineItem.competes_iff, offeredBidders]
  constructor
  · rintro ⟨⟨hscope, hholds⟩, hready⟩
    exact ⟨hscope, ⟨hall hscope, hholds⟩, hready⟩
  · rintro ⟨hscope, ⟨-, hholds⟩, hready⟩
    exact ⟨⟨hscope, hholds⟩, hready⟩

theorem readyFor_shuffledBy (settings : MatchSettings) (shuffle : Shuffle) (s : Spending)
    (r : Registry) (ctx : AuctionContext) (imp : Impression) (bidder : Option String)
    (now : Instant) : r.readyFor (settings.shuffledBy shuffle) s ctx imp bidder now =
      r.readyFor settings s ctx imp bidder now := by
  rw [readyFor, readyFor, offeredBidders_shuffledBy]

namespace Keyed

/-- Every line item that is offered has a source in scope of the bidders of the call. -/
theorem inScope_of_mem_offered (h : r.Keyed) {bidder : Option String} {x : LineItem}
    (hx : x ∈ (r.findMatching settings s ctx imp bidder now).offered) :
    (Aliases.ofRequest ctx.request).inScope x.source
      (offeredBidders settings ctx.request imp bidder) = true :=
  ((mem_readyFor _ _ _ _ _ _ _).mp (h.mem_readyFor_of_mem_offered hx)).2.1.inScope

/-- A call for one bidder of the impression offers what a call for all offers to the sources in
scope of the one, if both shuffle alike. -/
theorem offered_one_eq_filter (h : r.Keyed)
    (hb : b ∈ imp.bidders settings.catalog (Aliases.ofRequest ctx.request)) :
    (r.findMatching settings s ctx imp (some b) now).offered =
      (r.findMatching settings s ctx imp none now).offered.filter
        fun x => (Aliases.ofRequest ctx.request).inScope x.source (IdSet.ofList [b]) := by
  rw [h.offered_findMatching, h.offered_findMatching, readyFor_one hb]
  exact flatMap_offerTo_filter
    (p := fun source => (Aliases.ofRequest ctx.request).inScope source (IdSet.ofList [b])) _ _ _

/-- Without ties, what a matching call offers does not depend on the shuffle. -/
theorem offered_shuffledBy_eq (h : r.Keyed) (shuffle shuffle' : Shuffle)
    {bidder : Option String} (happart : ToldApart s (r.readyFor settings s ctx imp bidder now)) :
    (r.findMatching (settings.shuffledBy shuffle) s ctx imp bidder now).offered =
      (r.findMatching (settings.shuffledBy shuffle') s ctx imp bidder now).offered := by
  rw [h.offered_findMatching, h.offered_findMatching, readyFor_shuffledBy, readyFor_shuffledBy]
  exact List.flatMap_congr fun source _ => offerTo_shuffledBy_eq shuffle shuffle' happart source

/-- **What a call for one bidder offers**: line items with a source in scope of it. The bidders of
the impression bound the call if and only if the bidder is one of them, or nothing is offered. If it
is one of them and the comparison tells the ready line items apart, then the call offers what a call
for all of them offers to the sources in scope of the one, whatever the two are shuffled like. -/
theorem offered_one (h : r.Keyed) (settings : MatchSettings) (shuffle shuffle' : Shuffle)
    (s : Spending) (ctx : AuctionContext) (imp : Impression) (b : String) (now : Instant) :
    let aliases := Aliases.ofRequest ctx.request
    let bidders := imp.bidders settings.catalog aliases
    let one := (r.findMatching (settings.shuffledBy shuffle) s ctx imp (some b) now).offered
    let all := (r.findMatching (settings.shuffledBy shuffle') s ctx imp none now).offered
    (∀ x ∈ one, aliases.inScope x.source (IdSet.ofList [b]) = true) ∧
      ((∀ x ∈ one, aliases.inScope x.source (IdSet.ofList [b] ∩ bidders) = true) ↔
        b ∈ bidders ∨ one = []) ∧
      (b ∈ bidders → ToldApart s (r.readyFor settings s ctx imp (some b) now) →
        one = all.filter fun x => aliases.inScope x.source (IdSet.ofList [b])) := by
  intro aliases bidders one all
  have hscope : ∀ x ∈ one, aliases.inScope x.source (IdSet.ofList [b]) = true :=
    fun x hx => h.inScope_of_mem_offered hx
  refine ⟨hscope, ?_, fun hb happart => ?_⟩
  · constructor
    · intro hbound
      by_cases hempty : one = []
      · exact .inr hempty
      · -- any line item that is offered tells that the bidder is one of them
        obtain ⟨x, hx⟩ := List.exists_mem_of_ne_nil one hempty
        exact .inl (inScope_inter_iff.mp (hbound x hx)).1
    · rintro (hb | hempty) x hx
      · exact inScope_inter_iff.mpr ⟨hb, hscope x hx⟩
      · rw [hempty] at hx
        cases hx
  · have halike : (r.findMatching (settings.shuffledBy shuffle') s ctx imp (some b) now).offered =
        all.filter fun x => aliases.inScope x.source (IdSet.ofList [b]) :=
      h.offered_one_eq_filter hb
    exact (h.offered_shuffledBy_eq shuffle shuffle' happart).trans halike

/-- A call for a bidder that the impression names and the host accepts. There are two line items,
and only the call for all bidders turns them around before it ranks them. -/
theorem offered_one_reversed :
    let item (id : String) (priority : Int) : LineItem :=
      .eager { twoHours [] [] (hour 0) with
        lineItemId := id, relativePriority := some priority } (some (hour 0))
    let r := (Registry.empty.put (item "a" 1)).put (item "b" 2)
    let kept : Shuffle := ⟨id, fun xs => .refl xs⟩
    let reversed : Shuffle := ⟨List.reverse, List.reverse_perm⟩
    let ctx : AuctionContext := ⟨default, "account", some [], false, .empty⟩
    let imp := Impression.naming "bidder"
    let one := (r.findMatching ((accepting "bidder").shuffledBy kept) .empty ctx imp
      (some "bidder") (hour 0)).offered
    let all := (r.findMatching ((accepting "bidder").shuffledBy reversed) .empty ctx imp none
      (hour 0)).offered
    let ready := r.readyFor (accepting "bidder") .empty ctx imp (some "bidder") (hour 0)
    r.Keyed ∧ ready.map (·.id) = ["a", "b"] ∧
      one = all.filter fun x => (Aliases.ofRequest ctx.request).inScope x.source
        (IdSet.ofList ["bidder"]) := by
  intro item r kept reversed ctx imp one all ready
  have hkeyed : r.Keyed := (valid_empty.toKeyed.put _).put _
  have happart : ToldApart .empty ready := by
    -- the priorities of the two differ
    have hne : compareLineItems .empty (item "a" 1) (item "b" 2) ≠ .eq := by decide
    refine toldApart_of_eq_or_eq (fun x hx => ?_) hne
    have hcandidate : x ∈ r.candidates ctx := ((mem_readyFor _ _ _ _ _ _ _).mp hx).1
    have hget := hkeyed.get?_of_mem_toList ((mem_candidates _ _).mp hcandidate).1
    rw [get?_put, get?_put] at hget
    split at hget
    · exact .inr (Option.some.inj hget).symm
    · split at hget
      · exact .inl (Option.some.inj hget).symm
      · exact absurd hget (by simp [get?, empty])
  obtain ⟨-, -, hfilter⟩ := offered_one hkeyed (accepting "bidder") kept reversed .empty ctx imp
    "bidder" (hour 0)
  exact ⟨hkeyed, by decide +kernel, hfilter (by decide +kernel) happart⟩

/-- A call for a deprecated bidder offers line items, though the impression has no bidders. -/
theorem not_forall_inScope_inter :
    ¬ ∀ (settings : MatchSettings) (s : Spending) (r : Registry) (ctx : AuctionContext)
        (imp : Impression) (b : String) (now : Instant), r.Keyed →
      ∀ x ∈ (r.findMatching settings s ctx imp (some b) now).offered,
        (Aliases.ofRequest ctx.request).inScope x.source
          (IdSet.ofList [b] ∩ imp.bidders settings.catalog (Aliases.ofRequest ctx.request)) =
            true := by
  intro hall
  have hbound := hall (deprecating "bidder") .empty
    (Registry.empty.put (.eager (twoHours [] [] (hour 0)) (some (hour 0))))
    ⟨default, "account", some [], false, .empty⟩ (.naming "bidder") "bidder" (hour 0)
    (valid_empty.toKeyed.put _)
  revert hbound
  decide +kernel

end Keyed

end Registry

end DealPacing
