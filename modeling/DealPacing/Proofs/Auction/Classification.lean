import DealPacing.Proofs.Auction.Candidates

/-!
# Every candidate is filed once

After a matching call the auction log tells of every competing line item of the auction's account
where it ended, and of no other line item. The line items that the call returns are the ones that
the log lists as sent, each under its own source.

## Main definitions

* `Registry.Competing`: a line item of the account competes for the impression
* `Classified`: what a matching call on an empty log returns and records

## Main results

* `Registry.findMatching_classified`: every matching call files the competing line items
-/

namespace DealPacing

/-- The line item registered under the id belongs to the auction's account and competes. -/
structure Registry.Competing (r : Registry) (ctx : AuctionContext) (imp : Impression)
    (bidders : IdSet) (id : String) (x : LineItem) : Prop where
  registered : r.get? id = some x
  account_ne : Text.trim ctx.accountId ≠ ""
  account_eq : x.accountId = Text.trim ctx.accountId
  competes : x.Competes ctx imp bidders

/-- A selection that files every competing line item once, returns ready ones only, and lists what
it returns under its source. -/
structure Classified (s : Spending) (r : Registry) (ctx : AuctionContext) (imp : Impression)
    (bidders : IdSet) (now : Instant) (sel : Selection) : Prop where
  /-- The competing line items are filed as matched. -/
  matched : ∀ id, id ∈ sel.log.matchedWhole ↔ ∃ x, r.Competing ctx imp bidders id x
  /-- Each is filed where it ends. -/
  ended : ∀ o id, id ∈ sel.log.ended o ↔
    ∃ x, r.Competing ctx imp bidders id x ∧ x.EndsAt ctx s now o
  matched_iff_ended : ∀ id, id ∈ sel.log.matchedWhole ↔ ∃ o, id ∈ sel.log.ended o
  ended_disjoint : ∀ o o' id, id ∈ sel.log.ended o → id ∈ sel.log.ended o' → o = o'
  /-- What is returned is registered and ready. -/
  offered_ready : ∀ x ∈ sel.offered, r.get? x.id = some x ∧ x.id ∈ sel.log.readyToServe
  /-- What is returned is listed as sent, each line item under its own source. -/
  sent : ∀ source id, id ∈ sel.log.sentToBidder.getD source ∅ ↔
    ∃ x ∈ sel.offered, x.source = source ∧ x.id = id
  top_offered : ∀ source id, id ∈ sel.log.sentToBidderAsTopMatch.getD source ∅ →
    ∃ x ∈ sel.offered, x.source = source ∧ x.id = id

/-! ## What the offers leave -/

namespace Offering

variable {settings : MatchSettings} {s : Spending} {ready : List LineItem} {base : AuctionLog}
  {done : List String} {sel : Selection}

theorem matchedWhole_eq (h : Offering settings s ready base done sel) :
    sel.log.matchedWhole = base.matchedWhole := by
  obtain ⟨_, _, _, hlog⟩ := h.others
  rw [hlog]

theorem ended_eq (h : Offering settings s ready base done sel) (o : Outcome) :
    sel.log.ended o = base.ended o := by
  obtain ⟨_, _, _, hlog⟩ := h.others
  rw [hlog]
  cases o <;> rfl

end Offering

namespace Judging

variable {ctx : AuctionContext} {s : Spending} {imp : Impression} {bidders : IdSet} {now : Instant}
  {base : AuctionLog} {done : List LineItem} {j : Judged}

theorem sentToBidder_eq (h : Judging ctx s imp bidders now base done j) :
    j.log.sentToBidder = base.sentToBidder := by
  obtain ⟨_, _, _, _, _, _, hlog⟩ := h.others
  rw [hlog]

theorem sentToBidderAsTopMatch_eq (h : Judging ctx s imp bidders now base done j) :
    j.log.sentToBidderAsTopMatch = base.sentToBidderAsTopMatch := by
  obtain ⟨_, _, _, _, _, _, hlog⟩ := h.others
  rw [hlog]

/-- Judging makes no line item a top match. -/
theorem isTopMatch_eq (h : Judging ctx s imp bidders now base done j) (id : String) :
    j.log.isTopMatch id = base.isTopMatch id := by
  rw [AuctionLog.isTopMatch, AuctionLog.isTopMatch, h.sentToBidderAsTopMatch_eq]

end Judging

/-! ## Candidates by their ids -/

namespace Registry

variable {r : Registry} {ctx : AuctionContext} {s : Spending} {imp : Impression} {bidders : IdSet}
  {now : Instant} {id : String} {x y : LineItem}

theorem Competing.unique (hx : r.Competing ctx imp bidders id x)
    (hy : r.Competing ctx imp bidders id y) : x = y :=
  Option.some.inj (hx.registered.symm.trans hy.registered)

/-- A candidate is the line item of its id. -/
theorem Keyed.competing_iff (h : r.Keyed) : r.Competing ctx imp bidders id x ↔
    x ∈ r.candidates ctx ∧ x.Competes ctx imp bidders ∧ x.id = id := by
  rw [mem_candidates]
  constructor
  · rintro ⟨hget, hne, haccount, hcompetes⟩
    obtain rfl := h.id_eq hget
    exact ⟨⟨h.mem_toList_iff.mpr hget, hne, haccount⟩, hcompetes, rfl⟩
  · rintro ⟨⟨hmem, hne, haccount⟩, hcompetes, rfl⟩
    exact ⟨h.get?_of_mem_toList hmem, hne, haccount, hcompetes⟩

/-- What judging the candidates and making the offers yields, from an empty log on. -/
theorem Keyed.classified (h : r.Keyed) {settings : MatchSettings} {j : Judged} {sel : Selection}
    (hjudged : Judging ctx s imp bidders now .empty (r.candidates ctx) j)
    (hoffered : Offering settings s j.ready j.log (sourcesOf j.ready) sel) :
    Classified s r ctx imp bidders now sel := by
  have hmatched : ∀ id, id ∈ sel.log.matchedWhole ↔ ∃ x, r.Competing ctx imp bidders id x := by
    intro id
    have hnone : id ∉ AuctionLog.empty.matchedWhole := Std.ExtTreeSet.not_mem_empty
    rw [hoffered.matchedWhole_eq, hjudged.matched, or_iff_right hnone]
    simp only [h.competing_iff]
  have hended : ∀ o id, id ∈ sel.log.ended o ↔
      ∃ x, r.Competing ctx imp bidders id x ∧ x.EndsAt ctx s now o := by
    intro o id
    have hnone : id ∉ AuctionLog.empty.ended o := by
      cases o <;> exact Std.ExtTreeSet.not_mem_empty
    rw [hoffered.ended_eq, hjudged.ended, or_iff_right hnone]
    refine exists_congr fun x => ?_
    rw [h.competing_iff]
    constructor
    · rintro ⟨hmem, ⟨hcompetes, hend⟩, hid⟩
      exact ⟨⟨hmem, hcompetes, hid⟩, hend⟩
    · rintro ⟨⟨hmem, hcompetes, hid⟩, hend⟩
      exact ⟨hmem, ⟨hcompetes, hend⟩, hid⟩
  have hsent : ∀ source id, id ∈ sel.log.sentToBidder.getD source ∅ ↔
      ∃ x ∈ sel.offered, x.source = source ∧ x.id = id := by
    intro source id
    rw [hoffered.sent, hjudged.sentToBidder_eq]
    have hnone : id ∉ AuctionLog.empty.sentToBidder.getD source ∅ := by simp [AuctionLog.empty]
    rw [or_iff_right hnone]
    simp only [Selection.mem_ofSource, and_assoc]
  constructor
  case matched => exact hmatched
  case ended => exact hended
  case matched_iff_ended =>
    intro id
    rw [hmatched]
    constructor
    · rintro ⟨x, hx⟩
      exact ⟨_, (hended _ _).mpr ⟨x, hx, LineItem.endsAt_outcome_gate ctx s now x⟩⟩
    · rintro ⟨o, ho⟩
      obtain ⟨x, hx, -⟩ := (hended o id).mp ho
      exact ⟨x, hx⟩
  case ended_disjoint =>
    intro o o' id ho ho'
    obtain ⟨x, hx, hend⟩ := (hended o id).mp ho
    obtain ⟨y, hy, hend'⟩ := (hended o' id).mp ho'
    -- the id names one line item, and a line item ends at one place only
    obtain rfl := hx.unique hy
    exact hend.unique hend'
  case offered_ready =>
    intro x hx
    obtain ⟨hmem, hcompetes, hready⟩ := (hjudged.ready x).mp (hoffered.mem_ready hx)
    have hcompeting := h.competing_iff.mpr ⟨hmem, hcompetes, rfl⟩
    exact ⟨hcompeting.registered, (hended .ready x.id).mpr ⟨x, hcompeting, hready⟩⟩
  case sent => exact hsent
  case top_offered =>
    intro source id hid
    rw [hoffered.tops, hjudged.sentToBidderAsTopMatch_eq] at hid
    rcases hid with hnone | ⟨x, hfirst, rfl⟩
    · simp [AuctionLog.empty] at hnone
    · obtain ⟨hmem, hsource⟩ := Selection.mem_ofSource.mp (List.mem_of_head? hfirst)
      exact ⟨x, hmem, hsource, rfl⟩

/-- **Every competing line item is filed once**, by the first gate that it fails, and what is
returned is ready and listed as sent under its source. -/
theorem findMatching_classified (settings : MatchSettings) (s : Spending) (r : Registry)
    (ctx : AuctionContext) (imp : Impression) (bidder : Option String) (now : Instant)
    (h : r.Keyed) (hlog : ctx.log = .empty) :
    Classified s r ctx imp (offeredBidders settings ctx.request imp bidder) now
      (r.findMatching settings s ctx imp bidder now) := by
  obtain ⟨j, hjudged, hoffered⟩ := r.exists_matching settings s ctx imp bidder now
  rw [hlog] at hjudged
  exact h.classified hjudged hoffered

/-- Three line items that end at different places. -/
theorem findMatching_classified_threeEnds :
    let item (id : String) (caps : List FrequencyCap) (readyAt : Option Instant) : LineItem :=
      .eager { twoHours [] [] (hour 0) with lineItemId := id, frequencyCaps := caps } readyAt
    let r := ((Registry.empty.put (item "a" [⟨"cap", 1, 1, "day"⟩] (some (hour 0)))).put
      (item "b" [] none)).put (item "c" [] (some (hour 0)))
    let ctx : AuctionContext := ⟨default, " account ", some ["cap"], false, .empty⟩
    let settings : MatchSettings := { maxDealsPerBidder := 3, catalog := ⟨∅, ∅⟩ }
    let sel := r.findMatching settings .empty ctx default (some "bidder") (hour 0)
    (r.Keyed ∧ ctx.log = .empty) ∧
      Classified .empty r ctx default (offeredBidders settings ctx.request default (some "bidder"))
        (hour 0) sel ∧
      [Outcome.capped, .deferred, .ready].map (fun o => (sel.log.ended o).toList) =
        [["a"], ["b"], ["c"]] := by
  intro item r ctx settings sel
  have hkeyed : r.Keyed := (((valid_empty.put rfl).put rfl).put rfl).toKeyed
  refine ⟨⟨hkeyed, rfl⟩, ?_, by decide +kernel⟩
  exact findMatching_classified settings .empty r ctx default (some "bidder") (hour 0) hkeyed rfl

end Registry

end DealPacing
