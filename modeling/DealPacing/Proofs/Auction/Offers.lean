import DealPacing.Proofs.Auction.Selection
import DealPacing.Proofs.Loops

/-!
# The offers of all sources

A matching call goes through the sources of the ready line items in ascending order, makes an offer
for each, and records it in the auction's log. So the line items that a call returns fall apart into
one offer for each source, and the log tells of each source what was offered and what came first.

## Main definitions

* `Selection.ofSource`, `Selection.first?`: what a selection offers to a source, and what first
* `Recorded`: what counts as top match before when the turn of a source comes
* `Offering`: what holds while the sources are gone through

## Main results

* `Offering.offerSource`, `offering_offers`: one offer, and all offers
* `offers_justified`: every offer is justified
-/

namespace DealPacing

/-! ## Entries of the log -/

theorem IdSet.mem_ofList {ids : List String} {id : String} : id ∈ IdSet.ofList ids ↔ id ∈ ids := by
  rw [ofList, Std.ExtTreeSet.mem_ofList, List.contains_iff_mem]

theorem IdMap.mem_addTo {m : IdMap IdSet} {key id k : String} :
    k ∈ m.addTo key id ↔ key = k ∨ k ∈ m := by
  simp [addTo, Std.ExtTreeMap.mem_insert]

theorem IdMap.mem_getD_addTo {m : IdMap IdSet} {key id k i : String} :
    i ∈ (m.addTo key id).getD k ∅ ↔ i ∈ m.getD k ∅ ∨ key = k ∧ id = i := by
  rw [addTo, Std.ExtTreeMap.getD_insert]
  by_cases hk : key = k
  · subst hk
    simp [or_comm]
  · simp [hk]

namespace AuctionLog

theorem isTopMatch_iff {log : AuctionLog} {id : String} :
    log.isTopMatch id = true ↔ ∃ source, id ∈ log.sentToBidderAsTopMatch.getD source ∅ := by
  rw [isTopMatch, List.any_eq_true]
  constructor
  · rintro ⟨⟨source, ids⟩, hmem, hid⟩
    rw [Std.ExtTreeMap.mem_toList_iff_getElem?_eq_some] at hmem
    refine ⟨source, ?_⟩
    rw [Std.ExtTreeMap.getD_eq_getD_getElem?, hmem]
    exact hid
  · rintro ⟨source, hid⟩
    rw [Std.ExtTreeMap.getD_eq_getD_getElem?] at hid
    cases hget : log.sentToBidderAsTopMatch[source]? with
    | none =>
      rw [hget] at hid
      exact absurd hid Std.ExtTreeSet.not_mem_empty
    | some ids =>
      rw [hget] at hid
      exact ⟨(source, ids), Std.ExtTreeMap.mem_toList_iff_getElem?_eq_some.mpr hget, hid⟩

/-- Losses touch no other heading. -/
theorem exists_recordLosses (log : AuctionLog) (ahead : List String) (xs : List LineItem) :
    ∃ lost, recordLosses log ahead xs = { log with lostMatchingTo := lost } := by
  induction xs generalizing log ahead with
  | nil => exact ⟨_, rfl⟩
  | cons x rest ih =>
    rw [recordLosses]
    split
    · exact ih log _
    · exact ih _ _

theorem exists_foldl_recordSentToBidder (log : AuctionLog) (source : String)
    (xs : List LineItem) : ∃ sent,
      xs.foldl (fun log x => log.recordSentToBidder source x.id) log =
          { log with sentToBidder := sent } ∧
        ∀ k id, id ∈ sent.getD k ∅ ↔
          id ∈ log.sentToBidder.getD k ∅ ∨ source = k ∧ ∃ x ∈ xs, x.id = id := by
  induction xs generalizing log with
  | nil => exact ⟨_, rfl, by simp⟩
  | cons x rest ih =>
    obtain ⟨sent, hlog, hsent⟩ := ih (log.recordSentToBidder source x.id)
    refine ⟨sent, hlog, fun k id => ?_⟩
    simp only [hsent, recordSentToBidder, IdMap.mem_getD_addTo, List.exists_mem_cons_iff]
    grind

/-- An offer is recorded under its source, its first line item also as top match. -/
theorem exists_recordOffer (log : AuctionLog) (source : String) (offered : List LineItem) :
    ∃ sent tops,
      log.recordOffer source offered =
          { log with sentToBidder := sent, sentToBidderAsTopMatch := tops } ∧
        (∀ k id, id ∈ sent.getD k ∅ ↔
          id ∈ log.sentToBidder.getD k ∅ ∨ source = k ∧ ∃ x ∈ offered, x.id = id) ∧
        (∀ k id, id ∈ tops.getD k ∅ ↔ id ∈ log.sentToBidderAsTopMatch.getD k ∅ ∨
          source = k ∧ ∃ x, offered.head? = some x ∧ x.id = id) ∧
        ∀ k, k ∈ tops ↔
          k ∈ log.sentToBidderAsTopMatch ∨ source = k ∧ offered.head?.isSome := by
  cases offered with
  | nil => exact ⟨_, _, rfl, by simp, by simp, by simp⟩
  | cons top rest =>
    obtain ⟨sent, hlog, hsent⟩ := exists_foldl_recordSentToBidder
      (log.recordSentToBidderAsTopMatch source top.id) source (top :: rest)
    refine ⟨sent, _, hlog, hsent, fun k id => ?_, fun k => ?_⟩
    · simp [recordSentToBidderAsTopMatch, IdMap.mem_getD_addTo]
    · simp [recordSentToBidderAsTopMatch, IdMap.mem_addTo, or_comm]

end AuctionLog

/-! ## Sources -/

theorem mem_sourcesOf {xs : List LineItem} {source : String} :
    source ∈ sourcesOf xs ↔ ∃ x ∈ xs, x.source = source := by
  rw [sourcesOf, Std.ExtTreeSet.mem_toList, IdSet.mem_ofList, List.mem_map]

theorem pairwise_sourcesOf (xs : List LineItem) :
    (sourcesOf xs).Pairwise fun a b => compare a b = .lt :=
  Std.ExtTreeSet.ordered_toList

/-- What a selection offers to a source, best first. -/
def Selection.ofSource (sel : Selection) (source : String) : List LineItem :=
  sel.offered.filter (·.source == source)

/-- The line item that a selection offers first to a source. -/
def Selection.first? (sel : Selection) (source : String) : Option LineItem :=
  (sel.ofSource source).head?

theorem Selection.mem_ofSource {sel : Selection} {source : String} {x : LineItem} :
    x ∈ sel.ofSource source ↔ x ∈ sel.offered ∧ x.source = source := by
  simp [ofSource]

/-- The ready line items of a source. -/
def readyOf (ready : List LineItem) (source : String) : List LineItem :=
  ready.filter (·.source == source)

theorem mem_readyOf {ready : List LineItem} {source : String} {x : LineItem} :
    x ∈ readyOf ready source ↔ x ∈ ready ∧ x.source = source := by
  simp [readyOf]

/-! ## One offer after the other -/

/-- A line item counts as top match before when the turn of its source comes: it was recorded before
the call, or the call has offered it first to an earlier source. -/
def Recorded (base : AuctionLog) (sel : Selection) (source id : String) : Prop :=
  base.isTopMatch id = true ∨
    ∃ earlier x, compare earlier source = .lt ∧ sel.first? earlier = some x ∧ x.id = id

/-- What holds when the sources `done` have been gone through, from the log `base` on. -/
structure Offering (settings : MatchSettings) (s : Spending) (ready : List LineItem)
    (base : AuctionLog) (done : List String) (sel : Selection) : Prop where
  source_mem : ∀ x ∈ sel.offered, x.source ∈ done
  justified : ∀ source ∈ done, Justified s (Recorded base sel source) settings.maxDealsPerBidder
    (readyOf ready source) (ranking settings s (readyOf ready source)) (sel.ofSource source)
  sent : ∀ source id, id ∈ sel.log.sentToBidder.getD source ∅ ↔
    id ∈ base.sentToBidder.getD source ∅ ∨ ∃ x ∈ sel.ofSource source, x.id = id
  tops : ∀ source id, id ∈ sel.log.sentToBidderAsTopMatch.getD source ∅ ↔
    id ∈ base.sentToBidderAsTopMatch.getD source ∅ ∨ ∃ x, sel.first? source = some x ∧ x.id = id
  topSources : ∀ source, source ∈ sel.log.sentToBidderAsTopMatch ↔
    source ∈ base.sentToBidderAsTopMatch ∨ (sel.first? source).isSome
  others : ∃ lost sent tops, sel.log = { base with
    lostMatchingTo := lost, sentToBidder := sent, sentToBidderAsTopMatch := tops }

namespace Offering

variable {settings : MatchSettings} {s : Spending} {ready : List LineItem} {base : AuctionLog}
  {done : List String} {sel : Selection}

theorem start (settings : MatchSettings) (s : Spending) (ready : List LineItem) (base : AuctionLog)
    (events : List Event) : Offering settings s ready base [] ⟨[], base, events⟩ where
  source_mem := by simp
  justified := by simp
  sent := by simp [Selection.ofSource]
  tops := by simp [Selection.first?, Selection.ofSource]
  topSources := by simp [Selection.first?, Selection.ofSource]
  others := ⟨_, _, _, rfl⟩

theorem isTopMatch_iff (h : Offering settings s ready base done sel) {id : String} :
    sel.log.isTopMatch id = true ↔
      base.isTopMatch id = true ∨ ∃ source x, sel.first? source = some x ∧ x.id = id := by
  simp only [AuctionLog.isTopMatch_iff, h.tops, exists_or]

theorem ofSource_eq_nil (h : Offering settings s ready base done sel) {source : String}
    (hnew : source ∉ done) : sel.ofSource source = [] := by
  rw [Selection.ofSource, List.filter_eq_nil_iff]
  intro x hx
  simp only [beq_iff_eq]
  rintro rfl
  exact hnew (h.source_mem x hx)

theorem mem_done_of_first? (h : Offering settings s ready base done sel) {source : String}
    {x : LineItem} (hx : sel.first? source = some x) : source ∈ done := by
  by_contra hnew
  rw [Selection.first?, h.ofSource_eq_nil hnew] at hx
  cases hx

end Offering

section Step

variable {settings : MatchSettings} {s : Spending} {imp : Impression} {ready : List LineItem}
  {base : AuctionLog} {done : List String} {sel : Selection} {source : String}

theorem source_eq_of_mem_rankedSelection {log : AuctionLog} {x : LineItem}
    (hx : x ∈ (rankedSelection settings s imp log (readyOf ready source)).offered) :
    x.source = source :=
  (mem_readyOf.mp ((rankedSelection_justified settings s imp log _ fun _ => .rfl).mem_ready hx)).2

theorem offered_offerSource (settings : MatchSettings) (s : Spending) (imp : Impression)
    (ready : List LineItem) (sel : Selection) (source : String) :
    (offerSource settings s imp ready sel source).offered =
      sel.offered ++ (rankedSelection settings s imp sel.log (readyOf ready source)).offered :=
  rfl

theorem log_offerSource (settings : MatchSettings) (s : Spending) (imp : Impression)
    (ready : List LineItem) (sel : Selection) (source : String) :
    (offerSource settings s imp ready sel source).log =
      (rankedSelection settings s imp sel.log (readyOf ready source)).log.recordOffer source
        (rankedSelection settings s imp sel.log (readyOf ready source)).offered :=
  rfl

theorem exists_log_offerSource (settings : MatchSettings) (s : Spending) (imp : Impression)
    (ready : List LineItem) (sel : Selection) (source : String) :
    ∃ lost sent tops,
      (offerSource settings s imp ready sel source).log = { sel.log with
        lostMatchingTo := lost, sentToBidder := sent, sentToBidderAsTopMatch := tops } ∧
      (∀ k id, id ∈ sent.getD k ∅ ↔ id ∈ sel.log.sentToBidder.getD k ∅ ∨ source = k ∧
        ∃ x ∈ (rankedSelection settings s imp sel.log (readyOf ready source)).offered,
          x.id = id) ∧
      (∀ k id, id ∈ tops.getD k ∅ ↔ id ∈ sel.log.sentToBidderAsTopMatch.getD k ∅ ∨ source = k ∧
        ∃ x, (rankedSelection settings s imp sel.log (readyOf ready source)).offered.head? =
          some x ∧ x.id = id) ∧
      ∀ k, k ∈ tops ↔ k ∈ sel.log.sentToBidderAsTopMatch ∨ source = k ∧
        (rankedSelection settings s imp sel.log (readyOf ready source)).offered.head?.isSome := by
  obtain ⟨lost, hlosses⟩ := AuctionLog.exists_recordLosses sel.log []
    ((ranking settings s (readyOf ready source)).dropWhile fun x => sel.log.isTopMatch x.id)
  obtain ⟨sent, tops, hoffer, h⟩ := AuctionLog.exists_recordOffer
    { sel.log with lostMatchingTo := lost } source
    (rankedSelection settings s imp sel.log (readyOf ready source)).offered
  refine ⟨lost, sent, tops, ?_, h⟩
  rw [← hoffer, ← hlosses, ← log_rankedSelection, log_offerSource]

theorem ofSource_offerSource_of_ne {k : String} (hk : k ≠ source) :
    (offerSource settings s imp ready sel source).ofSource k = sel.ofSource k := by
  have hchosen : (rankedSelection settings s imp sel.log (readyOf ready source)).offered.filter
      (·.source == k) = [] := by
    rw [List.filter_eq_nil_iff]
    intro x hx
    rw [source_eq_of_mem_rankedSelection hx]
    simpa using hk.symm
  rw [Selection.ofSource, offered_offerSource, List.filter_append, hchosen, List.append_nil,
    Selection.ofSource]

theorem first?_offerSource_of_ne {k : String} (hk : k ≠ source) :
    (offerSource settings s imp ready sel source).first? k = sel.first? k := by
  rw [Selection.first?, ofSource_offerSource_of_ne hk, Selection.first?]

/-- What counts as recorded for a source depends on the sources before it only. -/
theorem recorded_offerSource {k : String} (hk : compare source k ≠ .lt) :
    Recorded base (offerSource settings s imp ready sel source) k = Recorded base sel k := by
  funext id
  refine congrArg (base.isTopMatch id = true ∨ ·) (propext ?_)
  refine exists_congr fun earlier => exists_congr fun x => and_congr_right fun hlt => ?_
  rw [first?_offerSource_of_ne (by rintro rfl; exact hk hlt)]

namespace Offering

theorem ofSource_offerSource (h : Offering settings s ready base done sel) (imp : Impression)
    (hnew : source ∉ done) : (offerSource settings s imp ready sel source).ofSource source =
      (rankedSelection settings s imp sel.log (readyOf ready source)).offered := by
  have hsel : sel.offered.filter (·.source == source) = [] := h.ofSource_eq_nil hnew
  rw [Selection.ofSource, offered_offerSource, List.filter_append, hsel, List.nil_append,
    List.filter_eq_self]
  intro x hx
  simpa using source_eq_of_mem_rankedSelection hx

/-- When the turn of a source comes, the log knows what counts as top match before. -/
theorem isTopMatch_iff_recorded (h : Offering settings s ready base done sel)
    (hlast : ∀ k ∈ done, compare k source = .lt) {id : String} :
    sel.log.isTopMatch id = true ↔ Recorded base sel source id := by
  rw [h.isTopMatch_iff]
  refine or_congr_right ⟨?_, ?_⟩
  · rintro ⟨k, x, hx, hid⟩
    exact ⟨k, x, hlast k (h.mem_done_of_first? hx), hx, hid⟩
  · rintro ⟨k, x, -, hx, hid⟩
    exact ⟨k, x, hx, hid⟩

/-- **One more offer**, to a source behind all that have been gone through. -/
theorem offerSource (h : Offering settings s ready base done sel)
    (hlast : ∀ k ∈ done, compare k source = .lt) :
    Offering settings s ready base (done ++ [source])
      (offerSource settings s imp ready sel source) := by
  have hself : compare source source ≠ .lt := by simp
  have hnew : source ∉ done := fun hmem => hself (hlast source hmem)
  have hchosen := h.ofSource_offerSource imp hnew
  obtain ⟨lost, sent, tops, hlog, hsent, htops, hsources⟩ :=
    exists_log_offerSource settings s imp ready sel source
  constructor
  case source_mem =>
    intro x hx
    rw [offered_offerSource, List.mem_append] at hx
    rcases hx with hx | hx
    · exact List.mem_append_left _ (h.source_mem x hx)
    · exact List.mem_append_right _ (by simp [source_eq_of_mem_rankedSelection hx])
  case justified =>
    intro k hk
    rcases List.mem_append.mp hk with hdone | hk
    · have hbehind : compare source k ≠ .lt := fun hlt =>
        hself (Std.TransCmp.lt_trans hlt (hlast k hdone))
      have hne : k ≠ source := fun e => hnew (e ▸ hdone)
      -- an earlier source does not see what a later one is offered
      rw [recorded_offerSource hbehind, ofSource_offerSource_of_ne hne]
      exact h.justified k hdone
    · obtain rfl := List.mem_singleton.mp hk
      rw [recorded_offerSource hself, hchosen]
      exact rankedSelection_justified settings s imp sel.log _ fun _ =>
        h.isTopMatch_iff_recorded hlast
  case sent =>
    intro k id
    rw [hlog]
    simp only [hsent, h.sent]
    by_cases hk : k = source
    · subst hk
      simp [hchosen, h.ofSource_eq_nil hnew]
    · simp [ofSource_offerSource_of_ne hk, Ne.symm hk]
  case tops =>
    intro k id
    rw [hlog]
    simp only [htops, h.tops]
    by_cases hk : k = source
    · subst hk
      simp [Selection.first?, hchosen, h.ofSource_eq_nil hnew]
    · simp [first?_offerSource_of_ne hk, Ne.symm hk]
  case topSources =>
    intro k
    rw [hlog]
    simp only [hsources, h.topSources]
    by_cases hk : k = source
    · subst hk
      simp [Selection.first?, hchosen, h.ofSource_eq_nil hnew]
    · simp [first?_offerSource_of_ne hk, Ne.symm hk]
  case others =>
    obtain ⟨lost', sent', tops', hbase⟩ := h.others
    exact ⟨lost, sent, tops, by rw [hlog, hbase]⟩

end Offering

/-- **All offers**, from the log of the judged candidates on. -/
theorem offering_offers (settings : MatchSettings) (s : Spending) (imp : Impression)
    (ready : List LineItem) (base : AuctionLog) (events : List Event) :
    Offering settings s ready base (sourcesOf ready)
      (offers settings s imp ready ⟨[], base, events⟩) := by
  refine foldl_of_prefix (I := Offering settings s ready base)
    (Offering.start settings s ready base events) fun done source sel hdone h => ?_
  refine h.offerSource fun k hk => ?_
  have hsorted := (pairwise_sourcesOf ready).sublist hdone.sublist
  exact (List.pairwise_append.mp hsorted).2.2 k hk source (List.mem_singleton.mpr rfl)

end Step

namespace Offering

variable {settings : MatchSettings} {s : Spending} {ready : List LineItem} {base : AuctionLog}
  {sel : Selection}

/-- A source without ready line items is offered nothing, and nothing is passed over. -/
theorem justified_of_sourcesOf (h : Offering settings s ready base (sourcesOf ready) sel)
    (source : String) : Justified s (Recorded base sel source) settings.maxDealsPerBidder
      (readyOf ready source) (ranking settings s (readyOf ready source))
      (sel.ofSource source) := by
  by_cases hsource : source ∈ sourcesOf ready
  · exact h.justified source hsource
  have hready : readyOf ready source = [] := by
    rw [readyOf, List.filter_eq_nil_iff]
    intro x hx
    simp only [beq_iff_eq]
    exact fun hxs => hsource (mem_sourcesOf.mpr ⟨x, hx, hxs⟩)
  have hranked : ranking settings s [] = [] := (ranking_perm settings s []).eq_nil
  rw [hready, hranked, h.ofSource_eq_nil hsource]
  refine ⟨.refl _, .nil, .refl _, Nat.zero_le _, List.nodup_nil, by simp, ?_⟩
  intro ahead x behind hsplit
  simp at hsplit

/-- What is offered was ready. -/
theorem mem_ready (h : Offering settings s ready base (sourcesOf ready) sel) {x : LineItem}
    (hx : x ∈ sel.offered) : x ∈ ready :=
  (mem_readyOf.mp <| (h.justified_of_sourcesOf x.source).mem_ready <|
    Selection.mem_ofSource.mpr ⟨hx, rfl⟩).1

end Offering

/-- **No ready line item is passed over without a reason**: what is offered to a source is in order,
has different deals and keeps to the limit, and every other ready line item of the source was top
match before together with all that rank ahead, or comes after one of its deal that was left, or
comes after as many as the limit admits. -/
theorem offers_justified (settings : MatchSettings) (s : Spending) (imp : Impression)
    (ready : List LineItem) (log : AuctionLog) (events : List Event) (source : String) :
    let sel := offers settings s imp ready ⟨[], log, events⟩
    let offered := sel.ofSource source
    offered.Pairwise (fun x y => compareLineItems s x y ≠ .gt) ∧
      (offered.map (·.dealId)).Nodup ∧
      offered.length ≤ settings.maxDealsPerBidder ∧
      ∃ ranked : List LineItem, ranked.Perm (readyOf ready source) ∧
        ranked.Pairwise (fun x y => compareLineItems s x y ≠ .gt) ∧
        offered.Sublist ranked ∧
        ∀ x ∈ readyOf ready source, x ∉ offered → ∃ ahead behind, ranked = ahead ++ x :: behind ∧
          PassedOver (Recorded log sel source) settings.maxDealsPerBidder offered ahead x := by
  intro sel offered
  have h := (offering_offers settings s imp ready log events).justified_of_sourcesOf source
  exact ⟨h.offered_order, h.nodup_dealId, h.length_le, _, h.ranked_perm, h.ranked_order,
    h.offered_sublist, fun x hx hnot => h.exists_passedOver hx hnot⟩

end DealPacing
