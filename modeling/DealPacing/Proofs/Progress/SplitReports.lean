import DealPacing.Proofs.Progress.AuctionTallies
import DealPacing.Proofs.Progress.LifetimeSpend
import DealPacing.Proofs.Progress.Preview

/-!
# Reports split for upload

The statuses of a window are cut into pieces before those that are not reported are left out, so the
reports of a batch can be shorter than the batch size, or have no line item at all. Together they
hold what the report on the window holds: no line item is lost, repeated or moved, whatever the
batch size, and a status is left out by itself, not by the piece that it stands in.

Competitors that a line item lost to equally often are listed in the order of their ids here. Where
that order is left open, the counts that are listed are still the same.

## Main definitions

* `Window.Built`: the windows that come about
* `Registry.LeavesOut`: the statuses that are not reported
* `Window.ListsCompetitors`: the competitors of a line item, the most frequent first
* `ReportBatch.Splits`: the batch holds what a report holds

## Main results

* `Engine.built_run`: the windows of the engine come about
* `Window.Built.keyed`: statuses are kept under the ids of their line items
* `Reporter.lineItem?_eq_none_iff`: which statuses are left out
* `Window.Keyed.ascending`: line items are reported in the order of their ids
* `Window.ListsCompetitors.counts_eq`: the order among equal counts does not tell in the counts
* `Reporter.batch_lossless`: splitting a report loses nothing
-/

namespace DealPacing

/-! ## Windows that come about -/

namespace Window

/-- The windows that can come about: registries, logs and stores may be others with every
operation. -/
inductive Built : Window → Prop where
  | opened (start : Instant) : Built (opened start)
  | close {w : Window} (h : Built w) (now : Instant) : Built (w.close now)
  | recordAuction {w : Window} (h : Built w) {r : Registry} (hr : r.Keyed) (log : AuctionLog)
      (classes : IdMap Int) (accountId : String) (s : Spending) :
      Built ((w.recordAuction r log classes accountId).run s).1
  | recordWin {w : Window} (h : Built w) {r : Registry} (hr : r.Keyed) (id : String) :
      Built (w.recordWin r id)
  | trackPlan {w : Window} (h : Built w) {r : Registry} (hr : r.Keyed) (x : LineItem)
      (s : Spending) : Built ((w.trackPlan r x).run s).1
  | merge {w other : Window} (h : Built w) (hother : Built other) {r : Registry} (hr : r.Keyed)
      (s : Spending) : Built ((w.merge r other).run s).1
  | clean {w : Window} (h : Built w) (r : Registry) (now : Instant) (ttl : Int) (plans : Nat) :
      Built (w.clean r now ttl plans)
  | forget {w : Window} (h : Built w) (ids : List String) : Built (w.forget ids)
  | forgetAll {w : Window} (h : Built w) : Built w.forgetAll
  | duplicate {w : Window} (h : Built w) : Built w.duplicate

/-- However a window came about, its statuses are kept under the ids of their line items. -/
theorem Built.keyed {w : Window} (h : w.Built) : w.Keyed := by
  induction h with
  | opened start => exact keyed_opened start
  | close _ now ih => exact ⟨ih.lineItemId_eq⟩
  | recordAuction _ hr log classes accountId s ih => exact ih.recordLog hr log classes accountId s
  | recordWin _ hr id ih => exact ih.putStatus (ih.lineItemId_status hr id)
  | trackPlan _ hr x s ih => exact ih.trackPlan hr x s
  | merge _ _ hr s ih => exact ih.merge hr _ s
  | clean _ r now ttl plans ih => exact ih.clean r now ttl plans
  | forget _ ids ih => exact ih.forget ids
  | forgetAll _ ih => exact ih.forgetAll
  | duplicate _ ih => exact ih.duplicate_eq.symm ▸ ih

/-- The statuses stand in the order of the line item ids, no two of one line item. -/
theorem Keyed.ascending {w : Window} (h : w.Keyed) :
    w.statusList.Pairwise (·.lineItemId < ·.lineItemId) := by
  have hkeys : w.statuses.toList.Pairwise fun a b => compare a.1 b.1 = .lt :=
    Std.ExtTreeMap.ordered_keys_toList
  refine List.pairwise_map.mp ?_
  rw [h.map_lineItemId]
  exact List.pairwise_map.mpr (hkeys.imp compareOfLessAndEq_eq_lt.mp)

end Window

/-- Both windows of the engine come about in this way, along every run. -/
theorem Engine.built_run (c : Config) (start : Instant) (moves : List Move) :
    (run c start moves).progress.current.Built ∧ (run c start moves).progress.overall.Built := by
  induction moves using List.reverseRecOn with
  | nil => exact ⟨.opened start, .opened start⟩
  | append_singleton moves m ih =>
    obtain ⟨hcurrent, hoverall⟩ := ih
    obtain ⟨label, howned⟩ := sound_run c start moves
    rw [run_concat]
    cases m with
    | auction log accountId =>
      -- the log is recorded in the registry that is left of the serves
      exact ⟨hcurrent.recordAuction (howned.keyed_served log) log _ accountId _, hoverall⟩
    | win id => exact ⟨hcurrent.recordWin howned.keyed id, hoverall⟩
    | trackPlans =>
      exact run_foldlM_of_mem (I := fun (p : Progress) _ => p.current.Built ∧ p.overall.Built)
        ⟨hcurrent, hoverall⟩ fun x _ _ _ h =>
          ⟨h.1.trackPlan howned.keyed x _, h.2.trackPlan howned.keyed x _⟩
    | handOver now => exact ⟨.opened now, hoverall.merge (hcurrent.close now) howned.keyed _⟩
    | clean now => exact ⟨hcurrent, hoverall.clean _ now _ _⟩
    | forgetProgress ids =>
      cases ids with
      | some ids => exact ⟨hcurrent.forget ids, hoverall.forget ids⟩
      | none => exact ⟨hcurrent.forgetAll, hoverall.forgetAll⟩
    | removeLineItems ids => cases ids <;> exact ⟨hcurrent, hoverall⟩
    | _ => exact ⟨hcurrent, hoverall⟩

/-! ## What is left out -/

/-- The status is not reported: a report on all windows leaves out line items that are not
registered, and a report on one window those of which neither the window nor the registry has a
plan. -/
def Registry.LeavesOut (r : Registry) (isOverall : Bool) (st : Status) : Prop :=
  if isOverall then r.get? st.lineItemId = none
  else st.plans = [] ∧ r.plan? st.lineItemId = none

theorem Status.scheduleReports_eq_nil_iff {st : Status} {overall : Option Status}
    {active : Option Plan} {s : Spending} :
    st.scheduleReports overall active s = [] ↔ st.plans = [] ∧ active = none := by
  rw [List.eq_nil_iff_forall_not_mem]
  simp only [mem_scheduleReports_iff, not_or, forall_and, not_and, not_exists]
  constructor
  · rintro ⟨hactive, hplans⟩
    have hnone : st.plans = [] := List.eq_nil_iff_forall_not_mem.mpr fun p hp => hplans _ p hp rfl
    exact ⟨hnone, Option.eq_none_iff_forall_ne_some.mpr fun p hp => hactive _ hnone p hp rfl⟩
  · rintro ⟨hnone, rfl⟩
    simp [hnone]

namespace Reporter

variable {c : Reporter} {r : Registry} {s : Spending} {w : Window} {overall : Option Window}
  {isOverall : Bool}

/-- Which statuses are left out. -/
theorem lineItem?_eq_none_iff {st : Status} :
    c.lineItem? r s w overall isOverall st = none ↔ r.LeavesOut isOverall st := by
  unfold lineItem? Registry.LeavesOut
  cases isOverall with
  | true => simp
  | false =>
    simp only [Bool.false_eq_true, if_false, ite_eq_left_iff, reduceCtorEq, imp_false, not_not,
      List.isEmpty_iff]
    exact Status.scheduleReports_eq_nil_iff

/-- A status is reported under its line item, with the competitors of that line item. -/
theorem eq_of_lineItem? {st : Status} {x : LineItemReport}
    (h : c.lineItem? r s w overall isOverall st = some x) :
    x.lineItemId = st.lineItemId ∧ x.lostToLineItems = c.lostTo r w st.lineItemId := by
  unfold lineItem? at h
  dsimp only at h
  generalize (if isOverall = true then (r.get? st.lineItemId).isNone else _) = left at h
  cases left with
  | true => cases h
  | false =>
    obtain rfl := Option.some.inj h
    exact ⟨rfl, rfl⟩

/-- The line items that are reported. -/
theorem mem_map_lineItemId_iff (hw : w.Keyed) {id : String} :
    id ∈ (w.statusList.filterMap (c.lineItem? r s w overall isOverall)).map (·.lineItemId) ↔
      ∃ st, w.statuses[id]? = some st ∧ ¬ r.LeavesOut isOverall st := by
  simp only [List.mem_map, List.mem_filterMap]
  constructor
  · rintro ⟨x, ⟨st, hst, hx⟩, rfl⟩
    obtain ⟨id, hget⟩ := Window.mem_statusList_iff.mp hst
    refine ⟨st, ?_, fun hout => ?_⟩
    · rwa [(eq_of_lineItem? hx).1, hw.lineItemId_eq hget]
    · rw [lineItem?_eq_none_iff.mpr hout] at hx
      cases hx
  · rintro ⟨st, hget, hout⟩
    have hreported : c.lineItem? r s w overall isOverall st ≠ none :=
      fun hx => hout (lineItem?_eq_none_iff.mp hx)
    obtain ⟨x, hx⟩ := Option.ne_none_iff_exists'.mp hreported
    refine ⟨x, ⟨st, Window.mem_statusList_iff.mpr ⟨id, hget⟩, hx⟩, ?_⟩
    rw [(eq_of_lineItem? hx).1, hw.lineItemId_eq hget]

/-- What is left of an ascending list of statuses is reported in ascending order. -/
theorem ascending_filterMap (hw : w.Keyed) :
    (w.statusList.filterMap (c.lineItem? r s w overall isOverall)).Pairwise
      (·.lineItemId < ·.lineItemId) := by
  refine hw.ascending.filterMap _ fun st st' hlt x hx x' hx' => ?_
  rwa [(eq_of_lineItem? hx).1, (eq_of_lineItem? hx').1]

end Reporter

/-! ## Competitors -/

/-- A listing of the competitors of a line item, the most frequent first. The order among equal
counts is open. -/
structure Window.ListsCompetitors (w : Window) (id : String) (counted : List (String × Nat)) :
    Prop where
  perm : counted.Perm (w.competitors id).toList
  sorted : counted.Pairwise fun a b => b.2 ≤ a.2

namespace Window

variable {w : Window} {id : String} {counted counted' : List (String × Nat)}

/-- All listings have the same counts. -/
theorem ListsCompetitors.counts_eq (h : w.ListsCompetitors id counted)
    (h' : w.ListsCompetitors id counted') : counted.map (·.2) = counted'.map (·.2) :=
  ((h.perm.trans h'.perm.symm).map _).eq_of_pairwise (fun _ _ _ _ hnm hmn => le_antisymm hmn hnm)
    (List.pairwise_map.mpr h.sorted) (List.pairwise_map.mpr h'.sorted)

theorem listsCompetitors_mergeSort (w : Window) (id : String) :
    w.ListsCompetitors id ((w.competitors id).toList.mergeSort fun a b => b.2 ≤ a.2) where
  perm := List.mergeSort_perm ..
  sorted := by
    have htrans (a b c : String × Nat) (hab : decide (b.2 ≤ a.2)) (hbc : decide (c.2 ≤ b.2)) :
        decide (c.2 ≤ a.2) :=
      decide_eq_true ((of_decide_eq_true hbc).trans (of_decide_eq_true hab))
    have htotal (a b : String × Nat) : decide (b.2 ≤ a.2) || decide (a.2 ≤ b.2) := by
      simpa using Nat.le_total b.2 a.2
    exact (List.pairwise_mergeSort htrans htotal _).imp of_decide_eq_true

end Window

namespace Reporter

/-- Every listing has the counts that are reported. -/
theorem counts_lostTo (c : Reporter) (r : Registry) {w : Window} {id : String}
    {counted : List (String × Nat)} (h : w.ListsCompetitors id counted) :
    (c.lostTo r w id).map (·.count) =
      (counted.take c.competitors).map fun entry => reportedCount entry.2 := by
  have hcounts := (w.listsCompetitors_mergeSort id).counts_eq h
  have htaken := congrArg (fun counts => (counts.take c.competitors).map reportedCount) hcounts
  rw [← List.map_take, ← List.map_take, List.map_map, List.map_map] at htaken
  unfold lostTo
  rw [List.map_map]
  exact htaken

/-! ## Pieces -/

/-- No piece is longer than the length to cut at. -/
theorem length_le_of_mem_pieces {α : Type} {length : Nat} (hpos : 0 < length) {xs part : List α}
    (h : part ∈ pieces length xs) : part.length ≤ length := by
  induction xs using pieces.induct length with
  | case1 => simp [pieces] at h
  | case2 x rest ih =>
    rw [pieces, List.mem_cons] at h
    rcases h with rfl | h
    · rw [List.length_cons, List.length_take]
      omega
    · exact ih h

end Reporter

/-- The reports of the batch are those of a report, cut into pieces of `size` line items at most. -/
structure ReportBatch.Splits (b : ReportBatch) (whole : ProgressReport) (size : Nat) : Prop where
  /-- But for the id of the batch and the line items, every report says what the whole says. -/
  eq_whole : ∀ x ∈ b.reports,
    x = { whole with reportId := b.reportId, lineItemStatus := x.lineItemStatus }
  windowEnd_eq : b.windowEnd = whole.windowEnd
  length_le : ∀ x ∈ b.reports, x.lineItemStatus.length ≤ max 1 size
  lineItems_eq : b.lineItems = whole.lineItemStatus

namespace Reporter

theorem splits_batch (c : Reporter) (r : Registry) (s : Spending) (w : Window)
    (batchId reportId : String) (now : Option Instant) (size : Nat) (isOverall : Bool) :
    (c.batch r s batchId w (some w) now size isOverall).Splits
      (c.report r s reportId w now isOverall) size where
  eq_whole x hx := by
    obtain ⟨part, -, rfl⟩ := List.mem_map.mp hx
    rfl
  windowEnd_eq := rfl
  length_le x hx := by
    obtain ⟨part, hpart, rfl⟩ := List.mem_map.mp hx
    calc (part.filterMap (c.lineItem? r s w (some w) isOverall)).length
        ≤ part.length := List.length_filterMap_le ..
      _ ≤ max size 1 := length_le_of_mem_pieces (by omega) hpart
      _ = max 1 size := max_comm ..
  lineItems_eq := lineItems_batch ..

/-- **Splitting a report loses nothing**, for every window that comes about, every registry and
every batch size: the reports of a batch have one id and the fields of the report on the window, at
most `size` line items each (one, if it is zero), and together its line items, in ascending order of
their ids. Exactly the statuses are missing that the registry leaves out. The counts of the
competitors are those of every listing of them, up to their order among equal counts. -/
theorem batch_lossless (c : Reporter) (r : Registry) (s : Spending) {w : Window} (hw : w.Built)
    (batchId reportId : String) (now : Option Instant) (size : Nat) (isOverall : Bool) :
    let b := c.batch r s batchId w (some w) now size isOverall
    b.reportId = batchId ∧ b.Splits (c.report r s reportId w now isOverall) size ∧
      b.lineItems.Pairwise (·.lineItemId < ·.lineItemId) ∧
      (∀ id, id ∈ b.lineItems.map (·.lineItemId) ↔
        ∃ st, w.statuses[id]? = some st ∧ ¬ r.LeavesOut isOverall st) ∧
      ∀ x ∈ b.lineItems, ∀ counted, w.ListsCompetitors x.lineItemId counted →
        x.lostToLineItems.map (·.count) =
          (counted.take c.competitors).map fun entry => reportedCount entry.2 := by
  intro b
  have hlines : b.lineItems = w.statusList.filterMap (c.lineItem? r s w (some w) isOverall) :=
    lineItems_batch ..
  refine ⟨rfl, splits_batch c r s w batchId reportId now size isOverall, ?_, fun id => ?_,
    fun x hx counted hcounted => ?_⟩
  · rw [hlines]
    exact ascending_filterMap hw.keyed
  · rw [hlines]
    exact mem_map_lineItemId_iff hw.keyed
  · rw [hlines] at hx
    obtain ⟨st, -, hx⟩ := List.mem_filterMap.mp hx
    obtain ⟨hid, hlost⟩ := eq_of_lineItem? hx
    rw [hlost, ← hid]
    exact c.counts_lostTo r hcounted

/-- A window with a line item that has an active plan and lost to two others, and with one that is
not registered. -/
def twoStatuses (r : Registry) : Window :=
  let lost : AuctionLog := {
    matchedWhole := IdSet.ofList ["other", "lineItem"]
    lostMatchingTo := IdMap.addAllTo ∅ "lineItem" ["a", "b"] }
  (((Window.opened (hour 0)).recordAuction r lost ∅ "account").run {}).1

theorem batch_lossless_twoStatuses :
    let c : Reporter := ⟨none, none, none, 1⟩
    let e := Engine.run {} (hour 0)
      [.update [twoHours [⟨1, 5⟩] [] (hour 0)] true (hour 0)]
    let w := twoStatuses e.registry
    let b := c.batch e.registry e.spending "id" w (some w) none 0 false
    w.Built ∧ b.reports.map (·.lineItemStatus.map (·.lineItemId)) = [["lineItem"], []] ∧
      b.lineItems = (c.report e.registry e.spending "other" w none false).lineItemStatus ∧
      w.ListsCompetitors "lineItem" [("b", 1), ("a", 1)] := by
  intro c e w b
  have hkeyed : e.registry.Keyed :=
    (Engine.tidy_run {} _ _).sound.elim fun _ howned => howned.keyed
  have hw : w.Built := (Window.Built.opened _).recordAuction hkeyed _ _ _ _
  obtain ⟨-, hsplits, -⟩ := c.batch_lossless e.registry e.spending hw "id" "other" none 0 false
  refine ⟨hw, by decide +kernel, hsplits.lineItems_eq, ⟨?_, by decide⟩⟩
  have hlist : (w.competitors "lineItem").toList = [("a", 1), ("b", 1)] := by decide +kernel
  rw [hlist]
  exact .swap ..

end Reporter

end DealPacing
