import DealPacing.Proofs.Progress.Batches
import DealPacing.Proofs.Progress.ClassSpend

/-!
# The spend in all windows, as a batch reports it

A batch reports the plans that its window tracked, each class with the spend in the window and, if
the overall progress keeps the plan, with the spend in all windows. For a line item of which the
window tracked no plan the active plan is reported, without spend. That report never has the spend
in all windows, even where the overall progress keeps the plan, so the spend in all windows is
reported if and only if the window tracked a plan of the line item.

## Main definitions

* `ReportBatch.lineItems`: the line items that a batch reports

## Main results

* `Reporter.lineItems_batch`: a batch reports the statuses of its window, however they are split
* `Status.mem_scheduleReports_iff`: where a reported schedule comes from
* `Plan.mem_tokens_report`: what is reported of a class
* `Engine.lifetime_spend_iff`: when the spend in all windows is reported as the overall progress
  has it
-/

namespace DealPacing

namespace ReportBatch

/-- The line items that a batch reports. -/
def lineItems (b : ReportBatch) : List LineItemReport := b.reports.flatMap (·.lineItemStatus)

/-- The classes that a batch reports, with their line item and their plan. -/
def tokens (b : ReportBatch) : List (String × String × TokenReport) :=
  b.lineItems.flatMap fun x => x.deliverySchedule.flatMap fun schedule =>
    schedule.tokens.map (x.lineItemId, schedule.planId, ·)

theorem exists_of_mem_tokens {b : ReportBatch} {id planId : String} {t : TokenReport}
    (h : (id, planId, t) ∈ b.tokens) :
    ∃ x ∈ b.lineItems, x.lineItemId = id ∧
      ∃ schedule ∈ x.deliverySchedule, schedule.planId = planId ∧ t ∈ schedule.tokens := by
  obtain ⟨x, hx, h⟩ := List.mem_flatMap.mp h
  obtain ⟨schedule, hschedule, h⟩ := List.mem_flatMap.mp h
  obtain ⟨u, hu, h⟩ := List.mem_map.mp h
  obtain ⟨rfl, rfl, rfl⟩ := by simpa using h
  exact ⟨x, hx, rfl, schedule, hschedule, rfl, hu⟩

end ReportBatch

namespace Reporter

theorem flatten_pieces {α : Type} (length : Nat) (xs : List α) :
    (pieces length xs).flatten = xs := by
  induction xs using pieces.induct length with
  | case1 => simp [pieces]
  | case2 x rest ih => simp [pieces, ih]

/-- A batch reports the statuses of its window, however they are split. -/
theorem lineItems_batch (c : Reporter) (r : Registry) (s : Spending) (reportId : String)
    (w : Window) (overall : Option Window) (now : Option Instant) (size : Nat) (isOverall : Bool) :
    (c.batch r s reportId w overall now size isOverall).lineItems =
      w.statusList.filterMap (c.lineItem? r s w overall isOverall) := by
  have hpieces := congrArg (List.filterMap (c.lineItem? r s w overall isOverall))
    (flatten_pieces (max size 1) w.statusList)
  rw [List.filterMap_flatten, ← List.flatMap_def] at hpieces
  rw [← hpieces]
  exact List.flatMap_map ..

/-- A window report on a status. -/
theorem lineItem?_eq_some {c : Reporter} {r : Registry} {s : Spending} {w : Window}
    {overall : Option Window} {st : Status} {x : LineItemReport}
    (h : c.lineItem? r s w overall false st = some x) :
    x.lineItemId = st.lineItemId ∧
      x.deliverySchedule = st.scheduleReports (overall.bind (·.statuses[st.lineItemId]?))
        (r.plan? st.lineItemId) s := by
  unfold lineItem? at h
  simp only [Bool.false_eq_true, if_false] at h
  split at h
  · cases h
  · obtain rfl := Option.some.inj h
    exact ⟨rfl, rfl⟩

end Reporter

namespace Status

/-- A reported schedule is that of a plan of the status, or of the active plan if it has none. -/
theorem mem_scheduleReports_iff {st : Status} {overall : Option Status} {active : Option Plan}
    {s : Spending} {schedule : ScheduleReport} :
    schedule ∈ st.scheduleReports overall active s ↔
      (st.plans = [] ∧ ∃ p, active = some p ∧ schedule = p.unspentReport) ∨
        ∃ p ∈ st.plans, schedule = p.report (overall.bind (·.plan? p.id)) s := by
  have hperm := List.mergeSort_perm st.plans fun p q => decide (p.id ≤ q.id)
  unfold scheduleReports
  by_cases hnone : st.plans = []
  · simp [hnone, eq_comm]
  · have hsorted : (st.plans.mergeSort fun p q => decide (p.id ≤ q.id)) ≠ [] :=
      fun h => hnone (List.nil_perm.mp (h ▸ hperm))
    simp only [List.isEmpty_iff, hsorted, if_false, hnone, false_and, false_or, List.mem_map,
      List.mem_mergeSort]
    exact exists_congr fun p => and_congr_right fun _ => eq_comm

end Status

namespace Plan

/-- What is reported of a class, if each class of the plan and of the copy in the overall progress
occurs at most once. -/
theorem mem_tokens_report {p q : Plan} (hp : p.Distinct) (hq : q.Distinct) {s : Spending}
    {t : TokenReport} (ht : t ∈ (p.report (some q) s).tokens) :
    t.spent = p.spentInClass t.priorityClass s ∧
      t.totalSpent = (q.token? t.priorityClass).map (·.spent s) := by
  obtain ⟨u, hu, rfl⟩ := List.mem_map.mp ht
  refine ⟨?_, ?_⟩
  · rw [spentInClass, (token?_eq_some_iff hp).mpr ⟨hu, rfl⟩]
    rfl
  · exact getElem?_ofList_map (·.spent s) hq u.priorityClass

theorem totalSpent_unspentReport {p : Plan} {t : TokenReport}
    (ht : t ∈ p.unspentReport.tokens) : t.totalSpent = none := by
  obtain ⟨u, -, rfl⟩ := List.mem_map.mp ht
  rfl

end Plan

namespace Window

theorem copy?_eq_bind (w : Window) (id planId : String) :
    w.copy? id planId = (w.statuses[id]?).bind (·.plan? planId) := by
  unfold copy? copies
  cases w.statuses[id]? <;> rfl

theorem copy?_of_mem {w : Window} {id : String} (hd : ((w.copies id).map (·.id)).Nodup) {p : Plan}
    (hp : p ∈ w.copies id) : w.copy? id p.id = some p :=
  (find?_key_eq_some_iff hd).mpr ⟨hp, rfl⟩

/-- A status of the window has the copies of its line item. -/
theorem Keyed.copies_of_mem_statusList {w : Window} (h : w.Keyed) {st : Status}
    (hst : st ∈ w.statusList) : w.copies st.lineItemId = st.plans := by
  obtain ⟨id, hget⟩ := mem_statusList_iff.mp hst
  rw [h.lineItemId_eq hget, copies_of_getElem? hget]

end Window

/-! ## Closed windows -/

namespace Engine

variable {e : Engine}

/-- The line items that are reported when the open window is handed over. -/
theorem lineItems_closing (e : Engine) (now : Instant) :
    (e.closing now).batch.lineItems =
      e.progress.current.statusList.filterMap
        (e.progress.reporter.lineItem? e.registry (e.move (.handOver now)).spending
          (e.progress.current.close now) (some (e.move (.handOver now)).progress.overall) false) :=
  Reporter.lineItems_batch ..

/-- The spend in all windows is reported for the plans that the window tracked. -/
theorem Distinct.totalSpent_iff (hd : e.Distinct) (ht : e.Tidy) (now : Instant) {id planId : String}
    {t : TokenReport} (htoken : (id, planId, t) ∈ (e.closing now).batch.tokens) {q : Plan}
    (hq : (e.move (.handOver now)).progress.overall.copy? id planId = some q)
    (hclass : t.priorityClass ∈ q.classes) :
    let spent := q.spentInClass t.priorityClass (e.move (.handOver now)).spending
    (t.totalSpent = some spent ∧ t.spent ≤ spent) ↔ e.progress.current.copies id ≠ [] := by
  intro spent
  have hadded : spent = e.progress.overall.spent id planId t.priorityClass e.spending +
      e.progress.current.spent id planId t.priorityClass e.spending := by
    rw [← hd.spent_handOver ht now, Window.spent, hq]
    rfl
  have hqd : q.Distinct := (hd.move (m := .handOver now) trivial).overall.copy hq
  -- the report is that of a status of the window
  obtain ⟨x, hx, rfl, schedule, hschedule, rfl, hreported⟩ :=
    ReportBatch.exists_of_mem_tokens htoken
  rw [lineItems_closing] at hx
  obtain ⟨st, hst, hx⟩ := List.mem_filterMap.mp hx
  obtain ⟨hid, hschedules⟩ := Reporter.lineItem?_eq_some hx
  have hplans : e.progress.current.copies x.lineItemId = st.plans := by
    rw [hid]
    exact ht.keyed.copies_of_mem_statusList hst
  rw [hschedules, Status.mem_scheduleReports_iff] at hschedule
  rcases hschedule with ⟨hnone, p, -, rfl⟩ | ⟨p, hp, rfl⟩
  · -- the active plan is reported without the spend in all windows
    rw [Plan.totalSpent_unspentReport hreported, hplans]
    simp [hnone]
  · -- a plan of the window is reported with the spend of its copy in the overall progress
    rw [← hplans] at hp
    obtain ⟨label, howned⟩ := ht.sound
    have hcopy : e.progress.current.copy? x.lineItemId p.id = some p :=
      Window.copy?_of_mem (howned.nodup _) hp
    have hoverall : ((some (e.move (.handOver now)).progress.overall).bind
        (·.statuses[st.lineItemId]?)).bind (·.plan? p.id) = some q := by
      rw [← hid]
      exact (Window.copy?_eq_bind ..).symm.trans hq
    rw [hoverall] at hreported
    obtain ⟨hspent, htotal⟩ := Plan.mem_tokens_report (hd.current.copy hcopy) hqd hreported
    obtain ⟨u, hu⟩ := Option.isSome_iff_exists.mp (Plan.token?_isSome_iff.mpr hclass)
    have hkeeps : e.spending.Keeps (e.move (.handOver now)).spending :=
      Opens.mergeWindow e.progress.overall e.registry (e.progress.current.close now) e.spending
    have hwindow : t.spent = e.progress.current.spent x.lineItemId p.id t.priorityClass
        e.spending := by
      rw [hspent, Window.spent, hcopy, Option.map_some, Option.getD_some]
      exact Plan.spentInClass_eq_of_keeps hkeeps (ht.isOpen_current.isOpen hp) _
    refine iff_of_true ⟨?_, ?_⟩ (List.ne_nil_of_mem hp)
    · simp only [htotal, spent, Plan.spentInClass, hu, Option.map_some, Option.getD_some]
    · rw [hadded, hwindow]
      exact Nat.le_add_left _ _

/-- **When the spend in all windows is reported**, along every run whose records list each class of
a schedule at most once: a class that the overall progress keeps is reported with its spend there,
and no more in the window, if and only if the window tracked a plan of the line item. -/
theorem lifetime_spend_iff (c : Config) (start : Instant) {moves : List Move}
    (hmoves : ∀ m ∈ moves, m.Brings LineItemRecord.Distinct) (now : Instant) {id planId : String}
    {t : TokenReport} (htoken : (id, planId, t) ∈ ((run c start moves).closing now).batch.tokens)
    {q : Plan}
    (hq : ((run c start moves).move (.handOver now)).progress.overall.copy? id planId = some q)
    (hclass : t.priorityClass ∈ q.classes) :
    let spent := q.spentInClass t.priorityClass ((run c start moves).move (.handOver now)).spending
    (t.totalSpent = some spent ∧ t.spent ≤ spent) ↔
      (run c start moves).progress.current.copies id ≠ [] :=
  (distinct_run c start hmoves).totalSpent_iff (tidy_run c start moves) now htoken hq hclass

/-- A line item is registered and served. -/
def servedFirst : List Move := [
  .update [twoHours [⟨1, 5⟩] [] (hour 0)] true (hour 0),
  .auction { sentToClientAsTopMatch := IdSet.ofList ["lineItem"] } "account"]

theorem lifetime_spend_iff_servedFirst :
    (∀ m ∈ servedFirst, m.Brings LineItemRecord.Distinct) ∧
      ("lineItem", "first", ⟨1, 5, 1, some 1⟩) ∈
        ((run {} (hour 0) servedFirst).closing (hour 0)).batch.tokens ∧
      ∃ q, ((run {} (hour 0) servedFirst).move
          (.handOver (hour 0))).progress.overall.copy? "lineItem" "first" = some q ∧
        1 ∈ q.classes ∧ q.spentInClass 1
          ((run {} (hour 0) servedFirst).move (.handOver (hour 0))).spending = 1 := by
  have hmoves : ∀ m ∈ servedFirst, m.Brings LineItemRecord.Distinct := by
    simp only [servedFirst, List.forall_mem_cons, Move.Brings, List.not_mem_nil, false_imp_iff,
      implies_true, and_true]
    decide
  have htoken : ("lineItem", "first", ⟨1, 5, 1, some 1⟩) ∈
      ((run {} (hour 0) servedFirst).closing (hour 0)).batch.tokens := by
    decide +kernel
  have htracked : (run {} (hour 0) servedFirst).progress.current.copies "lineItem" ≠ [] := by
    decide +kernel
  have hclasses : (((run {} (hour 0) servedFirst).move
      (.handOver (hour 0))).progress.overall.copy? "lineItem" "first").map (·.classes) =
        some [1] := by
    decide +kernel
  obtain ⟨q, hq, hclass⟩ := Option.map_eq_some_iff.mp hclasses
  have hmem : 1 ∈ q.classes := by simp [hclass]
  obtain ⟨htotal, -⟩ := (lifetime_spend_iff {} (hour 0) hmoves (hour 0) htoken hq hmem).mpr htracked
  exact ⟨hmoves, htoken, q, hq, hmem, (Option.some.inj htotal).symm⟩

/-- A line item that was served is only matched in the next window. -/
def matchedLater : List Move := servedFirst ++ [
  .handOver (hour 0),
  .auction { matchedWhole := IdSet.ofList ["lineItem"] } "account"]

/-- For a line item that the window has no plan of, the spend in all windows is not reported,
though the overall progress has it. -/
theorem not_forall_lifetime_spend :
    ¬ ∀ (c : Config) (start : Instant) (moves : List Move),
      (∀ m ∈ moves, m.Brings LineItemRecord.Distinct) → ∀ (now : Instant) (id planId : String)
        (t : TokenReport), (id, planId, t) ∈ ((run c start moves).closing now).batch.tokens →
        ∀ q, ((run c start moves).move (.handOver now)).progress.overall.copy? id planId = some q →
        t.priorityClass ∈ q.classes →
        let spent :=
          q.spentInClass t.priorityClass ((run c start moves).move (.handOver now)).spending
        t.totalSpent = some spent ∧ t.spent ≤ spent := by
  intro hall
  have hmoves : ∀ m ∈ matchedLater, m.Brings LineItemRecord.Distinct := by
    simp only [matchedLater, servedFirst, List.cons_append, List.nil_append, List.forall_mem_cons,
      Move.Brings, List.not_mem_nil, false_imp_iff, implies_true, and_true]
    decide
  have htoken : ("lineItem", "first", ⟨1, 5, 0, none⟩) ∈
      ((run {} (hour 0) matchedLater).closing (hour 0)).batch.tokens := by
    decide +kernel
  have hclasses : (((run {} (hour 0) matchedLater).move
      (.handOver (hour 0))).progress.overall.copy? "lineItem" "first").map (·.classes) =
        some [1] := by
    decide +kernel
  obtain ⟨q, hq, hclass⟩ := Option.map_eq_some_iff.mp hclasses
  have hmem : 1 ∈ q.classes := by simp [hclass]
  obtain ⟨htotal, -⟩ := hall {} (hour 0) matchedLater hmoves (hour 0) _ _ _ htoken q hq hmem
  cases htotal

end Engine

end DealPacing
