import DealPacing.Proofs.Progress.ClassSpend
import DealPacing.Proofs.Progress.WindowValues

/-!
# Statuses and windows that are added up

When a status is added to another one, the plans of both are matched by their ids, and the tokens of
matched plans by their classes. The spend adds up, and nothing else does: the window and the totals
of a matched plan are those of the copy that was updated later, with the classes that only the other
copy knows. Since spend is added class by class and nothing is lost on the way, it does not matter
in which order windows are added up.

## Main definitions

* `Status.Proper`, `Window.Proper`: plan ids are different, and so are the classes of each plan
* `Status.IsSum`: what a status shows after another one was added to it
* `Window.mergeAll`: windows that are added one after the other

## Main results

* `Plan.total?_mergedSpentWith`: where the totals of two copies that are added up come from
* `Status.isSum_merge`: the sum of two statuses
* `Window.spent_mergeAll`: the sum of windows
* `Window.adds_spend`: spend is all that adds up, and the order does not matter
-/

namespace DealPacing

namespace Plan

instance (p : Plan) : Decidable p.Distinct := inferInstanceAs (Decidable p.classes.Nodup)

instance (p : Plan) (s : Spending) : Decidable (p.IsOpen s) :=
  inferInstanceAs (Decidable (∀ t ∈ p.tokens, t.counter.index < s.counts.size))

/-- The copy that was updated later; the first one if both were updated at the same time. -/
def newerOf (q p : Plan) : Plan := if q.updated < p.updated then p else q

/-- The copy that was not updated later. -/
def olderOf (q p : Plan) : Plan := if q.updated < p.updated then q else p

/-- The total of a class among balances. -/
def totalAmong? (bs : List Balance) (c : Int) : Option Nat :=
  (bs.find? (·.priorityClass == c)).map (·.total)

theorem totalAmong?_balances (p : Plan) (c : Int) (s : Spending) :
    totalAmong? (p.balances s) c = p.total? c := by
  rw [totalAmong?, balances, List.find?_map, Option.map_map]
  rfl

/-- To add the spend of a balance brings in its total only if there is none of its class. -/
theorem map_total_addSpend (m : ByClass Balance) (b : Balance) (c : Int) :
    ((addSpend m b)[c]?).map (·.total) =
      ((m[c]?).map (·.total)).or (if b.priorityClass = c then some b.total else none) := by
  unfold addSpend
  by_cases hc : b.priorityClass = c
  · subst hc
    cases m[b.priorityClass]? <;> simp
  · cases m[b.priorityClass]? <;> simp [Std.ExtTreeMap.getElem?_insert, hc]

theorem map_total_foldl_addSpend (bs : List Balance) (m : ByClass Balance) (c : Int) :
    ((bs.foldl addSpend m)[c]?).map (·.total) =
      ((m[c]?).map (·.total)).or (totalAmong? bs c) := by
  induction bs generalizing m with
  | nil => exact (Option.or_none ..).symm
  | cons b bs ih =>
    rw [List.foldl_cons, ih, map_total_addSpend, Option.or_assoc]
    by_cases hc : b.priorityClass = c
    · simp [totalAmong?, hc]
    · simp [totalAmong?, hc]

theorem totalAmong?_addedBalances {newer : List Balance}
    (hnewer : (newer.map (·.priorityClass)).Nodup) (older : List Balance) (c : Int) :
    totalAmong? (addedBalances newer older) c =
      (totalAmong? newer c).or (totalAmong? older c) := by
  have hfirst : ((byClass newer)[c]?).map (·.total) = totalAmong? newer c := by
    rw [byClass, getElem?_ofList_map (fun b => b) hnewer, Option.map_id']
    rfl
  rw [totalAmong?, addedBalances_eq, (ownClasses_addedByClass newer older).find?_eq,
    addedByClass, map_total_foldl_addSpend, hfirst]

/-- The total of a class is that of the copy that was updated later, if it lists the class. -/
theorem total?_mergedSpentWith {q p : Plan} (hq : q.Distinct) (hp : p.Distinct) (c : Int)
    (s : Spending) :
    ((q.mergedSpentWith p).run s).1.total? c =
      ((q.newerOf p).total? c).or ((q.olderOf p).total? c) := by
  rw [Distinct, ← map_priorityClass_balances _ s] at hq hp
  rw [← totalAmong?_balances _ c ((q.mergedSpentWith p).run s).2, balances_mergedSpentWith,
    newerOf, olderOf]
  split
  · rw [totalAmong?_addedBalances hp, totalAmong?_balances, totalAmong?_balances]
  · rw [totalAmong?_addedBalances hq, totalAmong?_balances, totalAmong?_balances]

/-- The window of two copies that are added up is that of the copy that was updated later. -/
theorem run_mergedSpentWith (q p : Plan) (s : Spending) :
    ∃ tokens, ((q.mergedSpentWith p).run s).1 = { q.newerOf p with tokens } := by
  unfold mergedSpentWith newerOf
  by_cases h : q.updated < p.updated
  · simp only [if_pos h]
    exact ⟨_, rfl⟩
  · simp only [if_neg h]
    exact ⟨_, rfl⟩

end Plan

/-! ## Two statuses -/

namespace Status

/-- The ids of the plans. -/
def planIds (st : Status) : List String := st.plans.map (·.id)

/-- The serves counted for a class of a plan. -/
def spent (st : Status) (planId : String) (c : Int) (s : Spending) : Nat :=
  ((st.plan? planId).map (·.spentInClass c s)).getD 0

/-- Plans have different ids, their tokens have different classes, and their counters are open. -/
structure Proper (st : Status) (s : Spending) : Prop where
  nodup : st.planIds.Nodup
  distinct : ∀ p ∈ st.plans, p.Distinct
  isOpen : ∀ p ∈ st.plans, p.IsOpen s

/-- What the status `out` shows in the store `s'` if it is the sum of two statuses in the store
`s`. -/
structure IsSum (st other : Status) (s : Spending) (out : Status) (s' : Spending) : Prop where
  mem_planIds : ∀ planId, planId ∈ out.planIds ↔ planId ∈ st.planIds ∨ planId ∈ other.planIds
  nodup : out.planIds.Nodup
  spent : ∀ planId c, out.spent planId c s' = st.spent planId c s + other.spent planId c s
  /-- A plan of both is that of the copy that was updated later, but for the spend and the classes
  that only the other copy knows. -/
  common : ∀ {planId q p}, st.plan? planId = some q → other.plan? planId = some p →
    ∃ m, out.plan? planId = some m ∧ m.start = (q.newerOf p).start ∧
      m.finish = (q.newerOf p).finish ∧ m.updated = (q.newerOf p).updated ∧
      ∀ c, m.total? c = ((q.newerOf p).total? c).or ((q.olderOf p).total? c)
  /-- A plan of one status alone stays as it is. -/
  alone : ∀ {planId}, st.plan? planId = none ∨ other.plan? planId = none →
    (out.plan? planId).map (·.value s') =
      ((st.plan? planId).or (other.plan? planId)).map (·.value s)
  /-- The status that was added, and every other plan, shows what it showed before. -/
  unchanged : ∀ p : Plan, p.IsOpen s → p.value s' = p.value s

variable {st other : Status} {s : Spending}

theorem plan?_isSome_iff {planId : String} :
    (st.plan? planId).isSome ↔ planId ∈ st.planIds := by
  simp [plan?, planIds]

theorem Opens.merge (st other : Status) : Opens (st.merge other) :=
  .bind (.foldlM Opens.addPlan _ _) fun _ => .pure _

theorem nodup_merge (h : st.planIds.Nodup) (other : Status) (s : Spending) :
    ((st.merge other).run s).1.planIds.Nodup := by
  let I (ps : List Plan) (_ : Spending) : Prop := (ps.map (·.id)).Nodup
  refine run_foldlM_of_mem (I := I) h fun p _ ps s' hps => ?_
  have hid : ((added p (ps.find? (·.id == p.id))).run s').1.id = p.id :=
    id_added (fun q hq => by simpa using List.find?_some hq) s'
  rw [run_addPlan]
  exact nodup_upsert hid hps

theorem Proper.of_plan? (h : st.Proper s) {planId : String} {q : Plan}
    (hq : st.plan? planId = some q) : q.Distinct ∧ q.IsOpen s :=
  ⟨h.distinct q (List.mem_of_find?_eq_some hq), h.isOpen q (List.mem_of_find?_eq_some hq)⟩

/-- What becomes of a plan of the status that is added. -/
structure Adds (q? : Option Plan) (p : Plan) (s : Spending) (m : Plan) (s' : Spending) : Prop where
  common : ∀ {q}, q? = some q → m.start = (q.newerOf p).start ∧
      m.finish = (q.newerOf p).finish ∧ m.updated = (q.newerOf p).updated ∧
      ∀ c, m.total? c = ((q.newerOf p).total? c).or ((q.olderOf p).total? c)
  alone : q? = none → m.value s' = p.value s

theorem adds_added {p : Plan} {q? : Option Plan} (hp : p.Distinct) (hpo : p.IsOpen s)
    (hq : ∀ q ∈ q?, q.Distinct ∧ q.IsOpen s) {s₁ s' : Spending} (hbefore : s.Keeps s₁)
    (hafter : ((added p q?).run s₁).2.Keeps s') :
    Adds q? p s ((added p q?).run s₁).1 s' where
  common {q} hsome := by
    subst hsome
    obtain ⟨tokens, hmerged⟩ := q.run_mergedSpentWith p s₁
    have htotals := Plan.total?_mergedSpentWith (hq q rfl).1 hp
    rw [added]
    refine ⟨?_, ?_, ?_, fun c => htotals c s₁⟩ <;> rw [hmerged]
  alone hnone := by
    subst hnone
    have hopen : (p.clone.run s₁).1.IsOpen (p.clone.run s₁).2 :=
      fun t => (added_continues p none s₁).isOpen_of_mem
    rw [added, Plan.value_eq_of_keeps hafter hopen, ← Plan.value_eq_of_keeps hbefore hpo]
    exact p.value_clone s₁

/-- A plan of the status that is added becomes the sum of both copies. -/
theorem exists_adds (h : st.Proper s) (ho : other.Proper s) {planId : String} {p : Plan}
    (hp : other.plan? planId = some p) :
    ∃ m, ((st.merge other).run s).1.plan? planId = some m ∧
      Adds (st.plan? planId) p s m ((st.merge other).run s).2 := by
  obtain ⟨s₁, hbefore, hafter, hadded⟩ := exists_added ho.nodup hp st s
  obtain ⟨hd, hopen⟩ := ho.of_plan? hp
  exact ⟨_, hadded, adds_added hd hopen (fun q hq => h.of_plan? hq) hbefore hafter⟩

/-- What the status that is added does not keep stays. -/
theorem map_value_merge_of_none (h : st.Proper s) {planId : String}
    (hp : other.plan? planId = none) :
    (((st.merge other).run s).1.plan? planId).map (·.value ((st.merge other).run s).2) =
      (st.plan? planId).map (·.value s) := by
  rw [plan?_merge_of_none st hp]
  refine Option.map_congr fun q hq => ?_
  exact Plan.value_eq_of_keeps (Opens.merge st other s) (h.of_plan? hq).2

theorem mem_planIds_merge (h : st.Proper s) (ho : other.Proper s) (planId : String) :
    planId ∈ ((st.merge other).run s).1.planIds ↔
      planId ∈ st.planIds ∨ planId ∈ other.planIds := by
  rw [← plan?_isSome_iff, ← plan?_isSome_iff, ← plan?_isSome_iff]
  rcases hp : other.plan? planId with _ | p
  · rw [plan?_merge_of_none st hp]
    simp
  · obtain ⟨m, hm, -⟩ := exists_adds h ho hp
    simp [hm]

theorem spent_merge (h : st.Proper s) (ho : other.Proper s) (planId : String) (c : Int) :
    ((st.merge other).run s).1.spent planId c ((st.merge other).run s).2 =
      st.spent planId c s + other.spent planId c s :=
  spentInClass_of_added (Opens.merge st other s) (fun _ hq => h.of_plan? hq)
    (fun _ hp => ho.of_plan? hp) (fun hp => plan?_merge_of_none st hp s)
    (fun _ hp => exists_added ho.nodup hp st s) c

/-- A plan of one status alone stays as it is. -/
theorem map_value_merge_of_alone (h : st.Proper s) (ho : other.Proper s) {planId : String}
    (halone : st.plan? planId = none ∨ other.plan? planId = none) :
    (((st.merge other).run s).1.plan? planId).map (·.value ((st.merge other).run s).2) =
      ((st.plan? planId).or (other.plan? planId)).map (·.value s) := by
  rcases hp : other.plan? planId with _ | p
  · rw [Option.or_none]
    exact map_value_merge_of_none h hp
  · have hq : st.plan? planId = none := by
      rcases halone with hq | hnone
      · exact hq
      · rw [hp] at hnone
        cases hnone
    obtain ⟨m, hm, hadds⟩ := exists_adds h ho hp
    rw [hm, hq, Option.none_or, Option.map_some, Option.map_some, hadds.alone hq]

/-- **The sum of two statuses.** -/
theorem isSum_merge (h : st.Proper s) (ho : other.Proper s) :
    IsSum st other s ((st.merge other).run s).1 ((st.merge other).run s).2 where
  mem_planIds := mem_planIds_merge h ho
  nodup := nodup_merge h.nodup other s
  spent := spent_merge h ho
  common hq hp := by
    obtain ⟨m, hm, hadds⟩ := exists_adds h ho hp
    exact ⟨m, hm, hadds.common hq⟩
  alone := map_value_merge_of_alone h ho
  unchanged p hp := Plan.value_eq_of_keeps (Opens.merge st other s) hp

end Status

/-! ## Any number of windows -/

namespace Window

/-- The statuses are kept under the ids of their line items, plans of one line item have different
ids, their tokens have different classes, and their counters are open. -/
structure Proper (w : Window) (s : Spending) : Prop where
  keyed : w.Keyed
  nodup : ∀ id, ((w.copies id).map (·.id)).Nodup
  distinct : w.Distinct
  isOpen : w.IsOpen s

/-- Add windows, one after the other. -/
def mergeAll (w : Window) (r : Registry) (ws : List Window) : StateM Spending Window :=
  ws.foldlM (fun w other => w.merge r other) w

variable {w : Window} {s s' : Spending}

theorem proper_opened (now : Instant) (s : Spending) : (opened now).Proper s where
  keyed := keyed_opened now
  nodup id := by
    rw [copies_opened]
    exact List.nodup_nil
  distinct := distinct_opened now
  isOpen := isOpen_opened now s

theorem Proper.putStatus (h : w.Proper s) {st : Status} (hst : st.Proper s) :
    (w.putStatus st.lineItemId st).Proper s where
  keyed := h.keyed.putStatus rfl
  nodup id := by
    rw [copies_putStatus]
    split
    · exact hst.nodup
    · exact h.nodup id
  distinct := h.distinct.putStatus hst.distinct
  isOpen := h.isOpen.putStatus (fun hc => hc) hst.isOpen

theorem Proper.mono (h : w.Proper s) (hs : s.Keeps s') : w.Proper s' :=
  ⟨h.keyed, h.nodup, h.distinct, h.isOpen.mono hs.isOpen⟩

/-- What a window counts stays while no open counter is moved. -/
theorem IsOpen.spent_of_keeps (h : w.IsOpen s) (hs : s.Keeps s') (id planId : String) (c : Int) :
    w.spent id planId c s' = w.spent id planId c s := by
  unfold spent
  rcases hq : w.copy? id planId with _ | q
  · rfl
  · exact Plan.spentInClass_eq_of_keeps hs (h.copy hq) c

/-- **The spend of any number of windows adds up, class by class.** -/
theorem spent_mergeAll (hopen : w.IsOpen s) (hdistinct : w.Distinct) {ws : List Window}
    (hws : ∀ other ∈ ws, other.Proper s) (r : Registry) (id planId : String) (c : Int) :
    let out := (w.mergeAll r ws).run s
    out.1.spent id planId c out.2 =
      w.spent id planId c s + (ws.map (·.spent id planId c s)).sum := by
  induction ws generalizing w s with
  | nil => rfl
  | cons other ws ih =>
    intro out
    have hother := hws other List.mem_cons_self
    have hkeeps := Opens.mergeWindow w r other s
    have hrest : ∀ other' ∈ ws, other'.Proper ((w.merge r other).run s).2 := fun other' hmem =>
      (hws other' (List.mem_cons_of_mem _ hmem)).mono hkeeps
    -- the windows that are still to come show what they showed before
    have hsame : ws.map (·.spent id planId c ((w.merge r other).run s).2) =
        ws.map (·.spent id planId c s) := by
      refine List.map_congr_left fun other' hmem => ?_
      exact (hws other' (List.mem_cons_of_mem _ hmem)).isOpen.spent_of_keeps hkeeps id planId c
    have htail := ih (hopen.merge r other) (hdistinct.merge r hother.distinct s) hrest
    rw [hsame, hopen.spent_merge hother.isOpen hother.keyed hother.nodup hdistinct
      hother.distinct] at htail
    rw [List.map_cons, List.sum_cons, ← Nat.add_assoc]
    exact htail

/-- **To add statuses up adds spend and nothing else, and windows may be added up in any order.** A
status that another one is added to has the plans of both. Each class of each plan shows the spend
of both sides; the window, the time of the update and the totals of a common plan are those of the
copy that was updated later, with the classes that only the other copy knows; all other plans, and
those of the status that was added, show what they showed before. So a window that any windows are
added to shows, for every class of every plan, its own spend and the sum of theirs, in whichever
order they come. -/
theorem adds_spend (s : Spending) :
    (∀ st other : Status, st.Proper s → other.Proper s →
      Status.IsSum st other s ((st.merge other).run s).1 ((st.merge other).run s).2) ∧
    ∀ (r : Registry) (w : Window) (ws ws' : List Window), w.Proper s →
      (∀ other ∈ ws, other.Proper s) → ws.Perm ws' → ∀ id planId c,
      let out := (w.mergeAll r ws).run s
      let out' := (w.mergeAll r ws').run s
      out.1.spent id planId c out.2 =
        w.spent id planId c s + (ws.map (·.spent id planId c s)).sum ∧
      out'.1.spent id planId c out'.2 = out.1.spent id planId c out.2 := by
  refine ⟨fun st other h ho => Status.isSum_merge h ho, ?_⟩
  intro r w ws ws' hw hws hperm id planId c out out'
  have hws' : ∀ other ∈ ws', other.Proper s := fun other hmem => hws other (hperm.mem_iff.mpr hmem)
  have hout := spent_mergeAll hw.isOpen hw.distinct hws r id planId c
  have hout' := spent_mergeAll hw.isOpen hw.distinct hws' r id planId c
  refine ⟨hout, hout'.trans (Eq.trans ?_ hout.symm)⟩
  rw [(hperm.map (·.spent id planId c s)).sum_nat]

/-- Two revisions of a plan, the later one without class 2, are added up in windows in either
order. -/
theorem adds_spend_twoRevisions : ∃ (s : Spending) (st other : Status) (w u v : Window),
    st.Proper s ∧ other.Proper s ∧ w.Proper s ∧ (∀ x ∈ [u, v], x.Proper s) ∧ [u, v].Perm [v, u] ∧
      Status.IsSum st other s ((st.merge other).run s).1 ((st.merge other).run s).2 ∧
      let out := (w.mergeAll .empty [v, u]).run s
      out.1.spent "lineItem" "plan" 1 out.2 = 6 ∧ out.1.spent "lineItem" "plan" 2 out.2 = 3 := by
  let s : Spending := ⟨#[2, 3, 4]⟩
  let old : Plan := ⟨"plan", hour 0, hour 1, hour 0, [⟨1, 5, ⟨0⟩⟩, ⟨2, 5, ⟨1⟩⟩]⟩
  let new : Plan := ⟨"plan", hour 0, hour 2, hour 1, [⟨1, 7, ⟨2⟩⟩]⟩
  let st : Status := { Status.new "lineItem" with plans := [old] }
  let other : Status := { Status.new "lineItem" with plans := [new] }
  have hst : st.Proper s := ⟨by decide, by decide, by decide⟩
  have hother : other.Proper s := ⟨by decide, by decide, by decide⟩
  have hw := proper_opened (hour 0) s
  have hboth : ∀ x ∈ [(opened (hour 0)).putStatus "lineItem" st,
      (opened (hour 1)).putStatus "lineItem" other], x.Proper s := by
    intro x hx
    rcases List.mem_pair.mp hx with rfl | rfl
    · exact (proper_opened (hour 0) s).putStatus hst
    · exact (proper_opened (hour 1) s).putStatus hother
  have hperm := List.Perm.swap ((opened (hour 1)).putStatus "lineItem" other)
    ((opened (hour 0)).putStatus "lineItem" st) []
  obtain ⟨hstatus, hwindows⟩ := adds_spend s
  have hsum := hwindows .empty (opened (hour 0)) _ _ hw hboth hperm "lineItem" "plan"
  refine ⟨s, st, other, _, _, _, hst, hother, hw, hboth, hperm, hstatus st other hst hother, ?_⟩
  refine ⟨(hsum 1).2.trans ((hsum 1).1.trans ?_), (hsum 2).2.trans ((hsum 2).1.trans ?_)⟩
  · decide +kernel
  · decide +kernel

end Window

namespace Engine

/-- Windows of a run can be added up. -/
theorem proper_run (c : Config) (start : Instant) {moves : List Move}
    (hmoves : ∀ m ∈ moves, m.Brings LineItemRecord.Distinct) :
    (run c start moves).progress.current.Proper (run c start moves).spending := by
  have htidy := tidy_run c start moves
  obtain ⟨label, howned⟩ := htidy.sound
  exact ⟨htidy.keyed, howned.nodup, (distinct_run c start hmoves).current, htidy.isOpen_current⟩

end Engine

end DealPacing
