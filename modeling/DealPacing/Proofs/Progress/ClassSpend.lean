import DealPacing.Proofs.Delivery.Allotments
import DealPacing.Proofs.Engine.Lasting

/-!
# The spend of each class

As long as the planner lists each class of a schedule at most once, so do all plans and all copies,
whatever happens to them. Then the spend of a class in a window is a number of its own, and windows
that are added up add it up, class by class.

## Main definitions

* `LineItemRecord.Distinct`, `LineItem.Distinct`, `Window.Distinct`: each class occurs at most once
* `Engine.Distinct`: in the registry and in both windows

## Main results

* `Plan.spentInClass_mergedSpentWith`: the spend of two copies adds up, class by class
* `Window.IsOpen.spent_merge`: and so does that of two windows
* `Engine.distinct_run`: each class occurs at most once, along every run
* `Engine.spent_handOver`: a closed window adds its spend to that of the overall progress
-/

namespace DealPacing

namespace Plan

/-- The spend of a class among balances. -/
def spendAmong (bs : List Balance) (c : Int) : Nat :=
  ((bs.find? (·.priorityClass == c)).map (·.spent)).getD 0

/-- The spend of a class in a map of balances. -/
def spendOf (m : ByClass Balance) (c : Int) : Nat := ((m[c]?).map (·.spent)).getD 0

theorem ownClasses_addSpend {m : ByClass Balance} (h : OwnClasses Balance.priorityClass m)
    (b : Balance) : OwnClasses Balance.priorityClass (addSpend m b) := by
  unfold addSpend
  cases hb : m[b.priorityClass]? with
  | none => exact h.insert rfl
  | some a => exact h.insert (h b.priorityClass a hb)

theorem spendOf_addSpend (m : ByClass Balance) (b : Balance) (c : Int) :
    spendOf (addSpend m b) c = spendOf m c + if b.priorityClass = c then b.spent else 0 := by
  unfold spendOf addSpend
  by_cases hc : b.priorityClass = c
  · subst hc
    cases m[b.priorityClass]? <;> simp
  · cases m[b.priorityClass]? <;> simp [Std.ExtTreeMap.getElem?_insert, hc]

theorem spendAmong_cons (b : Balance) {bs : List Balance}
    (hd : ((b :: bs).map (·.priorityClass)).Nodup) (c : Int) :
    spendAmong (b :: bs) c = (if b.priorityClass = c then b.spent else 0) + spendAmong bs c := by
  unfold spendAmong
  by_cases hc : b.priorityClass = c
  · -- no other balance is of the class
    have hnone : bs.find? (·.priorityClass == c) = none := by
      rw [List.map_cons, List.nodup_cons] at hd
      refine List.find?_eq_none.mpr fun b' hb' he => hd.1 ?_
      exact List.mem_map.mpr ⟨b', hb', by simpa [hc] using he⟩
    rw [if_pos hc, hnone, List.find?_cons_of_pos (by simpa using hc)]
    rfl
  · rw [if_neg hc, List.find?_cons_of_neg (by simpa using hc), Nat.zero_add]

/-- Every balance is added to its class. -/
theorem spendOf_foldl_addSpend {bs : List Balance} (hd : (bs.map (·.priorityClass)).Nodup)
    (m : ByClass Balance) (c : Int) :
    spendOf (bs.foldl addSpend m) c = spendOf m c + spendAmong bs c := by
  induction bs generalizing m with
  | nil => rfl
  | cons b bs ih =>
    have hrest : (bs.map (·.priorityClass)).Nodup := (List.nodup_cons.mp hd).2
    rw [List.foldl_cons, ih hrest, spendOf_addSpend, spendAmong_cons b hd, Nat.add_assoc]

theorem ownClasses_byClass (bs : List Balance) : OwnClasses Balance.priorityClass (byClass bs) := by
  rw [byClass, Std.ExtTreeMap.ofList_eq_foldl, List.foldl_map]
  refine foldl_of_prefix (I := fun _ (m : ByClass Balance) => OwnClasses Balance.priorityClass m)
    (fun c b hb => ?_) fun _ b m _ h => h.insert rfl
  rw [Std.ExtTreeMap.getElem?_empty] at hb
  cases hb

/-- With each class at most once, every class finds its balance. -/
theorem spendOf_byClass {bs : List Balance} (hd : (bs.map (·.priorityClass)).Nodup) (c : Int) :
    spendOf (byClass bs) c = spendAmong bs c := by
  rw [spendOf, byClass, getElem?_ofList_map (fun b => b) hd, Option.map_id']
  rfl

/-- Two lists that are added up, by class. -/
def addedByClass (newer older : List Balance) : ByClass Balance :=
  older.foldl addSpend (byClass newer)

theorem addedBalances_eq (newer older : List Balance) :
    addedBalances newer older = (addedByClass newer older).toList.map Prod.snd := rfl

theorem ownClasses_addedByClass (newer older : List Balance) :
    OwnClasses Balance.priorityClass (addedByClass newer older) :=
  foldl_of_prefix (I := fun _ (m : ByClass Balance) => OwnClasses Balance.priorityClass m)
    (ownClasses_byClass newer) fun _ b _ _ h => ownClasses_addSpend h b

theorem nodup_addedBalances (newer older : List Balance) :
    ((addedBalances newer older).map (·.priorityClass)).Nodup :=
  (ownClasses_addedByClass newer older).nodup

/-- The spend of two lists adds up, class by class. -/
theorem spendAmong_addedBalances {newer older : List Balance}
    (hnewer : (newer.map (·.priorityClass)).Nodup) (holder : (older.map (·.priorityClass)).Nodup)
    (c : Int) :
    spendAmong (addedBalances newer older) c = spendAmong newer c + spendAmong older c := by
  rw [← spendOf_byClass hnewer, ← spendOf_foldl_addSpend holder, spendAmong, addedBalances_eq,
    (ownClasses_addedByClass newer older).find?_eq]
  rfl

/-! ## Copies that are added up -/

theorem map_priorityClass_balances (p : Plan) (s : Spending) :
    (p.balances s).map (·.priorityClass) = p.classes := List.map_map ..

theorem spendAmong_balances (p : Plan) (c : Int) (s : Spending) :
    spendAmong (p.balances s) c = p.spentInClass c s := by
  rw [spendAmong, balances, List.find?_map, Option.map_map]
  rfl

theorem distinct_mergedSpentWith (p other : Plan) (s : Spending) :
    ((p.mergedSpentWith other).run s).1.Distinct := by
  rw [Distinct, ← map_priorityClass_balances _ ((p.mergedSpentWith other).run s).2,
    balances_mergedSpentWith]
  split <;> exact nodup_addedBalances _ _

/-- **The spend of two copies adds up, class by class.** -/
theorem spentInClass_mergedSpentWith {p other : Plan} (hp : p.Distinct) (hother : other.Distinct)
    (c : Int) (s : Spending) :
    let out := (p.mergedSpentWith other).run s
    out.1.spentInClass c out.2 = p.spentInClass c s + other.spentInClass c s := by
  intro out
  have hp' := hp
  have hother' := hother
  rw [Distinct, ← map_priorityClass_balances _ s] at hp' hother'
  rw [← spendAmong_balances, balances_mergedSpentWith]
  split
  · rw [spendAmong_addedBalances hother' hp', spendAmong_balances, spendAmong_balances,
      Nat.add_comm]
  · rw [spendAmong_addedBalances hp' hother', spendAmong_balances, spendAmong_balances]

theorem balances_clone (p : Plan) (s : Spending) :
    (p.clone.run s).1.balances (p.clone.run s).2 = p.balances s := map_balance_ofBalances _ s

theorem classes_clone (p : Plan) (s : Spending) : (p.clone.run s).1.classes = p.classes := by
  rw [← map_priorityClass_balances _ (p.clone.run s).2, balances_clone, map_priorityClass_balances]

theorem spentInClass_clone (p : Plan) (c : Int) (s : Spending) :
    (p.clone.run s).1.spentInClass c (p.clone.run s).2 = p.spentInClass c s := by
  rw [← spendAmong_balances, balances_clone, spendAmong_balances]

end Plan

namespace Status

variable {p : Plan} {q? : Option Plan}

theorem distinct_added (hp : p.Distinct) (q? : Option Plan) (s : Spending) :
    ((added p q?).run s).1.Distinct := by
  cases q? with
  | some q => exact q.distinct_mergedSpentWith p s
  | none =>
    show (p.clone.run s).1.classes.Nodup
    rw [Plan.classes_clone]
    exact hp

theorem spentInClass_added (hp : p.Distinct) (hq : ∀ q ∈ q?, q.Distinct) (c : Int) (s : Spending) :
    ((added p q?).run s).1.spentInClass c ((added p q?).run s).2 =
      (q?.map (·.spentInClass c s)).getD 0 + p.spentInClass c s := by
  cases q? with
  | some q => exact Plan.spentInClass_mergedSpentWith (hq q rfl) hp c s
  | none => exact (p.spentInClass_clone c s).trans (Nat.zero_add _).symm

/-- The spend of two copies adds up, whether or not there is one of each. Counters may be opened
before the copies are added up and after it. -/
theorem spentInClass_of_added {p? out? : Option Plan} {s s' : Spending} (hkeeps : s.Keeps s')
    (hq : ∀ q ∈ q?, q.Distinct ∧ q.IsOpen s) (hp : ∀ p ∈ p?, p.Distinct ∧ p.IsOpen s)
    (hnone : p? = none → out? = q?)
    (hadded : ∀ p ∈ p?, ∃ s₁, s.Keeps s₁ ∧ ((added p q?).run s₁).2.Keeps s' ∧
      out? = some ((added p q?).run s₁).1) (c : Int) :
    (out?.map (·.spentInClass c s')).getD 0 =
      (q?.map (·.spentInClass c s)).getD 0 + (p?.map (·.spentInClass c s)).getD 0 := by
  -- what a copy shows does not change while counters are opened
  have hcopy {s₁ : Spending} (hs₁ : s.Keeps s₁) : q?.map (·.spentInClass c s₁) =
      q?.map (·.spentInClass c s) :=
    Option.map_congr fun q hmem => Plan.spentInClass_eq_of_keeps hs₁ (hq q hmem).2 c
  cases p? with
  | none =>
    rw [hnone rfl, hcopy hkeeps]
    rfl
  | some p =>
    obtain ⟨hd, hpo⟩ := hp p rfl
    obtain ⟨s₁, hbefore, hafter, rfl⟩ := hadded p rfl
    have hopen : ((added p q?).run s₁).1.IsOpen ((added p q?).run s₁).2 :=
      fun t => (added_continues p q? s₁).isOpen_of_mem
    have hsum := spentInClass_added hd (fun q hmem => (hq q hmem).1) c s₁
    rw [hcopy hbefore, Plan.spentInClass_eq_of_keeps hbefore hpo] at hsum
    exact (Plan.spentInClass_eq_of_keeps hafter hopen c).trans hsum

theorem distinct_tracked (hp : p.Distinct) (hq : ∀ q ∈ q?, q.Distinct) (s : Spending) :
    ((tracked p q?).run s).1.Distinct := by
  cases q? with
  | none =>
    show (p.withoutSpent.run s).1.classes.Nodup
    rw [Plan.classes_withoutSpent]
    exact hp
  | some q =>
    simp only [tracked]
    split
    · rw [Plan.Distinct, Plan.classes_withScheduleOf]
      exact hp
    · exact hq q rfl

theorem distinct_served (hp : p.Distinct) (hq : ∀ q ∈ q?, q.Distinct) (s : Spending) :
    ((served p q?).run s).1.Distinct := by
  rw [Plan.Distinct, classes_served]
  cases q? with
  | none => exact hp
  | some q => exact hq q rfl

end Status

/-! ## Line items -/

/-- Each schedule of the record lists each class at most once. -/
def LineItemRecord.Distinct (record : LineItemRecord) : Prop := ∀ x ∈ record.schedules, x.Distinct

instance (record : LineItemRecord) : Decidable record.Distinct :=
  inferInstanceAs (Decidable (∀ x ∈ record.schedules, x.Distinct))

/-- The record of the line item and its active plan list each class at most once. -/
structure LineItem.Distinct (x : LineItem) : Prop where
  record : x.record.Distinct
  plan : ∀ p, x.plan = some p → p.Distinct

theorem LineItemRecord.Distinct.of_scheduleAt? {record : LineItemRecord} (h : record.Distinct)
    {now : Instant} {y : Schedule} (hy : record.scheduleAt? now = some y) : y.Distinct :=
  h y (List.mem_of_find?_eq_some hy)

theorem Pacing.Changes.distinct {b b' : Pacing} {s s' : Spending} {change : Change}
    (h : b.Changes s change b' s') (hchange : change.Distinct)
    (hb : ∀ p, b.plan = some p → p.Distinct) : ∀ p, b'.plan = some p → p.Distinct := by
  cases h with
  | kept => exact hb
  | activated hx => exact forall_plan.mpr (Plan.distinct_ofSchedule (hchange _ rfl) s)
  | carriedOn hp hx => exact forall_plan.mpr (Plan.distinct_carriedInto _ _ s)
  | revised hp hid hnewer hx =>
    exact forall_plan.mpr (Plan.distinct_withUpdatedSchedule _ (hchange _ rfl) s)
  | served hp ht => exact forall_plan.mpr (hb _ hp)
  | ended => exact forall_plan_none _

namespace LineItem

theorem distinct_opening {record : LineItemRecord} (h : record.Distinct) (now : Instant) :
    (opening record now).Distinct := by
  unfold opening
  cases hy : record.scheduleAt? now with
  | none => simp [Change.Distinct, Change.schedule?]
  | some y => simpa [Change.Distinct, Change.schedule?] using h.of_scheduleAt? hy

/-- A schedule that comes with an act is one of the line item, or of its new record. -/
theorem distinct_change {x : LineItem} (hx : x.record.Distinct) {a : Act}
    (ha : a.Brings LineItemRecord.Distinct) (s : Spending) : (x.change s a).Distinct := by
  cases a with
  | spend =>
    simp only [change, spendChange]
    split <;> simp [Change.Distinct, Change.schedule?]
  | refresh record cpm targeting now =>
    have hrecord : record.Distinct := ha
    simp only [change, refreshChange]
    split
    · simp [Change.Distinct, Change.schedule?]
    · next y hy _ => simpa [Change.Distinct, Change.schedule?] using hrecord.of_scheduleAt? hy
    · next y p hy hp =>
      have hd := hrecord.of_scheduleAt? hy
      split_ifs <;> simp [Change.Distinct, Change.schedule?, hd]
  | advance now plannerResponds =>
    simp only [change, advanceChange]
    split
    · simp [Change.Distinct, Change.schedule?]
    · split
      · simp [Change.Distinct, Change.schedule?]
      · simp [Change.Distinct, Change.schedule?]
      · next y hy _ => simpa [Change.Distinct, Change.schedule?] using hx.of_scheduleAt? hy
      · next y p hy hp =>
        have hd := hx.of_scheduleAt? hy
        split_ifs <;> simp [Change.Distinct, Change.schedule?, hd]

theorem record_act (x : LineItem) (a : Act) (s : Spending) :
    ((x.act a).run s).1.1.record =
      match a with
      | .refresh record _ _ _ => record
      | _ => x.record := by
  cases a with
  | spend => exact x.record_spend s
  | refresh record cpm targeting now => rfl
  | advance now plannerResponds => exact x.record_advance? now plannerResponds s

/-- Each class occurs at most once, whatever happens to a line item. -/
theorem lasting_distinct : Lasting LineItemRecord.Distinct Distinct where
  register {record} cpm targeting now s hrecord :=
    { record := by
        rw [record_register]
        exact hrecord
      plan := (changes_register record cpm targeting now s).distinct (distinct_opening hrecord now)
        (Pacing.forall_plan_none _) }
  act {x a} s hx ha :=
    { record := by
        rw [record_act]
        cases a with
        | refresh record cpm targeting now => exact ha
        | _ => exact hx.record
      plan := (x.changes_act a s).distinct (distinct_change hx.record ha s) hx.plan }

end LineItem

/-! ## Windows -/

namespace Window

/-- All copies list each class at most once. -/
structure Distinct (w : Window) : Prop where
  of_mem : ∀ {id : String} {q : Plan}, q ∈ w.copies id → q.Distinct

theorem distinct_opened (now : Instant) : (opened now).Distinct where
  of_mem hq := by
    rw [copies_opened] at hq
    cases hq

namespace Distinct

variable {w w' : Window} {r : Registry}

theorem copy (h : w.Distinct) {id planId : String} {q : Plan} (hq : w.copy? id planId = some q) :
    q.Distinct := h.of_mem (mem_of_copy? hq).1

/-- Copies may be dropped. -/
theorem of_subset (h : w.Distinct) (hw : ∀ id, w'.copies id ⊆ w.copies id) : w'.Distinct :=
  ⟨fun hq => h.of_mem (hw _ hq)⟩

theorem of_copies_eq (h : w.Distinct) (hw : w'.copies = w.copies) : w'.Distinct :=
  h.of_subset fun _ => hw ▸ List.Subset.refl _

theorem putStatus (h : w.Distinct) {id : String} {st : Status} (hst : ∀ q ∈ st.plans, q.Distinct) :
    (w.putStatus id st).Distinct where
  of_mem hq := by
    rw [copies_putStatus] at hq
    split at hq
    · exact hst _ hq
    · exact h.of_mem hq

theorem putCopy (h : w.Distinct) {id : String} {q : Plan} (hq : q.Distinct) :
    (w.putCopy r id q).Distinct := by
  refine h.putStatus fun q' hq' => ?_
  rcases Status.eq_or_mem_of_mem_upsert hq' with rfl | hq'
  · exact hq
  · rw [plans_status] at hq'
    exact h.of_mem hq'

theorem trackPlan (h : w.Distinct) {x : LineItem} (hx : x.Distinct) (s : Spending) :
    ((w.trackPlan r x).run s).1.Distinct := by
  cases hp : x.plan with
  | none =>
    rw [run_trackPlan_of_none hp]
    exact h
  | some p =>
    rw [run_trackPlan_of_some hp]
    exact h.putCopy (Status.distinct_tracked (hx.plan p hp) (fun q hq => h.copy hq) s)

theorem recordServe (h : w.Distinct) (hr : r.All LineItem.Distinct) (classes : IdMap Int)
    (id : String) (s : Spending) : ((Window.recordServe r classes w id).run s).1.Distinct := by
  cases hp : (r.get? id).bind (·.plan) with
  | none =>
    rw [run_recordServe_of_none hp]
    exact h
  | some p =>
    obtain ⟨x, hx, hplan⟩ := Option.bind_eq_some_iff.mp hp
    have hactive := (hr.of_get? hx).plan p hplan
    rw [run_recordServe_of_some hp]
    exact h.putCopy (Status.distinct_served hactive (fun q hq => h.copy hq) s)

theorem mergeStatus (h : w.Distinct) {st : Status} (hst : ∀ q ∈ st.plans, q.Distinct)
    (s : Spending) : ((Window.mergeStatus r w st).run s).1.Distinct := by
  refine h.putStatus ?_
  refine run_foldlM_of_mem (I := fun (ps : List Plan) _ => ∀ q ∈ ps, q.Distinct) (fun q hq => ?_)
    fun p hp ps s' h' q hq => ?_
  · rw [plans_status] at hq
    exact h.of_mem hq
  · rw [Status.run_addPlan] at hq
    rcases Status.eq_or_mem_of_mem_upsert hq with rfl | hq
    · exact Status.distinct_added (hst p hp) _ s'
    · exact h' q hq

theorem of_mem_statusList (h : w.Distinct) {st : Status} (hst : st ∈ w.statusList) :
    ∀ q ∈ st.plans, q.Distinct := by
  obtain ⟨id, hget⟩ := mem_statusList_iff.mp hst
  exact fun q hq => h.of_mem (copies_of_getElem? hget ▸ hq)

theorem merge (h : w.Distinct) (r : Registry) {other : Window} (ho : other.Distinct)
    (s : Spending) : ((w.merge r other).run s).1.Distinct :=
  run_merge_of_mem (I := fun w _ => w.Distinct) ⟨h.of_mem⟩
    (fun _ hst _ s' h' => h'.mergeStatus (ho.of_mem_statusList hst) s') fun _ _ _ h' => ⟨h'.of_mem⟩

theorem trackPlans {p : Progress} (hr : r.All LineItem.Distinct) (hcurrent : p.current.Distinct)
    (hoverall : p.overall.Distinct) (s : Spending) :
    ((p.trackPlans r).run s).1.current.Distinct ∧ ((p.trackPlans r).run s).1.overall.Distinct :=
  run_foldlM_of_mem (I := fun (p : Progress) _ => p.current.Distinct ∧ p.overall.Distinct)
    ⟨hcurrent, hoverall⟩ fun _ hx _ s' h =>
      ⟨h.1.trackPlan (hr.of_mem_toList hx) _, h.2.trackPlan (hr.of_mem_toList hx) s'⟩

theorem recordAuction {p : Progress} (h : p.current.Distinct) (hr : r.All LineItem.Distinct)
    (log : AuctionLog) (accountId : String) (s : Spending) :
    ((p.recordAuction r log accountId).run s).1.2.current.Distinct := by
  let taken := (log.sentToClientAsTopMatch.toList.foldlM Progress.serve (r, ∅)).run s
  have htaken : taken.1.1.All LineItem.Distinct := by
    simp only [taken, Progress.run_foldlM_serve]
    exact hr.spendAll LineItem.lasting_distinct _ s
  have htallied := h.of_copies_eq (copies_tallied p.current taken.1.1 log accountId)
  rw [Progress.run_recordAuction]
  refine of_copies_eq ?_ (copies_foldl_recordLosses _ _)
  exact run_foldlM_of_mem (I := fun (w : Window) _ => w.Distinct) htallied fun id _ _ s' h' =>
    h'.recordServe htaken taken.1.2 id s'

end Distinct

/-! ## Windows that are added up -/

/-- **The spend of two windows adds up, class by class.** -/
theorem IsOpen.spent_merge {w other : Window} {s : Spending} (h : w.IsOpen s) (ho : other.IsOpen s)
    (hk : other.Keyed) (hnodup : ∀ id, ((other.copies id).map (·.id)).Nodup) (hd : w.Distinct)
    (hod : other.Distinct) (r : Registry) (id planId : String) (c : Int) :
    ((w.merge r other).run s).1.spent id planId c ((w.merge r other).run s).2 =
      w.spent id planId c s + other.spent id planId c s :=
  Status.spentInClass_of_added (Opens.mergeWindow w r other s)
    (fun _ hq => ⟨hd.copy hq, h.copy hq⟩) (fun _ hp => ⟨hod.copy hp, ho.copy hp⟩)
    (fun hp => copy?_merge_of_none hk hp w r s)
    (fun _ hp => exists_added hk (hnodup id) hp w r s) c

end Window

/-! ## Runs -/

namespace Engine

/-- In the registry and in both windows each class occurs at most once. -/
structure Distinct (e : Engine) : Prop where
  items : e.registry.All LineItem.Distinct
  current : e.progress.current.Distinct
  overall : e.progress.overall.Distinct

variable {e : Engine}

theorem distinct_start (c : Config) (now : Instant) : (start c now).Distinct :=
  ⟨.empty, Window.distinct_opened now, Window.distinct_opened now⟩

/-- Every move keeps each class at most once. -/
theorem Distinct.move (h : e.Distinct) {m : Move} (hm : m.Brings LineItemRecord.Distinct) :
    (e.move m).Distinct := by
  have hitems := all_move LineItem.lasting_distinct h.items hm
  have htracked := Window.Distinct.trackPlans h.items h.current h.overall e.spending
  refine ⟨hitems, ?_, ?_⟩
  · -- the copies of the open window
    cases m with
    | auction log accountId => exact h.current.recordAuction h.items log accountId e.spending
    | win id => exact h.current.of_copies_eq (Window.copies_recordWin _ _ id)
    | trackPlans => exact htracked.1
    | handOver now => exact Window.distinct_opened now
    | forgetProgress ids =>
      cases ids with
      | some ids => exact h.current.of_subset (Window.copies_forget_subset _ ids)
      | none => exact h.current.of_subset (Window.copies_forgetAll_subset _)
    | removeLineItems ids => cases ids <;> exact h.current
    | _ => exact h.current
  · -- the copies of the overall progress
    cases m with
    | trackPlans => exact htracked.2
    | handOver now => exact h.overall.merge e.registry ⟨h.current.of_mem⟩ e.spending
    | clean now => exact h.overall.of_subset (Window.copies_clean_subset _ _ _ _ _)
    | forgetProgress ids =>
      cases ids with
      | some ids => exact h.overall.of_subset (Window.copies_forget_subset _ ids)
      | none => exact h.overall.of_subset (Window.copies_forgetAll_subset _)
    | removeLineItems ids => cases ids <;> exact h.overall
    | _ => exact h.overall

/-- **Each class occurs at most once, along every run** whose records list it at most once. -/
theorem distinct_run (c : Config) (start : Instant) {moves : List Move}
    (hmoves : ∀ m ∈ moves, m.Brings LineItemRecord.Distinct) : (run c start moves).Distinct := by
  induction moves using List.reverseRecOn with
  | nil => exact distinct_start c start
  | append_singleton moves m ih =>
    rw [run_concat]
    exact (ih fun m' hm' => hmoves m' (List.mem_append_left _ hm')).move (hmoves m (by simp))

/-- **A closed window adds its spend to that of the overall progress**, class by class. -/
theorem Distinct.spent_handOver (h : e.Distinct) (ht : e.Tidy) (now : Instant) (id planId : String)
    (c : Int) :
    (e.move (.handOver now)).progress.overall.spent id planId c (e.move (.handOver now)).spending =
      e.progress.overall.spent id planId c e.spending +
        e.progress.current.spent id planId c e.spending := by
  obtain ⟨label, howned⟩ := ht.sound
  have hcurrent : (e.progress.current.close now).IsOpen e.spending := ⟨ht.isOpen_current.isOpen⟩
  exact ht.overall.spent_merge hcurrent ⟨ht.keyed.lineItemId_eq⟩ howned.nodup h.overall
    ⟨h.current.of_mem⟩ e.registry id planId c

end Engine

end DealPacing
