import DealPacing.Proofs.Progress.Upkeep
import Mathlib.Algebra.BigOperators.Group.Finset.Piecewise
import Mathlib.Algebra.Order.BigOperators.Group.Finset

/-!
# The overall progress grows

Nothing that the overall progress counts for a line item gets smaller until it is cleaned or
forgotten, with one exception: the spend of a plan. A newer revision of a plan replaces the kept
copy when the active plans are tracked, and the spend of the classes that it does not list is gone.
A closed window replaces the copy as well, and keeps the spend of all classes, as long as each is
listed once.

## Main definitions

* `Window.Grows`: nothing that a window counts gets smaller, except for the spend of some copies
* `Engine.Loses`: the copies whose spend gets smaller in a move

## Main results

* `Window.IsOpen.grows_trackPlans`, `Window.IsOpen.grows_merge`: what becomes of the spend of a copy
* `Engine.overall_grows_iff`: the overall progress grows in all moves but those that forget, except
  for the copies that lose spend
* `Engine.not_loses_handOver`, `Engine.loses_trackPlans_iff`: with each class listed once, spend is
  lost if and only if a newer revision drops a class that has some
-/

namespace DealPacing

namespace Plan

variable {p : Plan} {s s' : Spending}

theorem spentSum_eq_of_keeps (h : s.Keeps s') (hp : p.IsOpen s) :
    p.spentSum s' = p.spentSum s := by
  rw [spentSum_eq, spentSum_eq, balances_eq_of_keeps h hp]

theorem lastSpent_eq_of_keeps (h : s.Keeps s') (hp : p.IsOpen s) :
    p.lastSpent s' = p.lastSpent s := by
  rw [lastSpent, lastSpent, balances_eq_of_keeps h hp]

theorem spentSum_le_of_grows (h : s.Grows s') (hp : p.IsOpen s) :
    p.spentSum s ≤ p.spentSum s' :=
  List.sum_le_sum fun t ht => h.get_le (hp t ht)

/-- The spend of the plan in the classes of a newer revision. -/
def keptBy (p newer : Plan) (s : Spending) : Nat := (newer.classes.map (p.spentInClass · s)).sum

theorem keptBy_eq_of_keeps (h : s.Keeps s') (hp : p.IsOpen s) (newer : Plan) :
    p.keptBy newer s' = p.keptBy newer s := by
  unfold keptBy
  simp only [spentInClass_eq_of_keeps h hp]

/-- A newer revision keeps the spend of its own classes. -/
theorem spentSum_withScheduleOf (hp : p.IsOpen s) (newer : Plan) :
    let out := (p.withScheduleOf newer).run s
    out.1.spentSum out.2 = p.keptBy newer s := by
  intro out
  have hbalances : out.1.balances out.2 = newer.tokens.map fun t =>
      ⟨t.priorityClass, t.total, p.spentInClass t.priorityClass s⟩ :=
    map_balance_continued hp newer.tokens
  rw [spentSum_eq, hbalances, sumSpent, keptBy, classes, List.map_map, List.map_map]
  rfl

theorem spentSum_eq_sum (hd : p.Distinct) (s : Spending) :
    p.spentSum s = ∑ c ∈ p.classes.toFinset, p.spentInClass c s := by
  have hspent : ∀ t ∈ p.tokens, t.spent s = p.spentInClass t.priorityClass s := by
    intro t ht
    rw [spentInClass, (token?_eq_some_iff hd).mpr ⟨ht, rfl⟩]
    rfl
  rw [List.sum_toFinset _ hd, classes, List.map_map, spentSum]
  exact congrArg List.sum (List.map_congr_left hspent)

/-- With each class listed once, spend is lost if and only if a class that has some is dropped. -/
theorem keptBy_lt_iff {newer : Plan} (hd : p.Distinct) (hnewer : newer.Distinct) :
    p.keptBy newer s < p.spentSum s ↔ ∃ c, c ∉ newer.classes ∧ 0 < p.spentInClass c s := by
  -- the classes of the plan are those that the newer one lists and those that it drops
  have hsplit := Finset.sum_inter_add_sum_sdiff p.classes.toFinset newer.classes.toFinset
    (p.spentInClass · s)
  have hkept : p.keptBy newer s =
      ∑ c ∈ p.classes.toFinset ∩ newer.classes.toFinset, p.spentInClass c s := by
    rw [keptBy, ← List.sum_toFinset _ hnewer]
    -- a class that is new in the newer one has no spend
    refine (Finset.sum_subset Finset.inter_subset_right fun c hc hnot => ?_).symm
    refine spentInClass_eq_zero (fun hmem => hnot ?_) s
    exact Finset.mem_inter.mpr ⟨List.mem_toFinset.mpr hmem, hc⟩
  rw [hkept, spentSum_eq_sum hd, ← hsplit, Nat.lt_add_right_iff_pos, Finset.sum_pos_iff]
  constructor
  · rintro ⟨c, hc, hspent⟩
    exact ⟨c, by simpa using (Finset.mem_sdiff.mp hc).2, hspent⟩
  · rintro ⟨c, hc, hspent⟩
    -- the plan lists a class that it has spend in
    have hmem : c ∈ p.classes := by
      by_contra hnot
      rw [spentInClass_eq_zero hnot] at hspent
      exact Nat.lt_irrefl 0 hspent
    exact ⟨c, by simp [hmem, hc], hspent⟩

end Plan

namespace Window

/-- From a window to another one nothing that is counted for a line item gets smaller, but for the
spend of the copies in `loses`. -/
structure Grows (w : Window) (s : Spending) (w' : Window) (s' : Spending)
    (loses : String → String → Prop) : Prop where
  tracked : ∀ {id}, id ∈ w.statuses → id ∈ w'.statuses
  tally_le : ∀ id t, w.tally id t ≤ w'.tally id t
  eventCount_le : ∀ id name, w.eventCount id name ≤ w'.eventCount id name
  losses_le : ∀ id competitor, w.losses id competitor ≤ w'.losses id competitor
  spent_le_iff : ∀ {id planId q}, w.copy? id planId = some q → ∃ q',
    w'.copy? id planId = some q' ∧ (q.spentSum s ≤ q'.spentSum s' ↔ ¬ loses id planId)

variable {w : Window} {s s' : Spending}

/-- The counters may move up. -/
theorem IsOpen.grows (h : w.IsOpen s) (hs : s.Grows s') : w.Grows s w s' fun _ _ => False where
  tracked := id
  tally_le _ _ := Nat.le_refl _
  eventCount_le _ _ := Nat.le_refl _
  losses_le _ _ := Nat.le_refl _
  spent_le_iff {_ _ q} hq :=
    ⟨q, hq, iff_of_true (Plan.spentSum_le_of_grows hs (h.copy hq)) id⟩

/-! ## Closed windows -/

/-- The spend of a copy that another window keeps as well gets smaller when the window is added: the
copy is the newer one and lists a class more than once. -/
def LosesTo (w other : Window) (s : Spending) (id planId : String) : Prop :=
  ∃ p q, other.copy? id planId = some p ∧ w.copy? id planId = some q ∧ ¬ q.updated < p.updated ∧
    q.lastSpent s + p.spentSum s < q.spentSum s

theorem mem_statuses_merge {other : Window} (h : other.Keyed) (r : Registry) {id : String}
    (hid : id ∈ w.statuses) : id ∈ ((w.merge r other).run s).1.statuses := by
  rw [Std.ExtTreeMap.mem_iff_isSome_getElem?] at hid ⊢
  cases hst : other.statuses[id]? with
  | none =>
    rw [statuses_merge_of_none h hst]
    exact hid
  | some st =>
    obtain ⟨s₁, -, -, hmerged⟩ := exists_merged h hst w r s
    rw [hmerged]
    rfl

/-- The spend of two copies, compared to that of the first. -/
theorem spentSum_le_mergedSpentWith_iff (p q : Plan) (s : Spending) :
    let out := (q.mergedSpentWith p).run s
    q.spentSum s ≤ out.1.spentSum out.2 ↔
      ¬ (¬ q.updated < p.updated ∧ q.lastSpent s + p.spentSum s < q.spentSum s) := by
  intro out
  rw [Plan.spentSum_mergedSpentWith q p s]
  split
  · next hnewer => exact iff_of_true (Nat.le_add_left _ _) fun hloses => hloses.1 hnewer
  · next hnewer => rw [not_and, not_lt, imp_iff_right hnewer]

/-- **What a closed window adds to the overall progress.** -/
theorem IsOpen.grows_merge (h : w.IsOpen s) {other : Window} (ho : other.IsOpen s)
    (hk : other.Keyed) (hd : ∀ id, ((other.copies id).map (·.id)).Nodup) (r : Registry) :
    w.Grows s ((w.merge r other).run s).1 ((w.merge r other).run s).2 (w.LosesTo other s) where
  tracked := mem_statuses_merge hk r
  tally_le id t := by
    rw [tally_merge hk]
    exact Nat.le_add_right _ _
  eventCount_le id name := by
    rw [eventCount_merge hk]
    exact Nat.le_add_right _ _
  losses_le id competitor := by
    rw [losses_merge]
    exact Nat.le_add_right _ _
  spent_le_iff := by
    intro id planId q hq
    cases hp : other.copy? id planId with
    | none =>
      refine ⟨q, (copy?_merge_of_none hk hp w r s).trans hq, iff_of_true ?_ ?_⟩
      · exact Plan.spentSum_le_of_grows (Opens.mergeWindow w r other s).grows (h.copy hq)
      · rintro ⟨p, -, hp', -⟩
        rw [hp] at hp'
        cases hp'
    | some p =>
      obtain ⟨s₁, hbefore, hafter, hadded⟩ := exists_added hk (hd id) hp w r s
      rw [hq] at hafter hadded
      refine ⟨_, hadded, ?_⟩
      have hopen : ((Status.added p (some q)).run s₁).1.IsOpen
          ((Status.added p (some q)).run s₁).2 :=
        fun t => (Status.added_continues p (some q) s₁).isOpen_of_mem
      -- what happened before and after the copies were added up leaves all counts
      have hspent := Plan.spentSum_eq_of_keeps hbefore (h.copy hq)
      rw [Plan.spentSum_eq_of_keeps hafter hopen, ← hspent]
      refine (spentSum_le_mergedSpentWith_iff p q s₁).trans (not_congr ?_)
      rw [hspent, Plan.spentSum_eq_of_keeps hbefore (ho.copy hp),
        Plan.lastSpent_eq_of_keeps hbefore (h.copy hq)]
      constructor
      · exact fun hloses => ⟨p, q, hp, hq, hloses⟩
      · rintro ⟨p', q', hp', hq', hloses⟩
        obtain rfl := Option.some.inj (hp.symm.trans hp')
        obtain rfl := Option.some.inj (hq.symm.trans hq')
        exact hloses

/-! ## Tracked plans -/

theorem countOf_putStatus (f : Status → Nat) (w : Window) (id : String) (st : Status)
    (id' : String) :
    (w.putStatus id st).countOf f id' = if id' = id then f st else w.countOf f id' := by
  unfold countOf putStatus
  by_cases hid : id' = id
  · subst hid
    simp
  · simp [Std.ExtTreeMap.getElem?_insert, Ne.symm hid, hid]

theorem countOf_putCopy {f : Status → Nat} (hf : Status.IsCount f) (w : Window) (r : Registry)
    (id : String) (q : Plan) (id' : String) :
    (w.putCopy r id q).countOf f id' = w.countOf f id' := by
  refine (countOf_putStatus f w id _ id').trans ?_
  split
  · next hid =>
    subst hid
    exact (hf.plans _ _).trans (countOf_status hf w r id')
  · rfl

/-- Two windows agree on everything but the copies of plans, and the second one may have more
statuses. -/
structure Agrees (w w' : Window) : Prop where
  tracked : ∀ {id}, id ∈ w.statuses → id ∈ w'.statuses
  countOf_eq : ∀ {f : Status → Nat}, Status.IsCount f → ∀ id, w'.countOf f id = w.countOf f id
  lostTo_eq : w'.lostTo = w.lostTo

theorem Agrees.trans {w w' w'' : Window} (h : w.Agrees w') (h' : w'.Agrees w'') : w.Agrees w'' where
  tracked hid := h'.tracked (h.tracked hid)
  countOf_eq hf id := (h'.countOf_eq hf id).trans (h.countOf_eq hf id)
  lostTo_eq := h'.lostTo_eq.trans h.lostTo_eq

theorem agrees_putCopy (w : Window) (r : Registry) (id : String) (q : Plan) :
    w.Agrees (w.putCopy r id q) where
  tracked hid := Std.ExtTreeMap.mem_insert.mpr (Or.inr hid)
  countOf_eq hf := countOf_putCopy hf w r id q
  lostTo_eq := rfl

theorem agrees_trackPlan (w : Window) (r : Registry) (x : LineItem) (s : Spending) :
    w.Agrees ((w.trackPlan r x).run s).1 := by
  cases hp : x.plan with
  | none =>
    rw [run_trackPlan_of_none hp]
    exact ⟨id, fun _ _ => rfl, rfl⟩
  | some p =>
    rw [run_trackPlan_of_some hp]
    exact agrees_putCopy w r x.id _

theorem agrees_trackPlans (p : Progress) (r : Registry) (s : Spending) :
    p.overall.Agrees ((p.trackPlans r).run s).1.overall := by
  refine run_foldlM_of_mem (I := fun (p' : Progress) _ => p.overall.Agrees p'.overall)
    ⟨id, fun _ _ => rfl, rfl⟩ fun x _ p' s' h => ?_
  exact h.trans (agrees_trackPlan p'.overall r x s')

theorem copies_trackPlan_of_ne (w : Window) (r : Registry) {x : LineItem} {id : String}
    (h : id ≠ x.id) (s : Spending) : ((w.trackPlan r x).run s).1.copies id = w.copies id := by
  cases hp : x.plan with
  | none => rw [run_trackPlan_of_none hp]
  | some p =>
    rw [run_trackPlan_of_some hp]
    exact (copies_putCopy w r x.id _ id).trans (if_neg h.symm)

/-- The overall progress has no plan to keep for a line item that is not registered. -/
theorem copies_trackPlans_of_none {r : Registry} {id : String} (h : r.Keyed) (hx : r.get? id = none)
    (p : Progress) (s : Spending) :
    ((p.trackPlans r).run s).1.overall.copies id = p.overall.copies id := by
  have hnot : id ∉ r.toList.map (·.id) := by
    rintro hmem
    obtain ⟨x, hxmem, rfl⟩ := List.mem_map.mp hmem
    rw [h.get?_of_mem_toList hxmem] at hx
    cases hx
  exact run_foldlM_of_not_mem (f := Progress.trackPlan r)
    (g := fun (p : Progress) id => p.overall.copies id)
    (fun p x s _ hne => copies_trackPlan_of_ne p.overall r hne s) hnot p s

theorem opens_trackPlan (r : Registry) (p : Progress) (x : LineItem) :
    Opens (Progress.trackPlan r p x) :=
  (Opens.trackPlan p.overall r x).bind fun _ =>
    (Opens.trackPlan p.current r x).bind fun _ => .pure _

/-- The active plan of a line item is kept in a round of its own. -/
theorem exists_tracked {r : Registry} {x : LineItem} (h : r.Keyed) (hx : r.get? x.id = some x)
    (p : Progress) (s : Spending) :
    ∃ (w : Window) (s₁ : Spending), w.copies x.id = p.overall.copies x.id ∧ s.Keeps s₁ ∧
      ((w.trackPlan r x).run s₁).2.Keeps ((p.trackPlans r).run s).2 ∧
      ((p.trackPlans r).run s).1.overall.copies x.id =
        ((w.trackPlan r x).run s₁).1.copies x.id := by
  obtain ⟨p₁, s₁, hlook, hbefore, hafter, hresult⟩ := exists_round_of_mem
    (f := Progress.trackPlan r) (g := fun (p : Progress) id => p.overall.copies id)
    (R := Spending.Keeps) .refl .trans (opens_trackPlan r)
    (fun p x s _ hne => copies_trackPlan_of_ne p.overall r hne s) h.nodup_ids
    (h.mem_toList_iff.mpr hx) p s
  refine ⟨p₁.overall, s₁, hlook, hbefore, ?_, hresult⟩
  exact (Opens.trackPlan p₁.current r x _).trans hafter

/-- The spend of a copy gets smaller when the active plans are tracked: the active plan is a newer
revision, and does not list a class that has spend. -/
def LosesTracked (w : Window) (r : Registry) (s : Spending) (id planId : String) : Prop :=
  ∃ p q, r.plan? id = some p ∧ p.id = planId ∧ w.copy? id planId = some q ∧
    q.isSupersededBy p ∧ q.keptBy p s < q.spentSum s

/-- A copy stays unless the active plan is a newer revision of it. -/
theorem copy?_trackPlan_of_not_superseded {x : LineItem} {planId : String} {q : Plan}
    (hq : w.copy? x.id planId = some q)
    (hnot : ¬ ∃ p, x.plan = some p ∧ p.id = planId ∧ q.isSupersededBy p) (r : Registry)
    (s : Spending) : ((w.trackPlan r x).run s).1.copy? x.id planId = some q := by
  cases hp : x.plan with
  | none =>
    rw [run_trackPlan_of_none hp]
    exact hq
  | some p =>
    have hid := id_tracked_copy? w x.id p s
    rw [run_trackPlan_of_some hp, copy?_putCopy, hid]
    by_cases hplan : planId = p.id
    · subst hplan
      have hkept : ¬ q.isSupersededBy p = true := fun h => hnot ⟨p, hp, rfl, h⟩
      rw [if_pos ⟨rfl, rfl⟩, hq]
      simp only [Status.tracked, if_neg hkept]
      rfl
    · rw [if_neg fun e => hplan e.2]
      exact hq

/-- A newer revision takes the place of a copy. -/
theorem copy?_trackPlan_of_superseded {x : LineItem} {p q : Plan} (hp : x.plan = some p)
    (hq : w.copy? x.id p.id = some q) (h : q.isSupersededBy p) (r : Registry) (s : Spending) :
    let out := (w.trackPlan r x).run s
    out.1.copy? x.id p.id = some ((q.withScheduleOf p).run s).1 ∧
      out.2 = ((q.withScheduleOf p).run s).2 := by
  have htracked : Status.tracked p (w.copy? x.id p.id) = q.withScheduleOf p := by
    simp only [hq, Status.tracked, if_pos h]
  intro out
  simp only [out, run_trackPlan_of_some hp, htracked]
  exact ⟨(copy?_putCopy ..).trans (if_pos ⟨rfl, rfl⟩), trivial⟩

/-- What becomes of a copy when the active plan of its line item is kept. -/
theorem exists_trackPlan {x : LineItem} {planId : String} {q : Plan}
    (hq : w.copy? x.id planId = some q) (hopen : q.IsOpen s) (r : Registry) :
    let out := (w.trackPlan r x).run s
    ∃ q', out.1.copy? x.id planId = some q' ∧ q'.IsOpen out.2 ∧
      (q.spentSum s ≤ q'.spentSum out.2 ↔ ¬ ∃ p, x.plan = some p ∧ p.id = planId ∧
        q.isSupersededBy p ∧ q.keptBy p s < q.spentSum s) := by
  intro out
  have hkeeps : s.Keeps out.2 := Opens.trackPlan w r x s
  by_cases h : ∃ p, x.plan = some p ∧ p.id = planId ∧ q.isSupersededBy p
  · obtain ⟨p, hp, rfl, hsuperseded⟩ := h
    obtain ⟨hcopy, hstore⟩ := copy?_trackPlan_of_superseded hp hq hsuperseded r s
    refine ⟨_, hcopy, ?_, ?_⟩
    · rw [hstore]
      exact fun t => (Plan.withScheduleOf_continues hopen p).isOpen_of_mem
    · rw [hstore, Plan.spentSum_withScheduleOf hopen, ← not_lt]
      refine not_congr ⟨fun hloses => ⟨p, hp, rfl, hsuperseded, hloses⟩, ?_⟩
      rintro ⟨p', hp', -, -, hloses⟩
      obtain rfl := Option.some.inj (hp.symm.trans hp')
      exact hloses
  · refine ⟨q, copy?_trackPlan_of_not_superseded hq h r s, fun t ht => hkeeps.isOpen (hopen t ht),
      iff_of_true (Plan.spentSum_le_of_grows hkeeps.grows hopen) ?_⟩
    rintro ⟨p, hp, hid, hsuperseded, -⟩
    exact h ⟨p, hp, hid, hsuperseded⟩

/-- **What tracking the active plans does to the overall progress.** -/
theorem IsOpen.grows_trackPlans {p : Progress} (h : p.overall.IsOpen s) {r : Registry}
    (hr : r.Keyed) :
    p.overall.Grows s ((p.trackPlans r).run s).1.overall ((p.trackPlans r).run s).2
      (p.overall.LosesTracked r s) where
  tracked := (agrees_trackPlans p r s).tracked
  tally_le id t := ((agrees_trackPlans p r s).countOf_eq (Status.isCount_tally t) id).ge
  eventCount_le id name :=
    ((agrees_trackPlans p r s).countOf_eq (Status.isCount_eventCount name) id).ge
  losses_le id competitor := by
    rw [losses, losses, competitors, competitors, (agrees_trackPlans p r s).lostTo_eq]
  spent_le_iff := by
    intro id planId q hq
    have hopen := h.copy hq
    cases hx : r.get? id with
    | none =>
      refine ⟨q, ?_, iff_of_true (Plan.spentSum_le_of_grows ?_ hopen) ?_⟩
      · rw [copy?, copies_trackPlans_of_none hr hx]
        exact hq
      · exact (Opens.foldlM (opens_trackPlan r) r.toList p s).grows
      · rintro ⟨p', -, hplan, -⟩
        rw [Registry.plan?, hx] at hplan
        cases hplan
    | some x =>
      obtain rfl := hr.id_eq hx
      obtain ⟨w, s₁, hlook, hbefore, hafter, hresult⟩ := exists_tracked hr hx p s
      have hq₁ : w.copy? x.id planId = some q := by
        rw [copy?, hlook]
        exact hq
      have hopen₁ : q.IsOpen s₁ := fun t ht => hbefore.isOpen (hopen t ht)
      obtain ⟨q', hq', hopen', hiff⟩ := exists_trackPlan hq₁ hopen₁ r
      refine ⟨q', ?_, ?_⟩
      · rw [copy?, hresult]
        exact hq'
      -- the other line items leave all counts
      rw [Plan.spentSum_eq_of_keeps hafter hopen', ← Plan.spentSum_eq_of_keeps hbefore hopen]
      refine hiff.trans (not_congr (exists_congr fun p' => ?_))
      rw [Plan.keptBy_eq_of_keeps hbefore hopen, Plan.spentSum_eq_of_keeps hbefore hopen,
        Registry.plan?_of_get? hx]
      constructor
      · rintro ⟨hp, hid, hloses⟩
        exact ⟨q, hp, hid, hq, hloses⟩
      · rintro ⟨q'', hp, hid, hq'', hloses⟩
        obtain rfl := Option.some.inj (hq.symm.trans hq'')
        exact ⟨hp, hid, hloses⟩

end Window

/-! ## Moves -/

namespace Engine

/-- The move cleans or forgets progress. -/
def Move.Forgets : Move → Prop
  | .clean _ | .forgetProgress _ => True
  | _ => False

/-- The spend of a copy in the overall progress gets smaller in the move. -/
def Loses (e : Engine) (id planId : String) : Move → Prop
  | .trackPlans => e.progress.overall.LosesTracked e.registry e.spending id planId
  | .handOver _ => e.progress.overall.LosesTo e.progress.current e.spending id planId
  | _ => False

variable {e : Engine}

/-- A move that does not forget makes the overall progress grow. -/
theorem Tidy.grows (h : e.Tidy) {m : Move} (hm : ¬ m.Forgets) :
    e.progress.overall.Grows e.spending (e.move m).progress.overall (e.move m).spending
      fun id planId => e.Loses id planId m := by
  obtain ⟨label, howned⟩ := h.sound
  have hkeeps : e.spending.Grows e.spending := (Spending.Keeps.refl _).grows
  cases m with
  | update records plannerResponds now =>
    exact h.overall.grows (howned.update e.pricing records plannerResponds now).2.grows
  | advance now => exact h.overall.grows (howned.advance now).2.grows
  | spend id => exact h.overall.grows (Raises.spend e.registry id e.spending)
  | auction log accountId =>
    exact h.overall.grows (Raises.recordAuction e.progress e.registry log accountId _)
  | trackPlans => exact h.overall.grows_trackPlans howned.keyed
  | handOver now =>
    have hcurrent : (e.progress.current.close now).IsOpen e.spending := ⟨h.isOpen_current.isOpen⟩
    exact h.overall.grows_merge hcurrent ⟨h.keyed.lineItemId_eq⟩ howned.nodup e.registry
  | clean now => exact absurd trivial hm
  | forgetProgress ids => exact absurd trivial hm
  | removeLineItems ids => cases ids <;> exact h.overall.grows hkeeps
  | setPlannerResponds plannerResponds => exact h.overall.grows hkeeps
  | win id => exact h.overall.grows hkeeps
  | replaceBuffer buffer => exact h.overall.grows hkeeps

/-- With each class listed once, a closed window makes no spend smaller. -/
theorem not_loses_handOver {id planId : String}
    (hd : ∀ q, e.progress.overall.copy? id planId = some q → q.Distinct) (now : Instant) :
    ¬ e.Loses id planId (.handOver now) := by
  rintro ⟨p, q, -, hq, -, hless⟩
  rw [Plan.lastSpent_eq_of_distinct (hd q hq)] at hless
  omega

/-- With each class listed once, tracking makes the spend of a copy smaller if and only if the
active plan is a newer revision that drops a class with spend. -/
theorem loses_trackPlans_iff {id planId : String}
    (hq : ∀ q, e.progress.overall.copy? id planId = some q → q.Distinct)
    (hp : ∀ p, e.registry.plan? id = some p → p.Distinct) :
    e.Loses id planId .trackPlans ↔ ∃ c, e.progress.overall.Drops e.registry id planId c ∧
      0 < e.progress.overall.spent id planId c e.spending := by
  constructor
  · rintro ⟨p, q, hplan, hid, hcopy, hsuperseded, hless⟩
    obtain ⟨c, hc, hspent⟩ := (Plan.keptBy_lt_iff (hq q hcopy) (hp p hplan)).mp hless
    refine ⟨c, ⟨p, q, hplan, hid, hcopy, hsuperseded, hc⟩, ?_⟩
    rw [Window.spent, hcopy]
    exact hspent
  · rintro ⟨c, ⟨p, q, hplan, hid, hcopy, hsuperseded, hc⟩, hspent⟩
    rw [Window.spent, hcopy] at hspent
    have hless := (Plan.keptBy_lt_iff (hq q hcopy) (hp p hplan)).mpr ⟨c, hc, hspent⟩
    exact ⟨p, q, hplan, hid, hcopy, hsuperseded, hless⟩

/-- **The overall progress grows in every move that does not forget, but for the spend of the copies
that lose it.** -/
theorem overall_grows_iff (c : Config) (start : Instant) (moves : List Move) {m : Move}
    (hm : ¬ m.Forgets) :
    let e := run c start moves
    e.progress.overall.Grows e.spending (e.move m).progress.overall (e.move m).spending
      fun id planId => e.Loses id planId m :=
  (tidy_run c start moves).grows hm

/-- A serve is taken and reported, and a newer revision drops its class. -/
def classDropped : List Move := [
  .update [twoHours [⟨1, 1⟩] [] (hour 0)] true (hour 0),
  .auction { sentToClientAsTopMatch := IdSet.ofList ["lineItem"] } "account",
  .handOver (hour 0),
  .update [twoHours [⟨2, 1⟩] [] (hour 1)] true (hour 0)]

/-- The spend of a plan in the overall progress. -/
def overallSpent? (e : Engine) (id planId : String) : Option Nat :=
  (e.progress.overall.copy? id planId).map (·.spentSum e.spending)

/-- The serve of the dropped class is lost. -/
theorem overall_grows_iff_classDropped :
    let e := run {} (hour 0) classDropped
    ¬ Move.trackPlans.Forgets ∧ e.Loses "lineItem" "first" .trackPlans := by
  intro e
  have hm : ¬ Move.trackPlans.Forgets := id
  have hbefore : e.overallSpent? "lineItem" "first" = some 1 := by decide +kernel
  have hafter : (e.move .trackPlans).overallSpent? "lineItem" "first" = some 0 := by decide +kernel
  obtain ⟨q, hq, hspent⟩ := Option.map_eq_some_iff.mp hbefore
  -- the copy went from one serve to none, so it cannot have grown
  obtain ⟨q', hq', hiff⟩ := (overall_grows_iff {} (hour 0) classDropped hm).spent_le_iff hq
  rw [overallSpent?, hq', Option.map_some, Option.some.injEq] at hafter
  rw [hspent, hafter] at hiff
  exact ⟨hm, not_not.mp (mt hiff.mpr (by decide))⟩

/-- A newer revision that drops a class makes the spend of the plan smaller. -/
theorem not_forall_overall_grows :
    ¬ ∀ (c : Config) (start : Instant) (moves : List Move) (m : Move), ¬ m.Forgets →
      ∀ id planId spent spent', (run c start moves).overallSpent? id planId = some spent →
        ((run c start moves).move m).overallSpent? id planId = some spent' → spent ≤ spent' := by
  intro hgrows
  have hm : ¬ Move.trackPlans.Forgets := id
  have hle := hgrows {} (hour 0) classDropped .trackPlans hm "lineItem" "first" 1 0
    (by decide +kernel) (by decide +kernel)
  omega

end Engine

end DealPacing
