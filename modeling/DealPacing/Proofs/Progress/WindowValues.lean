import DealPacing.Proofs.Delivery.Values
import DealPacing.Proofs.Progress.Upkeep

/-!
# Windows as values

Windows that are added up get new counters, so the same windows added up twice show the same serves
under different names. As a value, a status has its plans as values, and a window its statuses. What
adding a window makes of another is a function of both values, in which no counter occurs.

## Main definitions

* `PlanValue.mergedWith`: two values of a plan added up
* `StatusValue`, `Status.value`: statuses as values
* `WindowValue`, `Window.value`: windows as values
* `WindowValue.merge`: two values of windows added up

## Main results

* `Plan.value_mergedSpentWith`, `Status.value_merge`, `Window.value_merge`: what is added up has
  the value of both added up
-/

namespace DealPacing

/-! ## Plans -/

namespace PlanValue

/-- Two values of a plan added up; the one that was updated later gives the schedule. -/
def mergedWith (v other : PlanValue) : PlanValue :=
  if v.updated < other.updated then
    { other with balances := Plan.addedBalances other.balances v.balances }
  else { v with balances := Plan.addedBalances v.balances other.balances }

/-- Add a value to the first one with its id, or at the end. -/
def addTo (v : PlanValue) : List PlanValue → List PlanValue
  | [] => [v]
  | u :: rest => if u.id = v.id then u.mergedWith v :: rest else u :: v.addTo rest

end PlanValue

namespace Plan

theorem value_clone (p : Plan) (s : Spending) :
    (p.clone.run s).1.value (p.clone.run s).2 = p.value s := by
  have hbalances := map_balance_ofBalances (p.balances s) s
  exact congrArg (PlanValue.mk p.id p.start p.finish p.updated) hbalances

theorem value_mergedSpentWith (p other : Plan) (s : Spending) :
    ((p.mergedSpentWith other).run s).1.value ((p.mergedSpentWith other).run s).2 =
      (p.value s).mergedWith (other.value s) := by
  by_cases hnewer : p.updated < other.updated
  · have hmerged : (p.value s).mergedWith (other.value s) = { other.value s with
        balances := addedBalances (other.balances s) (p.balances s) } := if_pos hnewer
    have hbalances := map_balance_ofBalances (addedBalances (other.balances s) (p.balances s)) s
    rw [hmerged]
    simp only [mergedSpentWith, if_pos hnewer]
    exact congrArg (PlanValue.mk other.id other.start other.finish other.updated) hbalances
  · have hmerged : (p.value s).mergedWith (other.value s) = { p.value s with
        balances := addedBalances (p.balances s) (other.balances s) } := if_neg hnewer
    have hbalances := map_balance_ofBalances (addedBalances (p.balances s) (other.balances s)) s
    rw [hmerged]
    simp only [mergedSpentWith, if_neg hnewer]
    exact congrArg (PlanValue.mk p.id p.start p.finish p.updated) hbalances

/-- Plans with open counters keep their values while others are opened. -/
theorem map_value_eq_of_keeps {ps : List Plan} {s s' : Spending} (h : s.Keeps s')
    (hps : ∀ p ∈ ps, p.IsOpen s) : ps.map (·.value s') = ps.map (·.value s) :=
  List.map_congr_left fun p hp => value_eq_of_keeps h (hps p hp)

end Plan

/-! ## Statuses -/

/-- A status as a value: what it has besides the plans, and the values of these. -/
structure StatusValue where
  rest : Status
  plans : List PlanValue

/-- The status with the serves that the counters of its plans show. -/
def Status.value (st : Status) (s : Spending) : StatusValue :=
  ⟨{ st with plans := [] }, st.plans.map (·.value s)⟩

/-- Two values of a status added up. -/
def StatusValue.merge (v other : StatusValue) : StatusValue where
  rest := {
    v.rest with
    tallies := v.rest.tallies.merge other.rest.tallies
    events := v.rest.events.merge other.rest.events }
  plans := other.plans.foldl (fun us u => u.addTo us) v.plans

namespace Status

theorem value_eq_of_keeps {st : Status} {s s' : Spending} (h : s.Keeps s')
    (hst : ∀ p ∈ st.plans, p.IsOpen s) : st.value s' = st.value s :=
  congrArg (StatusValue.mk _) (Plan.map_value_eq_of_keeps h hst)

theorem map_value_addPlan {ps : List Plan} {p : Plan} {s : Spending}
    (hps : ∀ q ∈ ps, q.IsOpen s) :
    ((addPlan ps p).run s).1.map (·.value ((addPlan ps p).run s).2) =
      (p.value s).addTo (ps.map (·.value s)) := by
  unfold addPlan
  induction ps with
  | nil => exact congrArg (fun v => [v]) (p.value_clone s)
  | cons q ps ih =>
    have hps' : ∀ q ∈ ps, q.IsOpen s := fun q hq => hps q (List.mem_cons_of_mem _ hq)
    unfold updatePlans
    rw [List.map_cons, PlanValue.addTo]
    by_cases hid : q.id = p.id
    · -- the plan is added here, and the later ones keep their values
      have hid' : (q.value s).id = (p.value s).id := hid
      have hkeeps : s.Keeps ((q.mergedSpentWith p).run s).2 := keeps_ofBalances _ s
      rw [if_pos hid, if_pos hid']
      exact congrArg₂ List.cons (q.value_mergedSpentWith p s)
        (Plan.map_value_eq_of_keeps hkeeps hps')
    · -- the plan is added later, and this one keeps its value
      have hid' : ¬ (q.value s).id = (p.value s).id := hid
      have hkeeps := Opens.addPlan ps p s
      rw [if_neg hid, if_neg hid']
      exact congrArg₂ List.cons (Plan.value_eq_of_keeps hkeeps (hps q List.mem_cons_self))
        (ih hps')

theorem map_value_foldlM_addPlan {ps l : List Plan} {s : Spending} (hps : ∀ q ∈ ps, q.IsOpen s)
    (hl : ∀ q ∈ l, q.IsOpen s) :
    ((l.foldlM addPlan ps).run s).1.map (·.value ((l.foldlM addPlan ps).run s).2) =
      (l.map (·.value s)).foldl (fun us u => u.addTo us) (ps.map (·.value s)) := by
  induction l generalizing ps s with
  | nil => rfl
  | cons p l ih =>
    have hkeeps := Opens.addPlan ps p s
    have hl' : ∀ q ∈ l, q.IsOpen s := fun q hq => hl q (List.mem_cons_of_mem _ hq)
    have hrest := ih (isOpen_addPlan hps p)
      (fun q hq t ht => hkeeps.isOpen (hl' q hq t ht))
    rw [map_value_addPlan hps, Plan.map_value_eq_of_keeps hkeeps hl'] at hrest
    exact hrest

/-- What is added up has the value of both added up. -/
theorem value_merge {st other : Status} {s : Spending} (hst : ∀ q ∈ st.plans, q.IsOpen s)
    (hother : ∀ q ∈ other.plans, q.IsOpen s) :
    ((st.merge other).run s).1.value ((st.merge other).run s).2 =
      (st.value s).merge (other.value s) :=
  congrArg (StatusValue.mk _) (map_value_foldlM_addPlan hst hother)

end Status

/-! ## Windows -/

/-- A window as a value: what it has besides the statuses, and the values of these. -/
structure WindowValue where
  rest : Window
  statuses : IdMap StatusValue

/-- The window with the serves that the counters of its plans show. -/
def Window.value (w : Window) (s : Spending) : WindowValue :=
  ⟨{ w with statuses := ∅ }, w.statuses.map fun _ st => st.value s⟩

namespace WindowValue

/-- The value of the status of a line item. -/
def status (v : WindowValue) (r : Registry) (id : String) : StatusValue :=
  (v.statuses[id]?).getD ⟨v.rest.status r id, []⟩

/-- Add the value of a status of another window. -/
def mergeStatus (r : Registry) (v : WindowValue) (u : StatusValue) : WindowValue :=
  let id := u.rest.lineItemId
  { v with statuses := v.statuses.insert id ((v.status r id).merge u) }

/-- The values of the statuses in the order of the line item ids. -/
def statusList (v : WindowValue) : List StatusValue := v.statuses.toList.map Prod.snd

/-- Add what line items lost in another window. -/
def addLosses (v : WindowValue) (other : Window) : WindowValue :=
  let lostTo := other.lostTo.toList.foldl
    (fun m entry => m.insert entry.1 (Histogram.merge (m.getD entry.1 ∅) entry.2)) v.rest.lostTo
  { v with rest := { v.rest with lostTo } }

/-- Add everything that the value of another window holds. -/
def merge (v : WindowValue) (r : Registry) (other : WindowValue) : WindowValue :=
  let counted := { v with rest := {
    v.rest with
    requests := v.rest.requests + other.rest.requests
    accounts := v.rest.accounts.merge other.rest.accounts } }
  (other.statusList.foldl (mergeStatus r) counted).addLosses other.rest

end WindowValue

namespace Window

variable {w : Window} {s s' : Spending}

theorem statusList_value (w : Window) (s : Spending) :
    (w.value s).statusList = w.statusList.map (·.value s) := by
  unfold WindowValue.statusList value statusList
  rw [Std.ExtTreeMap.toList_map, List.map_map, List.map_map]
  rfl

theorem value_status (w : Window) (r : Registry) (id : String) (s : Spending) :
    (w.status r id).value s = (w.value s).status r id := by
  unfold WindowValue.status value status
  rw [Std.ExtTreeMap.getElem?_map]
  cases w.statuses[id]? with
  | some st => rfl
  | none =>
    -- a status that is made now has no plans yet
    cases r.get? id <;> simp [Status.value, Status.new, Status.ofLineItem]

theorem IsOpen.value_eq_of_keeps (h : w.IsOpen s) (hs : s.Keeps s') : w.value s' = w.value s := by
  refine congrArg (WindowValue.mk _) (Std.ExtTreeMap.ext_getElem? fun id => ?_)
  rw [Std.ExtTreeMap.getElem?_map, Std.ExtTreeMap.getElem?_map]
  refine Option.map_congr fun st hst => Status.value_eq_of_keeps hs fun q hq => ?_
  exact h.isOpen (copies_of_getElem? hst ▸ hq)

theorem value_putStatus (w : Window) (id : String) (st : Status) (s : Spending) :
    (w.putStatus id st).value s =
      { w.value s with statuses := (w.value s).statuses.insert id (st.value s) } := by
  refine congrArg (WindowValue.mk _) (Std.ExtTreeMap.ext_getElem? fun id' => ?_)
  unfold putStatus value
  rw [Std.ExtTreeMap.getElem?_map, Std.ExtTreeMap.getElem?_insert,
    Std.ExtTreeMap.getElem?_insert, Std.ExtTreeMap.getElem?_map]
  split <;> rfl

theorem IsOpen.value_mergeStatus (h : w.IsOpen s) (r : Registry) {st : Status}
    (hst : ∀ q ∈ st.plans, q.IsOpen s) :
    ((Window.mergeStatus r w st).run s).1.value ((Window.mergeStatus r w st).run s).2 =
      (w.value s).mergeStatus r (st.value s) := by
  have hkeeps := opens_mergeStatus r w st s
  have hown : ∀ q ∈ (w.status r st.lineItemId).plans, q.IsOpen s := by
    rw [plans_status]
    exact fun q hq => h.isOpen hq
  have hmerged := Status.value_merge hown hst
  rw [value_status] at hmerged
  refine (value_putStatus ..).trans ?_
  rw [h.value_eq_of_keeps hkeeps]
  exact congrArg (fun u : StatusValue => { w.value s with
    statuses := (w.value s).statuses.insert st.lineItemId u }) hmerged

theorem IsOpen.value_foldlM_mergeStatus (h : w.IsOpen s) (r : Registry) {l : List Status}
    (hl : ∀ st ∈ l, ∀ q ∈ st.plans, q.IsOpen s) :
    ((l.foldlM (Window.mergeStatus r) w).run s).1.value
        ((l.foldlM (Window.mergeStatus r) w).run s).2 =
      (l.map (·.value s)).foldl (WindowValue.mergeStatus r) (w.value s) := by
  induction l generalizing w s with
  | nil => rfl
  | cons st l ih =>
    have hkeeps := opens_mergeStatus r w st s
    have hl' : ∀ st ∈ l, ∀ q ∈ st.plans, q.IsOpen s :=
      fun st hst => hl st (List.mem_cons_of_mem _ hst)
    have hrest := ih (h.mergeStatus r st)
      (fun st hst q hq t ht => hkeeps.isOpen (hl' st hst q hq t ht))
    rw [h.value_mergeStatus r (hl st List.mem_cons_self)] at hrest
    -- the statuses that are still to be added keep their values
    rw [List.map_congr_left fun st hst => Status.value_eq_of_keeps hkeeps (hl' st hst)] at hrest
    exact hrest

/-- What is added up has the value of both added up. -/
theorem IsOpen.value_merge (h : w.IsOpen s) (r : Registry) {other : Window} (ho : other.IsOpen s) :
    ((w.merge r other).run s).1.value ((w.merge r other).run s).2 =
      (w.value s).merge r (other.value s) := by
  have hcounted : Window.IsOpen { w with
      requests := w.requests + other.requests
      accounts := w.accounts.merge other.accounts } s := ⟨h.isOpen⟩
  have hloop := hcounted.value_foldlM_mergeStatus r (l := other.statusList)
    fun st hst q hq => ho.of_mem_statusList hst q hq
  rw [← statusList_value] at hloop
  exact congrArg (fun v : WindowValue => v.addLosses other) hloop

end Window

end DealPacing
