import DealPacing.Proofs.Delivery.Values
import DealPacing.Proofs.Progress.WindowSpend
import Mathlib.Algebra.GroupWithZero.Nat

/-!
# Windows added up

A finished window is added to the overall progress entry by entry: counts of one name add up, and a
copy of a plan that both windows keep is replaced by one with counters of its own, which shows the
spend of both. What is added under one id does not matter for the others.

## Main definitions

* `Window.Keyed`: every status is kept under the id of its line item
* `Window.tally`, `Window.eventCount`, `Window.losses`: what a window counts
* `Plan.lastSpent`: the serves spent, where of the tokens of one class the last counts
* `Status.added`: the copy of a plan that was added up
* `Status.IsCount`: counts that add up when windows do

## Main results

* `Plan.spentSum_mergedSpentWith`: the spend of two copies adds up, except for repeated classes
* `Window.tally_merge`, `Window.eventCount_merge`, `Window.losses_merge`: counts add up
* `Window.copy?_merge_of_none`, `Window.exists_added`: what becomes of the copies
-/

namespace DealPacing

/-! ## Loops over the entries of a map -/

section Maps

variable {κ α β : Type} [Ord κ] [Std.TransOrd κ] [Std.LawfulEqOrd κ]

theorem getElem?_foldl_insert_of_not_mem {l : List (κ × β)} {k : κ} (hk : k ∉ l.map Prod.fst)
    (f : Option α → β → α) (m : Std.ExtTreeMap κ α) :
    (l.foldl (fun m e => m.insert e.1 (f m[e.1]? e.2)) m)[k]? = m[k]? := by
  induction l generalizing m with
  | nil => rfl
  | cons e l ih =>
    rw [List.map_cons, List.mem_cons, not_or] at hk
    rw [List.foldl_cons, ih hk.2, Std.ExtTreeMap.getElem?_insert, if_neg]
    simpa using Ne.symm hk.1

theorem getElem?_foldl_insert_of_mem {l : List (κ × β)} (hd : (l.map Prod.fst).Nodup) {k : κ}
    {b : β} (hmem : (k, b) ∈ l) (f : Option α → β → α) (m : Std.ExtTreeMap κ α) :
    (l.foldl (fun m e => m.insert e.1 (f m[e.1]? e.2)) m)[k]? = some (f m[k]? b) := by
  induction l generalizing m with
  | nil => cases hmem
  | cons e l ih =>
    rw [List.map_cons, List.nodup_cons] at hd
    rw [List.foldl_cons]
    rcases List.mem_cons.mp hmem with rfl | hmem
    · -- no later entry writes under its key
      rw [getElem?_foldl_insert_of_not_mem hd.1, Std.ExtTreeMap.getElem?_insert_self]
    · have hne : e.1 ≠ k := fun h => hd.1 (List.mem_map.mpr ⟨(k, b), hmem, h.symm⟩)
      rw [ih hd.2 hmem, Std.ExtTreeMap.getElem?_insert, if_neg (by simpa using hne)]

/-- A loop over the entries of a map that writes under their keys. -/
theorem getElem?_foldl_toList (f : Option α → β → α) (m : Std.ExtTreeMap κ α)
    (other : Std.ExtTreeMap κ β) (k : κ) :
    (other.toList.foldl (fun m e => m.insert e.1 (f m[e.1]? e.2)) m)[k]? =
      (other[k]?.map (f m[k]?)).or m[k]? := by
  cases hk : other[k]? with
  | none =>
    refine getElem?_foldl_insert_of_not_mem (fun hmem => ?_) f m
    obtain ⟨⟨k', b⟩, hentry, rfl⟩ := List.mem_map.mp hmem
    rw [Std.ExtTreeMap.mem_toList_iff_getElem?_eq_some.mp hentry] at hk
    cases hk
  | some b =>
    have hmem : (k, b) ∈ other.toList := Std.ExtTreeMap.mem_toList_iff_getElem?_eq_some.mpr hk
    exact getElem?_foldl_insert_of_mem (nodup_keys_toList other) hmem f m

/-- An entry and all the others. -/
theorem perm_toList_of_getElem? {m : Std.ExtTreeMap κ α} {k : κ} {a : α} (h : m[k]? = some a) :
    m.toList.Perm ((k, a) :: (m.erase k).toList) := by
  have hrest {e : κ × α} : e ∈ (m.erase k).toList ↔ k ≠ e.1 ∧ m[e.1]? = some e.2 := by
    obtain ⟨k', b⟩ := e
    rw [Std.ExtTreeMap.mem_toList_iff_getElem?_eq_some, Std.ExtTreeMap.getElem?_erase]
    by_cases hk : k = k' <;> simp [hk]
  -- neither list has an entry twice, so they are compared by their members
  refine (List.perm_ext_iff_of_nodup (nodup_keys_toList m).of_map ?_).mpr fun ⟨k', b⟩ => ?_
  · rw [List.nodup_cons]
    exact ⟨fun hmem => (hrest.mp hmem).1 rfl, (nodup_keys_toList _).of_map⟩
  · rw [List.mem_cons, hrest, Std.ExtTreeMap.mem_toList_iff_getElem?_eq_some, Prod.mk.injEq]
    by_cases hk : k' = k
    · subst hk
      simp [h, eq_comm]
    · simp [hk, Ne.symm hk]

/-- The sum over the values of a map. -/
def sumOver (f : α → Nat) (m : Std.ExtTreeMap κ α) : Nat := (m.toList.map (f ·.2)).sum

theorem sumOver_eq (f : α → Nat) (m : Std.ExtTreeMap κ α) (k : κ) :
    sumOver f m = (m[k]?.map f).getD 0 + sumOver f (m.erase k) := by
  cases h : m[k]? with
  | some a =>
    unfold sumOver
    rw [((perm_toList_of_getElem? h).map _).sum_nat, List.map_cons, List.sum_cons]
    rfl
  | none =>
    -- there is nothing to erase
    have hsame : m.erase k = m := by
      refine Std.ExtTreeMap.ext_getElem? fun k' => ?_
      rw [Std.ExtTreeMap.getElem?_erase]
      split
      · next hk => rw [← Std.LawfulEqCmp.eq_of_compare hk, h]
      · rfl
    rw [hsame]
    simp

theorem sumOver_insert (f : α → Nat) (m : Std.ExtTreeMap κ α) (k : κ) (a : α) :
    sumOver f (m.insert k a) + (m[k]?.map f).getD 0 = f a + sumOver f m := by
  have hrest : (m.insert k a).erase k = m.erase k := by
    refine Std.ExtTreeMap.ext_getElem? fun k' => ?_
    rw [Std.ExtTreeMap.getElem?_erase, Std.ExtTreeMap.getElem?_erase]
    split
    · rfl
    · next hk => rw [Std.ExtTreeMap.getElem?_insert, if_neg hk]
  rw [sumOver_eq f (m.insert k a) k, hrest, Std.ExtTreeMap.getElem?_insert_self, sumOver_eq f m k,
    Option.map_some, Option.getD_some]
  omega

end Maps

/-! ## Counts -/

namespace Histogram

theorem getElem?_merge (h other : Histogram) (k : String) :
    (h.merge other)[k]? = (other[k]?.map (h[k]?.getD 0 + ·)).or h[k]? := by
  -- the loop, with what it finds under a key as an option
  have hround : (fun (h : Histogram) (e : String × Nat) => h.addTo e.1 e.2) =
      fun h e => h.insert e.1 (h[e.1]?.getD 0 + e.2) := by
    funext h e
    rw [addTo, Std.ExtTreeMap.getD_eq_getD_getElem?]
  unfold merge
  rw [hround]
  exact getElem?_foldl_toList (fun o n => o.getD 0 + n) h other k

/-- Counts of one name add up. -/
theorem getD_merge (h other : Histogram) (k : String) :
    (h.merge other).getD k 0 = h.getD k 0 + other.getD k 0 := by
  rw [Std.ExtTreeMap.getD_eq_getD_getElem?, getElem?_merge, Std.ExtTreeMap.getD_eq_getD_getElem?,
    Std.ExtTreeMap.getD_eq_getD_getElem?]
  cases other[k]? <;> simp

end Histogram

/-! ## Spend -/

namespace Plan

/-- The balances of a list by class; of balances of one class the last. -/
def byClass (bs : List Balance) : ByClass Balance :=
  Std.ExtTreeMap.ofList (bs.map fun b => (b.priorityClass, b))

/-- Add the spend of a balance to its class. -/
def addSpend (m : ByClass Balance) (b : Balance) : ByClass Balance :=
  match m[b.priorityClass]? with
  | some a => m.insert b.priorityClass { a with spent := a.spent + b.spent }
  | none => m.insert b.priorityClass b

theorem sumOver_addSpend (m : ByClass Balance) (b : Balance) :
    sumOver Balance.spent (addSpend m b) = sumOver Balance.spent m + b.spent := by
  unfold addSpend
  cases h : m[b.priorityClass]? with
  | some a =>
    have hinsert := sumOver_insert Balance.spent m b.priorityClass
      { a with spent := a.spent + b.spent }
    simp only [h, Option.map_some, Option.getD_some] at hinsert ⊢
    omega
  | none =>
    have hinsert := sumOver_insert Balance.spent m b.priorityClass b
    simp only [h, Option.map_none, Option.getD_none] at hinsert ⊢
    omega

theorem sumOver_foldl_addSpend (bs : List Balance) (m : ByClass Balance) :
    sumOver Balance.spent (bs.foldl addSpend m) = sumOver Balance.spent m + sumSpent bs := by
  induction bs generalizing m with
  | nil => rfl
  | cons b bs ih =>
    rw [List.foldl_cons, ih, sumOver_addSpend, sumSpent, sumSpent, List.map_cons, List.sum_cons]
    omega

theorem sumSpent_addedBalances (newer older : List Balance) :
    sumSpent (addedBalances newer older) =
      sumOver Balance.spent (byClass newer) + sumSpent older := by
  rw [← sumOver_foldl_addSpend, sumOver, sumSpent]
  exact congrArg List.sum (List.map_map ..)

theorem sumOver_foldl_insert {bs : List Balance} (hd : (bs.map (·.priorityClass)).Nodup)
    (m : ByClass Balance) (hm : ∀ b ∈ bs, m[b.priorityClass]? = none) :
    sumOver Balance.spent (bs.foldl (fun m b => m.insert b.priorityClass b) m) =
      sumOver Balance.spent m + sumSpent bs := by
  induction bs generalizing m with
  | nil => rfl
  | cons b bs ih =>
    rw [List.map_cons, List.nodup_cons] at hd
    -- the class of `b` is taken now, but no later balance has it
    have hrest : ∀ b' ∈ bs, (m.insert b.priorityClass b)[b'.priorityClass]? = none := by
      intro b' hb'
      have hne : b.priorityClass ≠ b'.priorityClass := fun e => hd.1 (e ▸ List.mem_map_of_mem hb')
      rw [Std.ExtTreeMap.getElem?_insert, if_neg (by simpa using hne)]
      exact hm b' (List.mem_cons_of_mem b hb')
    have hinsert := sumOver_insert Balance.spent m b.priorityClass b
    rw [hm b (by simp), Option.map_none, Option.getD_none] at hinsert
    rw [List.foldl_cons, ih hd.2 _ hrest, sumSpent, sumSpent, List.map_cons, List.sum_cons]
    omega

/-- With each class at most once, all balances count. -/
theorem sumOver_byClass {bs : List Balance} (hd : (bs.map (·.priorityClass)).Nodup) :
    sumOver Balance.spent (byClass bs) = sumSpent bs := by
  have hempty : sumOver Balance.spent (∅ : ByClass Balance) = 0 := rfl
  rw [byClass, Std.ExtTreeMap.ofList_eq_foldl, List.foldl_map,
    sumOver_foldl_insert hd ∅ fun _ _ => Std.ExtTreeMap.getElem?_empty, hempty, Nat.zero_add]

/-- The serves spent, where of the tokens of one class the last counts. -/
def lastSpent (p : Plan) (s : Spending) : Nat := sumOver Balance.spent (byClass (p.balances s))

theorem lastSpent_eq_of_distinct {p : Plan} (hd : p.Distinct) (s : Spending) :
    p.lastSpent s = p.spentSum s := by
  rw [spentSum_eq]
  refine sumOver_byClass ?_
  rw [balances, List.map_map]
  exact hd

/-- The new counters show the balances that are computed from both copies. -/
theorem balances_mergedSpentWith (p other : Plan) (s : Spending) :
    let out := (p.mergedSpentWith other).run s
    out.1.balances out.2 =
      if p.updated < other.updated then addedBalances (other.balances s) (p.balances s)
      else addedBalances (p.balances s) (other.balances s) := by
  intro out
  simp only [out, mergedSpentWith]
  split <;> exact map_balance_ofBalances _ s

/-- The spend of two copies adds up, but of the tokens of one class in the copy that was updated
later only the last counts. -/
theorem spentSum_mergedSpentWith (p other : Plan) (s : Spending) :
    let out := (p.mergedSpentWith other).run s
    out.1.spentSum out.2 =
      if p.updated < other.updated then other.lastSpent s + p.spentSum s
      else p.lastSpent s + other.spentSum s := by
  intro out
  rw [spentSum_eq, balances_mergedSpentWith]
  split <;> rw [sumSpent_addedBalances, spentSum_eq] <;> rfl

end Plan

/-! ## Statuses -/

namespace Status

/-- The copy of the plan `p` when the status keeps `q?`: the spend of both, or a copy of `p`. It has
counters of its own. -/
def added (p : Plan) : Option Plan → StateM Spending Plan
  | some q => q.mergedSpentWith p
  | none => p.clone

section Added

variable {p : Plan} {q? : Option Plan}

theorem id_added (hq : ∀ q ∈ q?, q.id = p.id) (s : Spending) :
    ((added p q?).run s).1.id = p.id := by
  cases q? with
  | none => rfl
  | some q =>
    show ((q.mergedSpentWith p).run s).1.id = p.id
    unfold Plan.mergedSpentWith
    by_cases hnewer : q.updated < p.updated
    · simp only [if_pos hnewer]
      rfl
    · simp only [if_neg hnewer]
      exact hq q rfl

theorem added_continues (p : Plan) (q? : Option Plan) (s : Spending) :
    Continues s ((added p q?).run s).2 [] ((added p q?).run s).1.tokens := by
  cases q? with
  | none => exact ofBalances_continues _ s
  | some q => exact ofBalances_continues _ s

theorem run_addPlan (ps : List Plan) (p : Plan) (s : Spending) :
    (addPlan ps p).run s =
      let out := (added p (ps.find? (·.id == p.id))).run s
      (upsert p.id out.1 ps, out.2) := by
  have hadded : ((ps.find? (·.id == p.id)).map fun q => q.mergedSpentWith p).getD p.clone =
      added p (ps.find? (·.id == p.id)) := by
    cases ps.find? (·.id == p.id) <;> rfl
  rw [addPlan, run_updatePlans, hadded]

theorem find?_addPlan (ps : List Plan) (p : Plan) (s : Spending) (planId : String) :
    ((addPlan ps p).run s).1.find? (·.id == planId) =
      if planId = p.id then some ((added p (ps.find? (·.id == p.id))).run s).1
      else ps.find? (·.id == planId) := by
  have hid : ((added p (ps.find? (·.id == p.id))).run s).1.id = p.id :=
    id_added (fun q hq => by simpa using List.find?_some hq) s
  rw [run_addPlan, find?_upsert hid]

/-- The kept plans stay open while one is added. -/
theorem isOpen_addPlan {ps : List Plan} {s : Spending} (h : ∀ q ∈ ps, q.IsOpen s) (p : Plan) :
    ∀ q ∈ ((addPlan ps p).run s).1, q.IsOpen ((addPlan ps p).run s).2 := by
  have hcontinues := added_continues p (ps.find? (·.id == p.id)) s
  intro q hq
  rw [run_addPlan] at hq ⊢
  rcases eq_or_mem_of_mem_upsert hq with rfl | hq
  · exact fun t => hcontinues.isOpen_of_mem
  · exact fun t ht => hcontinues.keeps.isOpen (h q hq t ht)

end Added

variable {other : Status} {planId : String}

/-- A plan that the other status does not keep stays. -/
theorem plan?_merge_of_none (st : Status) (h : other.plan? planId = none) (s : Spending) :
    ((st.merge other).run s).1.plan? planId = st.plan? planId := by
  have hid : planId ∉ other.plans.map (·.id) := by
    rintro hmem
    obtain ⟨p, hp, rfl⟩ := List.mem_map.mp hmem
    exact List.find?_eq_none.mp h p hp (by simp)
  exact run_foldlM_of_not_mem (g := fun ps planId => ps.find? (·.id == planId))
    (fun ps p s k hne => (find?_addPlan ps p s k).trans (if_neg hne)) hid st.plans s

/-- A plan that the other status keeps is added up. -/
theorem exists_added (hd : (other.plans.map (·.id)).Nodup) {p : Plan}
    (hp : other.plan? planId = some p) (st : Status) (s : Spending) :
    ∃ s₁, s.Keeps s₁ ∧
      ((added p (st.plan? planId)).run s₁).2.Keeps ((st.merge other).run s).2 ∧
      ((st.merge other).run s).1.plan? planId =
        some ((added p (st.plan? planId)).run s₁).1 := by
  have hmem := List.mem_of_find?_eq_some hp
  obtain rfl : p.id = planId := by simpa using List.find?_some hp
  obtain ⟨ps₁, s₁, hlook, hbefore, hafter, hresult⟩ := exists_round_of_mem
    (g := fun ps planId => ps.find? (·.id == planId)) (R := Spending.Keeps) .refl .trans
    (fun ps p s => Opens.addPlan ps p s)
    (fun ps p s k hne => (find?_addPlan ps p s k).trans (if_neg hne)) hd hmem st.plans s
  -- the rounds before that of `p` did not touch what was kept under its id
  have hstore := congrArg Prod.snd (run_addPlan ps₁ p s₁)
  simp only [find?_addPlan, if_pos] at hresult
  rw [hlook] at hstore hresult
  rw [hstore] at hafter
  exact ⟨s₁, hbefore, hafter, hresult⟩

/-- A count of a status: it starts at zero, adds up, and has nothing to do with the kept plans. -/
structure IsCount (f : Status → Nat) : Prop where
  new : ∀ id, f (.new id) = 0
  ofLineItem : ∀ x, f (.ofLineItem x) = 0
  plans : ∀ st plans, f { st with plans } = f st
  merge : ∀ (st other : Status) (s : Spending),
    f ((st.merge other).run s).1 = f st + f other

theorem isCount_tally (t : Tally) : IsCount (·.tallies.get t) where
  new _ := Tallies.get_zero t
  ofLineItem _ := Tallies.get_zero t
  plans _ _ := rfl
  merge st other _ := Tallies.get_merge st.tallies other.tallies t

theorem isCount_eventCount (name : String) : IsCount (·.eventCount name) where
  new _ := Std.ExtTreeMap.getD_empty
  ofLineItem _ := Std.ExtTreeMap.getD_empty
  plans _ _ := rfl
  merge st other _ := Histogram.getD_merge st.events other.events name

end Status

/-! ## Windows -/

namespace Window

/-- Every status is kept under the id of its line item. -/
structure Keyed (w : Window) : Prop where
  lineItemId_eq : ∀ {id : String} {st : Status}, w.statuses[id]? = some st → st.lineItemId = id

/-- The count of a tally of a line item. -/
def tally (w : Window) (id : String) (t : Tally) : Nat :=
  ((w.statuses[id]?).map (·.tallies.get t)).getD 0

/-- How often an event happened to a line item. -/
def eventCount (w : Window) (id name : String) : Nat :=
  ((w.statuses[id]?).map (·.eventCount name)).getD 0

/-- How often a line item lost to a competitor. -/
def losses (w : Window) (id competitor : String) : Nat := (w.competitors id).getD competitor 0

/-- What a window shows of a count of a line item. -/
def countOf (f : Status → Nat) (w : Window) (id : String) : Nat := ((w.statuses[id]?).map f).getD 0

theorem countOf_status {f : Status → Nat} (hf : Status.IsCount f) (w : Window) (r : Registry)
    (id : String) : f (w.status r id) = w.countOf f id := by
  unfold status countOf
  cases w.statuses[id]? with
  | some st => rfl
  | none =>
    cases r.get? id with
    | none => exact hf.new id
    | some x => exact hf.ofLineItem x

theorem plan?_status (w : Window) (r : Registry) (id planId : String) :
    (w.status r id).plan? planId = w.copy? id planId := by
  rw [Status.plan?, plans_status]
  rfl

theorem countOf_eq_of_statuses {w : Window} {id : String} {st? : Option Status}
    (h : w.statuses[id]? = st?) (f : Status → Nat) : w.countOf f id = (st?.map f).getD 0 := by
  rw [countOf, h]

theorem copy?_eq_of_statuses {w : Window} {id : String} {st : Status}
    (h : w.statuses[id]? = some st) (planId : String) : w.copy? id planId = st.plan? planId := by
  rw [copy?, copies, h]
  rfl

theorem status_congr {w w' : Window} {id : String} (h : w'.statuses[id]? = w.statuses[id]?)
    (r : Registry) : w'.status r id = w.status r id := by
  unfold status
  rw [h]

theorem statuses_mergeStatus_of_ne (r : Registry) (w : Window) (st : Status) (s : Spending)
    {id : String} (h : id ≠ st.lineItemId) :
    ((mergeStatus r w st).run s).1.statuses[id]? = w.statuses[id]? :=
  Std.ExtTreeMap.getElem?_insert.trans (if_neg (by simpa using Ne.symm h))

theorem statuses_mergeStatus_self (r : Registry) (w : Window) (st : Status) (s : Spending) :
    ((mergeStatus r w st).run s).1.statuses[st.lineItemId]? =
      some (((w.status r st.lineItemId).merge st).run s).1 :=
  Std.ExtTreeMap.getElem?_insert_self

variable {other : Window} {id : String}

theorem Keyed.map_lineItemId (h : other.Keyed) :
    other.statusList.map (·.lineItemId) = other.statuses.toList.map Prod.fst := by
  rw [statusList, List.map_map]
  refine List.map_congr_left fun e he => ?_
  exact h.lineItemId_eq (Std.ExtTreeMap.mem_toList_iff_getElem?_eq_some.mp he)

/-- A line item that the other window has no status of keeps its status. -/
theorem statuses_merge_of_none (h : other.Keyed) (hid : other.statuses[id]? = none) (w : Window)
    (r : Registry) (s : Spending) :
    ((w.merge r other).run s).1.statuses[id]? = w.statuses[id]? := by
  have hnot : id ∉ other.statusList.map (·.lineItemId) := by
    rw [h.map_lineItemId]
    rintro hmem
    obtain ⟨⟨id', st⟩, hentry, rfl⟩ := List.mem_map.mp hmem
    rw [Std.ExtTreeMap.mem_toList_iff_getElem?_eq_some.mp hentry] at hid
    cases hid
  exact run_foldlM_of_not_mem (g := fun (w : Window) id => w.statuses[id]?)
    (fun w st s _ hne => statuses_mergeStatus_of_ne r w st s hne) hnot _ s

/-- What every status that is added keeps, and the losses do not matter for, is kept when a window
is added. -/
theorem run_merge_of_mem {I : Window → Spending → Prop} {w : Window} {r : Registry} {s : Spending}
    (h : I { w with
      requests := w.requests + other.requests
      accounts := w.accounts.merge other.accounts } s)
    (hstep : ∀ st ∈ other.statusList, ∀ w s, I w s →
      I ((mergeStatus r w st).run s).1 ((mergeStatus r w st).run s).2)
    (hlost : ∀ w s lostTo, I w s → I { w with lostTo } s) :
    I ((w.merge r other).run s).1 ((w.merge r other).run s).2 :=
  hlost _ _ _ (run_foldlM_of_mem h fun st hst w s h' => hstep st hst w s h')

theorem opens_mergeStatus (r : Registry) (w : Window) (st : Status) :
    Opens (mergeStatus r w st) :=
  .bind (.bind (.foldlM Opens.addPlan _ _) fun _ => .pure _) fun _ => .pure _

/-- The status of a line item is the sum of the statuses in both windows. -/
theorem exists_merged (h : other.Keyed) {st : Status} (hst : other.statuses[id]? = some st)
    (w : Window) (r : Registry) (s : Spending) :
    ∃ s₁, s.Keeps s₁ ∧
      (((w.status r id).merge st).run s₁).2.Keeps ((w.merge r other).run s).2 ∧
      ((w.merge r other).run s).1.statuses[id]? =
        some (((w.status r id).merge st).run s₁).1 := by
  obtain rfl := h.lineItemId_eq hst
  have hmem : st ∈ other.statusList :=
    List.mem_map.mpr ⟨_, Std.ExtTreeMap.mem_toList_iff_getElem?_eq_some.mpr hst, rfl⟩
  have hd : (other.statusList.map (·.lineItemId)).Nodup := by
    rw [h.map_lineItemId]
    exact nodup_keys_toList _
  obtain ⟨w₁, s₁, hlook, hbefore, hafter, hresult⟩ := exists_round_of_mem
    (g := fun (w : Window) id => w.statuses[id]?) (R := Spending.Keeps) .refl .trans
    (fun w st s => opens_mergeStatus r w st s)
    (fun w st s _ hne => statuses_mergeStatus_of_ne r w st s hne) hd hmem
    { w with
      requests := w.requests + other.requests
      accounts := w.accounts.merge other.accounts } s
  -- the rounds before that of `st` did not touch the status it is added to
  have hstatus : w₁.status r st.lineItemId = w.status r st.lineItemId := status_congr hlook r
  rw [statuses_mergeStatus_self, hstatus] at hresult
  rw [← hstatus] at hresult ⊢
  exact ⟨s₁, hbefore, hafter, hresult⟩

/-- Counts add up. -/
theorem countOf_merge {f : Status → Nat} (hf : Status.IsCount f) (h : other.Keyed) (w : Window)
    (r : Registry) (s : Spending) (id : String) :
    ((w.merge r other).run s).1.countOf f id = w.countOf f id + other.countOf f id := by
  cases hst : other.statuses[id]? with
  | none =>
    rw [countOf_eq_of_statuses (statuses_merge_of_none h hst w r s), countOf_eq_of_statuses hst]
    rfl
  | some st =>
    obtain ⟨s₁, -, -, hmerged⟩ := exists_merged h hst w r s
    rw [countOf_eq_of_statuses hmerged, countOf_eq_of_statuses hst, ← countOf_status hf w r id]
    exact hf.merge _ st s₁

/-- Tallies add up. -/
theorem tally_merge (h : other.Keyed) (w : Window) (r : Registry) (s : Spending) (id : String)
    (t : Tally) :
    ((w.merge r other).run s).1.tally id t = w.tally id t + other.tally id t :=
  countOf_merge (Status.isCount_tally t) h w r s id

/-- Events add up. -/
theorem eventCount_merge (h : other.Keyed) (w : Window) (r : Registry) (s : Spending)
    (id name : String) :
    ((w.merge r other).run s).1.eventCount id name =
      w.eventCount id name + other.eventCount id name :=
  countOf_merge (Status.isCount_eventCount name) h w r s id

theorem lostTo_merge (w : Window) (r : Registry) (other : Window) (s : Spending) :
    ((w.merge r other).run s).1.lostTo = other.lostTo.toList.foldl
      (fun m e => m.insert e.1 ((m[e.1]?.getD ∅).merge e.2)) w.lostTo := by
  let counted : Window :=
    { w with
      requests := w.requests + other.requests
      accounts := w.accounts.merge other.accounts }
  -- statuses are added up first, and losses afterwards
  have hloop : ((other.statusList.foldlM (mergeStatus r) counted).run s).1.lostTo = w.lostTo :=
    run_foldlM_of_mem (I := fun (w' : Window) _ => w'.lostTo = w.lostTo) rfl
      fun _ _ _ _ h => h
  have hround : (fun (m : IdMap Histogram) (e : String × Histogram) =>
      m.insert e.1 ((m.getD e.1 ∅).merge e.2)) =
        fun m e => m.insert e.1 ((m[e.1]?.getD ∅).merge e.2) := by
    funext m e
    rw [Std.ExtTreeMap.getD_eq_getD_getElem?]
  rw [← hloop, ← hround]
  rfl

/-- Losses add up. -/
theorem losses_merge (w : Window) (r : Registry) (other : Window) (s : Spending)
    (id competitor : String) :
    ((w.merge r other).run s).1.losses id competitor =
      w.losses id competitor + other.losses id competitor := by
  have hget := getElem?_foldl_toList (fun (h? : Option Histogram) h => (h?.getD ∅).merge h)
    w.lostTo other.lostTo id
  rw [← lostTo_merge w r other s] at hget
  simp only [losses, competitors, Std.ExtTreeMap.getD_eq_getD_getElem? (a := id), hget]
  cases other.lostTo[id]? with
  | none => simp
  | some h =>
    simp only [Option.map_some, Option.some_or, Option.getD_some]
    exact Histogram.getD_merge _ _ competitor

/-- A copy that the other window does not keep stays. -/
theorem copy?_merge_of_none (h : other.Keyed) {planId : String} (hp : other.copy? id planId = none)
    (w : Window) (r : Registry) (s : Spending) :
    ((w.merge r other).run s).1.copy? id planId = w.copy? id planId := by
  cases hst : other.statuses[id]? with
  | none =>
    unfold copy? copies
    rw [statuses_merge_of_none h hst]
  | some st =>
    obtain ⟨s₁, -, -, hmerged⟩ := exists_merged h hst w r s
    rw [copy?_eq_of_statuses hst] at hp
    rw [copy?_eq_of_statuses hmerged, Status.plan?_merge_of_none _ hp, plan?_status]

/-- A copy that the other window keeps is added up. -/
theorem exists_added (h : other.Keyed) (hd : ((other.copies id).map (·.id)).Nodup)
    {planId : String} {p : Plan} (hp : other.copy? id planId = some p) (w : Window) (r : Registry)
    (s : Spending) :
    ∃ s₁, s.Keeps s₁ ∧
      ((Status.added p (w.copy? id planId)).run s₁).2.Keeps ((w.merge r other).run s).2 ∧
      ((w.merge r other).run s).1.copy? id planId =
        some ((Status.added p (w.copy? id planId)).run s₁).1 := by
  cases hst : other.statuses[id]? with
  | none =>
    rw [copy?, copies, hst] at hp
    cases hp
  | some st =>
    rw [copy?_eq_of_statuses hst] at hp
    rw [copies, hst] at hd
    obtain ⟨s₁, hbefore, hafter, hmerged⟩ := exists_merged h hst w r s
    obtain ⟨s₂, hbefore', hafter', hadded⟩ := Status.exists_added hd hp (w.status r id) s₁
    rw [plan?_status] at hadded hafter'
    rw [copy?_eq_of_statuses hmerged]
    exact ⟨s₂, hbefore.trans hbefore', hafter'.trans hafter, hadded⟩

end Window

end DealPacing
