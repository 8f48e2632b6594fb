import DealPacing.Progress.Window
import DealPacing.Proofs.Delivery.Plans
import DealPacing.Proofs.Loops

/-!
# Copies of plans in reporting windows

A window keeps copies of the plans that were active, at most one for each plan id of a line item.
What an operation does to a window is described by the copies that it leaves for each line item:
most operations leave all copies as they are, and the others put one copy in the place of the one
with its id.

## Main definitions

* `Status.upsert`: put a copy in the place of the one with its id
* `Window.copies`, `Window.copy?`: the copies of a line item
* `Window.spent`: the serves that a window counts for a class of a plan of a line item
* `Opens`: the operations that open counters and move none

## Main results

* `Status.run_mergePlan`, `Status.run_planOrInsert`: what becomes of the copies of a status
* `Status.spentInClass_tracked`: what a newer revision leaves of the spend of a copy
* `Window.run_recordServe_of_some`, `Window.run_trackPlan_of_some`: serves and active plans put one
  copy in its place
* `Window.copies_tallied`, `Window.copies_recordWin`: tallies and wins leave all copies
-/

namespace DealPacing

/-- Counted in words, a serve adds one as long as the word has room for it. -/
theorem Token.run_recordSpent_one {t : Token} {s : Spending} (hroom : t.spent s + 1 < wordSize) :
    (t.recordSpent 1).run s = t.countServe.run s := by
  have hcount : wordAdd (t.spent s) 1 = t.spent s + 1 := Nat.mod_eq_of_lt hroom
  have hput : (t.recordSpent 1).run s =
      (Spending.put t.counter (wordAdd (t.spent s) 1)).run s := rfl
  rw [hput, hcount]
  rfl

theorem Continues.refl {s : Spending} {ts : List Token} (h : ∀ t ∈ ts, s.IsOpen t.counter) :
    Continues s s ts ts where
  keeps := .refl s
  isOpen := fun t ht hc => absurd (h t ht) hc
  origin := fun t ht _ => ⟨t, ht, rfl, rfl⟩
  apart := fun t ht _ _ hc _ => absurd (h t ht) hc

namespace Plan

/-- The balances of a copy without spend. -/
def clearedBalances (p : Plan) : List Balance := p.tokens.map fun t => ⟨t.priorityClass, t.total, 0⟩

theorem withoutSpent_continues (p : Plan) (s : Spending) :
    Continues s (p.withoutSpent.run s).2 [] (p.withoutSpent.run s).1.tokens :=
  ofBalances_continues _ s

theorem balances_withoutSpent (p : Plan) (s : Spending) :
    (p.withoutSpent.run s).1.balances (p.withoutSpent.run s).2 = p.clearedBalances :=
  map_balance_ofBalances _ s

theorem classes_withoutSpent (p : Plan) (s : Spending) :
    (p.withoutSpent.run s).1.classes = p.classes := by
  have h := congrArg (List.map (·.priorityClass)) (balances_withoutSpent p s)
  simpa [balances, clearedBalances, classes, Token.balance, Function.comp_def] using h

theorem spentInClass_withoutSpent (p : Plan) (c : Int) (s : Spending) :
    (p.withoutSpent.run s).1.spentInClass c (p.withoutSpent.run s).2 = 0 := by
  unfold spentInClass
  cases ht : (p.withoutSpent.run s).1.token? c with
  | none => rfl
  | some t =>
    have hmem : t.balance (p.withoutSpent.run s).2 ∈ p.clearedBalances := by
      rw [← balances_withoutSpent p s]
      exact List.mem_map_of_mem (mem_of_token? ht).1
    obtain ⟨u, -, hu⟩ := List.mem_map.mp hmem
    exact (congrArg Balance.spent hu).symm

theorem run_recordSpent (p : Plan) (c : Int) (s : Spending) :
    (p.recordSpent c).run s =
      match p.token? c with
      | some t => (true, s.raised t.counter 1)
      | none => (false, s) := by
  unfold recordSpent
  cases p.token? c <;> rfl

theorem spentInClass_withScheduleOf {p : Plan} {s : Spending} (hp : p.IsOpen s) (newer : Plan)
    (c : Int) :
    ((p.withScheduleOf newer).run s).1.spentInClass c ((p.withScheduleOf newer).run s).2 =
      if c ∈ newer.classes then p.spentInClass c s else 0 := by
  rw [spentInClass_eq, balance?_withScheduleOf hp]
  by_cases hc : c ∈ newer.classes
  · obtain ⟨t, ht⟩ := Option.isSome_iff_exists.mp (token?_isSome_iff.mpr hc)
    simp [ht, hc]
  · have hnone : newer.token? c = none := by
      rw [← Option.not_isSome_iff_eq_none]
      exact fun h => hc (token?_isSome_iff.mp h)
    simp [hnone, hc]

end Plan

namespace Status

/-- Put `q` in the place of the first plan with an id, or after all others. -/
def upsert (id : String) (q : Plan) : List Plan → List Plan
  | [] => [q]
  | p :: ps => if p.id = id then q :: ps else p :: upsert id q ps

section Upsert

variable {id : String} {q : Plan} {ps : List Plan}

theorem upsert_of_find? (h : ps.find? (·.id == id) = some q) : upsert id q ps = ps := by
  induction ps with
  | nil => simp at h
  | cons p ps ih =>
    by_cases hp : p.id = id
    · have hq : p = q := by simpa [List.find?_cons_of_pos, hp] using h
      rw [upsert, if_pos hp, hq]
    · rw [List.find?_cons_of_neg (by simpa using hp)] at h
      simp [upsert, hp, ih h]

theorem upsert_of_find?_eq_none (h : ps.find? (·.id == id) = none) :
    upsert id q ps = ps ++ [q] := by
  induction ps with
  | nil => rfl
  | cons p ps ih =>
    by_cases hp : p.id = id
    · simp [hp] at h
    · rw [List.find?_cons_of_neg (by simpa using hp)] at h
      simp [upsert, hp, ih h]

theorem mem_upsert (hid : q.id = id) (hd : (ps.map (·.id)).Nodup) {r : Plan} :
    r ∈ upsert id q ps → r = q ∨ r ∈ ps ∧ r.id ≠ id := by
  induction ps with
  | nil => simp [upsert]
  | cons p ps ih =>
    rw [List.map_cons, List.nodup_cons] at hd
    unfold upsert
    split
    · next hp =>
      intro hr
      rcases List.mem_cons.mp hr with rfl | hr
      · exact Or.inl rfl
      · refine Or.inr ⟨List.mem_cons_of_mem p hr, fun e => hd.1 ?_⟩
        rw [hp, ← e]
        exact List.mem_map_of_mem hr
    · next hp =>
      intro hr
      rcases List.mem_cons.mp hr with rfl | hr
      · exact Or.inr ⟨by simp, hp⟩
      · rcases ih hd.2 hr with rfl | ⟨hr, hne⟩
        · exact Or.inl rfl
        · exact Or.inr ⟨List.mem_cons_of_mem p hr, hne⟩

theorem eq_or_mem_of_mem_upsert {r : Plan} (hr : r ∈ upsert id q ps) : r = q ∨ r ∈ ps := by
  induction ps with
  | nil => exact Or.inl (by simpa [upsert] using hr)
  | cons p ps ih =>
    unfold upsert at hr
    split at hr
    · rcases List.mem_cons.mp hr with rfl | hr
      · exact Or.inl rfl
      · exact Or.inr (List.mem_cons_of_mem p hr)
    · rcases List.mem_cons.mp hr with rfl | hr
      · exact Or.inr (by simp)
      · exact (ih hr).imp_right (List.mem_cons_of_mem p)

theorem nodup_upsert (hid : q.id = id) (hd : (ps.map (·.id)).Nodup) :
    ((upsert id q ps).map (·.id)).Nodup := by
  induction ps with
  | nil => simp [upsert]
  | cons p ps ih =>
    rw [List.map_cons, List.nodup_cons] at hd
    unfold upsert
    split
    · next hp =>
      rw [List.map_cons, List.nodup_cons, hid, ← hp]
      exact hd
    · next hp =>
      rw [List.map_cons, List.nodup_cons]
      refine ⟨fun hmem => ?_, ih hd.2⟩
      obtain ⟨r, hr, e⟩ := List.mem_map.mp hmem
      rcases mem_upsert hid hd.2 hr with rfl | ⟨hr, -⟩
      · exact hp (e.symm.trans hid)
      · exact hd.1 (e ▸ List.mem_map_of_mem hr)

theorem find?_upsert (hid : q.id = id) (id' : String) :
    (upsert id q ps).find? (·.id == id') = if id' = id then some q else ps.find? (·.id == id') := by
  induction ps with
  | nil =>
    by_cases h : id' = id
    · simp [upsert, h, hid]
    · simp [upsert, h, hid, Ne.symm h]
  | cons p ps ih =>
    unfold upsert
    by_cases hp : p.id = id
    · by_cases h : id' = id
      · simp [hp, h, hid]
      · simp [hp, h, hid, Ne.symm h]
    · rw [if_neg hp]
      by_cases h : p.id = id'
      · have hne : id' ≠ id := fun e => hp (h.trans e)
        simp [h, hne]
      · rw [List.find?_cons_of_neg (by simpa using h), ih,
          List.find?_cons_of_neg (by simpa using h)]

end Upsert

/-- The copy of the active plan `p` when the status keeps `q?`: the kept one, with the totals of `p`
if that is newer, or a new one without spend. -/
def tracked (p : Plan) : Option Plan → StateM Spending Plan
  | some q => if q.isSupersededBy p then q.withScheduleOf p else pure q
  | none => p.withoutSpent

/-- The copy of the active plan `p` that a serve is counted in. -/
def served (p : Plan) : Option Plan → StateM Spending Plan
  | some q => pure q
  | none => p.withoutSpent

/-- The first copy with the id of `p` is replaced, or a new one is kept. -/
theorem run_updatePlans (p : Plan) (present : Plan → StateM Spending Plan)
    (absent : StateM Spending Plan) (ps : List Plan) (s : Spending) :
    (updatePlans p present absent ps).run s =
      let out := (((ps.find? (·.id == p.id)).map present).getD absent).run s
      (upsert p.id out.1 ps, out.2) := by
  induction ps with
  | nil => rfl
  | cons q ps ih =>
    unfold updatePlans upsert
    by_cases hq : q.id = p.id
    · have hfind : (q :: ps).find? (·.id == p.id) = some q :=
        List.find?_cons_of_pos (by simpa using hq)
      simp only [if_pos hq, hfind]
      rfl
    · have hfind : (q :: ps).find? (·.id == p.id) = ps.find? (·.id == p.id) :=
        List.find?_cons_of_neg (by simpa using hq)
      simp only [if_neg hq, hfind]
      rw [run_bind_eq, ih]
      rfl

theorem run_mergePlan (st : Status) (p : Plan) (s : Spending) :
    (st.mergePlan p).run s =
      ({ st with plans := upsert p.id ((tracked p (st.plan? p.id)).run s).1 st.plans },
        ((tracked p (st.plan? p.id)).run s).2) := by
  have htracked : ((st.plan? p.id).map fun q =>
      if q.isSupersededBy p then q.withScheduleOf p else pure q).getD p.withoutSpent =
        tracked p (st.plan? p.id) := by
    cases st.plan? p.id <;> rfl
  unfold mergePlan
  rw [run_bind_eq, run_updatePlans]
  rw [show st.plans.find? (·.id == p.id) = st.plan? p.id from rfl, htracked]
  rfl

theorem run_planOrInsert (st : Status) (p : Plan) (s : Spending) :
    (st.planOrInsert p.id p.withoutSpent).run s =
      (({ st with plans := upsert p.id ((served p (st.plan? p.id)).run s).1 st.plans },
          ((served p (st.plan? p.id)).run s).1),
        ((served p (st.plan? p.id)).run s).2) := by
  unfold planOrInsert
  cases h : st.plan? p.id with
  | some q =>
    change ((st, q), s) = (({ st with plans := upsert p.id q st.plans }, q), s)
    rw [upsert_of_find? h]
  | none =>
    rw [upsert_of_find?_eq_none h]
    rfl

section Copy

variable {p q : Plan} {s : Spending}

theorem id_tracked {q? : Option Plan} (hq : ∀ q ∈ q?, q.id = p.id) :
    ((tracked p q?).run s).1.id = p.id := by
  cases q? with
  | none => rfl
  | some q =>
    simp only [tracked]
    split
    · rfl
    · exact hq q rfl

theorem id_served {q? : Option Plan} (hq : ∀ q ∈ q?, q.id = p.id) :
    ((served p q?).run s).1.id = p.id := by
  cases q? with
  | none => rfl
  | some q => exact hq q rfl

theorem tracked_continues {q? : Option Plan} (hq : ∀ q ∈ q?, q.IsOpen s) :
    Continues s ((tracked p q?).run s).2 ((q?.map (·.tokens)).getD [])
      ((tracked p q?).run s).1.tokens := by
  cases q? with
  | none => exact Plan.withoutSpent_continues p s
  | some q =>
    simp only [tracked]
    split
    · exact Plan.withScheduleOf_continues (hq q rfl) p
    · exact .refl (hq q rfl)

theorem served_continues {q? : Option Plan} (hq : ∀ q ∈ q?, q.IsOpen s) :
    Continues s ((served p q?).run s).2 ((q?.map (·.tokens)).getD [])
      ((served p q?).run s).1.tokens := by
  cases q? with
  | none => exact Plan.withoutSpent_continues p s
  | some q => exact .refl (hq q rfl)

/-- Tracking the active plan keeps what a copy counted, except for classes that a newer revision
dropped. -/
theorem spentInClass_tracked {q? : Option Plan} (hq : ∀ q ∈ q?, q.IsOpen s) (c : Int) :
    ((tracked p q?).run s).1.spentInClass c ((tracked p q?).run s).2 =
      (q?.map fun q =>
        if q.isSupersededBy p ∧ c ∉ p.classes then 0 else q.spentInClass c s).getD 0 := by
  cases q? with
  | none => exact Plan.spentInClass_withoutSpent p c s
  | some q =>
    simp only [tracked]
    by_cases h : q.isSupersededBy p
    · rw [if_pos h, Plan.spentInClass_withScheduleOf (hq q rfl)]
      by_cases hc : c ∈ p.classes <;> simp [h, hc]
    · have hkept : ¬ (q.isSupersededBy p = true ∧ c ∉ p.classes) := fun e => h e.1
      rw [if_neg h, Option.map_some, if_neg hkept]
      rfl

theorem spentInClass_served (q? : Option Plan) (c : Int) :
    ((served p q?).run s).1.spentInClass c ((served p q?).run s).2 =
      (q?.map (·.spentInClass c s)).getD 0 := by
  cases q? with
  | none => exact Plan.spentInClass_withoutSpent p c s
  | some q => rfl

theorem classes_served (q? : Option Plan) :
    ((served p q?).run s).1.classes = (q?.getD p).classes := by
  cases q? with
  | none => exact Plan.classes_withoutSpent p s
  | some q => rfl

end Copy

end Status

namespace Window

/-- The copies of the plans of a line item. -/
def copies (w : Window) (id : String) : List Plan := ((w.statuses[id]?).map (·.plans)).getD []

/-- The copy of a plan of a line item. -/
def copy? (w : Window) (id planId : String) : Option Plan := (w.copies id).find? (·.id == planId)

/-- The serves counted for a class of a plan of a line item. -/
def spent (w : Window) (id planId : String) (c : Int) (s : Spending) : Nat :=
  ((w.copy? id planId).map (·.spentInClass c s)).getD 0

theorem copies_of_getElem? {w : Window} {id : String} {st : Status}
    (h : w.statuses[id]? = some st) : w.copies id = st.plans := by
  rw [copies, h, Option.map_some, Option.getD_some]

theorem mem_statusList_iff {w : Window} {st : Status} :
    st ∈ w.statusList ↔ ∃ id : String, w.statuses[id]? = some st := by
  simp only [statusList, List.mem_map, Prod.exists, exists_eq_right,
    Std.ExtTreeMap.mem_toList_iff_getElem?_eq_some]

theorem mem_of_copy? {w : Window} {id planId : String} {q : Plan} (h : w.copy? id planId = some q) :
    q ∈ w.copies id ∧ q.id = planId :=
  ⟨List.mem_of_find?_eq_some h, by simpa using List.find?_some h⟩

theorem id_served_copy? (w : Window) (id : String) (p : Plan) (s : Spending) :
    ((Status.served p (w.copy? id p.id)).run s).1.id = p.id :=
  Status.id_served fun _ hq => (mem_of_copy? hq).2

theorem id_tracked_copy? (w : Window) (id : String) (p : Plan) (s : Spending) :
    ((Status.tracked p (w.copy? id p.id)).run s).1.id = p.id :=
  Status.id_tracked fun _ hq => (mem_of_copy? hq).2

theorem plans_status (w : Window) (r : Registry) (id : String) :
    (w.status r id).plans = w.copies id := by
  unfold status copies
  cases w.statuses[id]? with
  | some st => rfl
  | none => cases r.get? id <;> rfl

theorem copies_putStatus (w : Window) (id : String) (st : Status) (id' : String) :
    (w.putStatus id st).copies id' = if id = id' then st.plans else w.copies id' := by
  unfold copies putStatus
  by_cases h : id = id'
  · subst h
    simp
  · simp [Std.ExtTreeMap.getElem?_insert, h]

/-- Put a copy in the place of the one with its id. -/
def putCopy (w : Window) (r : Registry) (id : String) (q : Plan) : Window :=
  w.putStatus id { w.status r id with plans := Status.upsert q.id q (w.status r id).plans }

theorem copies_putCopy (w : Window) (r : Registry) (id : String) (q : Plan) (id' : String) :
    (w.putCopy r id q).copies id' =
      if id = id' then Status.upsert q.id q (w.copies id) else w.copies id' := by
  rw [putCopy, copies_putStatus, plans_status]

theorem copy?_putCopy (w : Window) (r : Registry) (id : String) (q : Plan) (id' planId : String) :
    (w.putCopy r id q).copy? id' planId =
      if id' = id ∧ planId = q.id then some q else w.copy? id' planId := by
  rw [copy?, copies_putCopy]
  by_cases h : id = id'
  · subst h
    rw [if_pos rfl, Status.find?_upsert rfl]
    simp [copy?]
  · rw [if_neg h, if_neg fun e => h e.1.symm]
    rfl

/-- Whatever is written to a status besides its plans leaves the copies. -/
theorem copies_putStatus_of_plans_eq {w : Window} {r : Registry} {id : String} {st : Status}
    (h : st.plans = (w.status r id).plans) : (w.putStatus id st).copies = w.copies := by
  funext id'
  rw [copies_putStatus, h, plans_status]
  split
  · next e => rw [e]
  · rfl

theorem copies_countAll (r : Registry) (w : Window) (entry : IdSet × Tally) :
    (countAll r w entry).copies = w.copies := by
  unfold countAll
  induction entry.1.toList generalizing w with
  | nil => rfl
  | cons id ids ih =>
    rw [List.foldl_cons, ih]
    exact copies_putStatus_of_plans_eq rfl

theorem copies_foldl_countAll (r : Registry) (entries : List (IdSet × Tally)) (w : Window) :
    (entries.foldl (countAll r) w).copies = w.copies := by
  induction entries generalizing w with
  | nil => rfl
  | cons entry entries ih => rw [List.foldl_cons, ih, copies_countAll]

theorem copies_foldl_recordLosses (entries : List (String × IdSet)) (w : Window) :
    (entries.foldl recordLosses w).copies = w.copies := by
  induction entries generalizing w with
  | nil => rfl
  | cons entry entries ih =>
    rw [List.foldl_cons, ih]
    rfl

theorem copies_recordWin (w : Window) (r : Registry) (id : String) :
    (w.recordWin r id).copies = w.copies := copies_putStatus_of_plans_eq rfl

theorem copies_opened (now : Instant) (id : String) : (opened now).copies id = [] := by
  simp [copies, opened]

/-- The window with the requests and tallies of a log. -/
def tallied (w : Window) (r : Registry) (log : AuctionLog) (accountId : String) : Window :=
  (tallySets log ++ tallySourceSets log).foldl (countAll r)
    { w with
      requests := w.requests + 1
      accounts := Histogram.addTo w.accounts accountId 1 }

theorem copies_tallied (w : Window) (r : Registry) (log : AuctionLog) (accountId : String) :
    (w.tallied r log accountId).copies = w.copies := by
  rw [tallied, copies_foldl_countAll]
  rfl

theorem run_recordServe_of_none {r : Registry} {id : String}
    (h : (r.get? id).bind (·.plan) = none) (classes : IdMap Int) (w : Window) (s : Spending) :
    (recordServe r classes w id).run s = (w, s) := by
  unfold recordServe
  rw [h]
  rfl

theorem run_recordServe_of_some {r : Registry} {id : String} {p : Plan}
    (h : (r.get? id).bind (·.plan) = some p) (classes : IdMap Int) (w : Window) (s : Spending) :
    (recordServe r classes w id).run s =
      let q := (Status.served p (w.copy? id p.id)).run s
      (w.putCopy r id q.1,
        match classes[p.id]?.bind q.1.token? with
        | some t => q.2.raised t.counter 1
        | none => q.2) := by
  have hcopy : (w.status r id).plan? p.id = w.copy? id p.id := by
    rw [Status.plan?, plans_status]
    rfl
  -- the class is looked up by the id of the copy, which is that of the active plan
  have hid := id_served_copy? w id p s
  unfold recordServe
  simp only [h]
  rw [run_bind_eq, Status.run_planOrInsert, hcopy]
  generalize (Status.served p (w.copy? id p.id)).run s = out at hid ⊢
  obtain ⟨q, s'⟩ := out
  rw [putCopy, ← (hid : q.id = p.id)]
  cases classes[q.id]? with
  | none => rfl
  | some c =>
    simp only [Option.bind_some]
    rw [run_bind_eq, q.run_recordSpent c s']
    cases q.token? c <;> rfl

theorem run_trackPlan_of_none {x : LineItem} (hx : x.plan = none) (w : Window) (r : Registry)
    (s : Spending) : (w.trackPlan r x).run s = (w, s) := by
  unfold trackPlan
  rw [hx]
  rfl

theorem run_trackPlan_of_some {x : LineItem} {p : Plan} (hx : x.plan = some p) (w : Window)
    (r : Registry) (s : Spending) :
    (w.trackPlan r x).run s =
      let q := (Status.tracked p (w.copy? x.id p.id)).run s
      (w.putCopy r x.id q.1, q.2) := by
  have hcopy : (w.status r x.id).plan? p.id = w.copy? x.id p.id := by
    rw [Status.plan?, plans_status]
    rfl
  have hid := id_tracked_copy? w x.id p s
  unfold trackPlan
  simp only [hx]
  rw [run_bind_eq, Status.run_mergePlan, hcopy]
  simp only [putCopy, hid]
  rfl

end Window

/-! ## Operations that only open counters -/

/-- The computation opens counters, and moves none. -/
def Opens {α : Type} (m : StateM Spending α) : Prop := ∀ s : Spending, s.Keeps (m.run s).2

namespace Opens

variable {α β : Type}

theorem pure (a : α) : Opens (pure a : StateM Spending α) := fun s => .refl s

theorem bind {m : StateM Spending α} {f : α → StateM Spending β} (hm : Opens m)
    (hf : ∀ a, Opens (f a)) : Opens (m >>= f) := fun s => (hm s).trans (hf _ _)

theorem get : Opens (get : StateM Spending Spending) := fun s => .refl s

theorem foldlM {f : β → α → StateM Spending β} (hf : ∀ b a, Opens (f b a)) (l : List α) (b : β) :
    Opens (l.foldlM f b) := by
  intro s
  refine run_foldlM_of_mem (I := fun _ s' => s.Keeps s') (.refl s) fun a _ b s' h => ?_
  exact h.trans (hf b a s')

theorem ofBalances (bs : List Balance) : Opens (Token.ofBalances bs) := keeps_ofBalances bs

theorem updatePlans {p : Plan} {present : Plan → StateM Spending Plan}
    {absent : StateM Spending Plan} (hpresent : ∀ q, Opens (present q)) (habsent : Opens absent)
    (ps : List Plan) : Opens (Status.updatePlans p present absent ps) := by
  induction ps with
  | nil => exact habsent.bind fun _ => .pure _
  | cons q ps ih =>
    unfold Status.updatePlans
    split
    · exact (hpresent q).bind fun _ => .pure _
    · exact ih.bind fun _ => .pure _

theorem addPlan (ps : List Plan) (p : Plan) : Opens (Status.addPlan ps p) := by
  refine updatePlans (fun q => ?_) ?_ ps
  · exact .bind get fun s => (ofBalances _).bind fun _ => .pure _
  · exact .bind get fun s => (ofBalances _).bind fun _ => .pure _

theorem mergeWindow (w : Window) (r : Registry) (other : Window) : Opens (w.merge r other) := by
  refine .bind (.foldlM (fun w st => ?_) _ _) fun _ => .pure _
  exact .bind (.bind (.foldlM addPlan _ _) fun _ => .pure _) fun _ => .pure _

theorem trackPlan (w : Window) (r : Registry) (x : LineItem) : Opens (w.trackPlan r x) := by
  intro s
  cases hx : x.plan with
  | none =>
    rw [Window.run_trackPlan_of_none hx]
    exact .refl s
  | some p =>
    rw [Window.run_trackPlan_of_some hx]
    unfold Status.tracked
    cases w.copy? x.id p.id with
    | none => exact keeps_ofBalances _ s
    | some q =>
      simp only
      split
      · exact q.keeps_withScheduleOf p s
      · exact .refl s

end Opens

end DealPacing
