import DealPacing.Proofs.Progress.Preview
import DealPacing.Proofs.Registry.Entries
import Mathlib.Data.Set.Disjoint
import Mathlib.Data.Set.Lattice
import Mathlib.Order.CompletePartialOrder

/-!
# The counters that plans count in

The registry and each window have a footprint in the store: the counters that their plans count in.
Every operation renews the footprint of what it works on: each counter of the new footprint was in
the old one, or was opened on the way. So no operation takes over a counter that belongs to
something else, and a serve shows only in what has its counter in the footprint.

## Main definitions

* `Plan.counters`, `Window.counters`, `Registry.counters`: footprints
* `Renewed s s' old new`: on the way from `s` to `s'` a footprint is renewed
* `CountsIn A s s'`: on the way from `s` to `s'` serves are counted in a footprint only

## Main results

* `Window.renewed_trackPlan`, `Window.renewed_merge`, `Window.renewed_recordServe`: windows
* `Registry.renewed_of_owned`: operations that keep the owners of counters renew the registry
* `Registry.countsIn_spend`, `Window.countsIn_recordServe`: where serves are counted
* `Window.value_eq_of_countsIn`, `Registry.value?_eq_of_countsIn`: serves do not show elsewhere
-/

namespace DealPacing

/-- The counters that were opened. -/
def Spending.openCounters (s : Spending) : Set Counter := {k | s.IsOpen k}

/-- The counters of tokens. -/
def Token.counters (ts : List Token) : Set Counter := {k | ∃ t ∈ ts, t.counter = k}

/-- The footprint of a plan. -/
def Plan.counters (p : Plan) : Set Counter := Token.counters p.tokens

/-- The footprint of several plans. -/
def Plan.countersOf (ps : List Plan) : Set Counter := {k | ∃ p ∈ ps, k ∈ p.counters}

/-- The footprint of a window. -/
def Window.counters (w : Window) : Set Counter := {k | ∃ id, ∃ q ∈ w.copies id, k ∈ q.counters}

/-- The footprint of a line item: the counters of its active plan. -/
def Registry.countersOf (r : Registry) (id : String) : Set Counter :=
  {k | ∃ p ∈ r.plan? id, k ∈ p.counters}

/-- The footprint of a registry. -/
def Registry.counters (r : Registry) : Set Counter := {k | ∃ id, k ∈ r.countersOf id}

/-! ## Renewal -/

/-- On the way from `s` to `s'` a footprint is renewed: its counters are open, and those that were
open before are old ones. -/
structure Renewed (s s' : Spending) (old new : Set Counter) : Prop where
  grows : s.openCounters ⊆ s'.openCounters
  opened : new ⊆ s'.openCounters
  origin : new ∩ s.openCounters ⊆ old

namespace Renewed

variable {s s' s'' : Spending} {old old' mid new new' : Set Counter}

/-- A footprint that is not worked on. -/
theorem idle (hs : s.openCounters ⊆ s'.openCounters) (hopen : old ⊆ s.openCounters) :
    Renewed s s' old old :=
  ⟨hs, hopen.trans hs, Set.inter_subset_left⟩

/-- Counters are dropped. -/
theorem of_subset (hopen : old ⊆ s.openCounters) (hsub : new ⊆ old) : Renewed s s old new :=
  ⟨subset_rfl, hsub.trans hopen, Set.inter_subset_left.trans hsub⟩

theorem trans (h : Renewed s s' old mid) (h' : Renewed s' s'' mid new) : Renewed s s'' old new where
  grows := h.grows.trans h'.grows
  opened := h'.opened
  origin := fun _ hk => h.origin ⟨h'.origin ⟨hk.1, h.grows hk.2⟩, hk.2⟩

theorem mono (h : Renewed s s' old new) (hold : old ⊆ old') (hnew : new' ⊆ new) :
    Renewed s s' old' new' where
  grows := h.grows
  opened := hnew.trans h.opened
  origin := (Set.inter_subset_inter_left _ hnew).trans (h.origin.trans hold)

theorem union (h : Renewed s s' old new) (h' : Renewed s s' old new') :
    Renewed s s' old (new ∪ new') where
  grows := h.grows
  opened := Set.union_subset h.opened h'.opened
  origin := by
    rw [Set.union_inter_distrib_right]
    exact Set.union_subset h.origin h'.origin

theorem of_continues {ts us : List Token} (h : Continues s s' ts us) :
    Renewed s s' (Token.counters ts) (Token.counters us) where
  grows := fun _ => h.keeps.isOpen
  opened := by
    rintro _ ⟨t, ht, rfl⟩
    exact h.isOpen_of_mem ht
  origin := by
    rintro _ ⟨⟨t, ht, rfl⟩, hopen⟩
    obtain ⟨u, hu, -, hcounter⟩ := h.origin t ht hopen
    exact ⟨u, hu, hcounter⟩

/-- A footprint that was apart from counters that were open stays apart from them. -/
theorem disjoint (h : Renewed s s' old new) {other : Set Counter} (hopen : other ⊆ s.openCounters)
    (hold : Disjoint old other) : Disjoint new other := by
  rw [Set.disjoint_left] at hold ⊢
  exact fun k hk hother => hold (h.origin ⟨hk, hopen hother⟩) hother

end Renewed

/-! ## Windows -/

theorem Plan.countersOf_upsert (id : String) (q : Plan) (ps : List Plan) :
    countersOf (Status.upsert id q ps) ⊆ q.counters ∪ countersOf ps := by
  rintro k ⟨p, hp, hk⟩
  rcases Status.eq_or_mem_of_mem_upsert hp with rfl | hp
  · exact .inl hk
  · exact .inr ⟨p, hp, hk⟩

namespace Window

variable {w w' : Window} {r : Registry} {s s' : Spending}

theorem counters_subset_of_mem_plans {q : Plan} (hq : q ∈ w.plans) : q.counters ⊆ w.counters := by
  obtain ⟨st, hst, hq⟩ := List.mem_flatMap.mp hq
  obtain ⟨id, hget⟩ := mem_statusList_iff.mp hst
  exact fun k hk => ⟨id, q, (copies_of_getElem? hget).symm ▸ hq, hk⟩

theorem countersOf_copies (w : Window) (id : String) :
    Plan.countersOf (w.copies id) ⊆ w.counters := by
  rintro k ⟨q, hq, hk⟩
  exact ⟨id, q, hq, hk⟩

theorem counters_eq_of_copies (h : w'.copies = w.copies) : w'.counters = w.counters := by
  unfold counters
  rw [h]

theorem counters_subset (h : ∀ id, w'.copies id ⊆ w.copies id) : w'.counters ⊆ w.counters := by
  rintro k ⟨id, q, hq, hk⟩
  exact ⟨id, q, h id hq, hk⟩

theorem IsOpen.counters_subset (h : w.IsOpen s) : w.counters ⊆ s.openCounters := by
  rintro k ⟨id, q, hq, t, ht, rfl⟩
  exact h.isOpen hq t ht

theorem counters_opened (now : Instant) : (opened now).counters = ∅ := by
  rw [Set.eq_empty_iff_forall_notMem]
  rintro k ⟨id, q, hq, -⟩
  rw [copies_opened] at hq
  cases hq

theorem counters_putStatus (w : Window) (id : String) (st : Status) :
    (w.putStatus id st).counters ⊆ Plan.countersOf st.plans ∪ w.counters := by
  rintro k ⟨id', q, hq, hk⟩
  rw [copies_putStatus] at hq
  split at hq
  · exact .inl ⟨q, hq, hk⟩
  · exact .inr ⟨id', q, hq, hk⟩

/-- A status is written whose plans renew the footprint. -/
theorem renewed_putStatus (hw : w.counters ⊆ s.openCounters) {id : String} {st : Status}
    (h : Renewed s s' w.counters (Plan.countersOf st.plans)) :
    Renewed s s' w.counters (w.putStatus id st).counters :=
  (h.union (.idle h.grows hw)).mono subset_rfl (counters_putStatus w id st)

/-- A copy that continues another one takes its place. -/
theorem renewed_putCopy (hw : w.counters ⊆ s.openCounters) {id planId : String} {q : Plan}
    (h : Continues s s' (((w.copy? id planId).map (·.tokens)).getD []) q.tokens) :
    Renewed s s' w.counters (w.putCopy r id q).counters := by
  have hold : Token.counters (((w.copy? id planId).map (·.tokens)).getD []) ⊆ w.counters := by
    rintro k ⟨t, ht, rfl⟩
    cases hq : w.copy? id planId with
    | none =>
      rw [hq] at ht
      cases ht
    | some p =>
      rw [hq] at ht
      exact ⟨id, p, (mem_of_copy? hq).1, t, ht, rfl⟩
  have hcopy : Renewed s s' w.counters q.counters := (Renewed.of_continues h).mono hold subset_rfl
  refine renewed_putStatus hw ((hcopy.union (.idle hcopy.grows hw)).mono subset_rfl ?_)
  rw [plans_status]
  exact (Plan.countersOf_upsert _ q _).trans
    (Set.union_subset_union_right _ (w.countersOf_copies id))

theorem renewed_recordServe (hw : w.counters ⊆ s.openCounters) (classes : IdMap Int) (id : String) :
    let out := (recordServe r classes w id).run s
    Renewed s out.2 w.counters out.1.counters := by
  intro out
  cases hp : (r.get? id).bind (·.plan) with
  | none =>
    simp only [out, run_recordServe_of_none hp]
    exact .idle subset_rfl hw
  | some p =>
    have hcopy : ∀ q ∈ w.copy? id p.id, q.IsOpen s := fun q hq t ht =>
      hw ⟨id, q, (mem_of_copy? hq).1, t, ht, rfl⟩
    -- a copy that is kept already stays, and one that is made has counters of its own
    have hserved := renewed_putCopy (r := r) hw (Status.served_continues (p := p) hcopy)
    simp only [out, run_recordServe_of_some hp]
    split
    · -- the serve is counted in a counter that is open already
      refine hserved.trans (.idle ?_ hserved.opened)
      exact fun k => (Spending.isOpen_raised _ _ k 1).mpr
    · exact hserved

theorem renewed_trackPlan (hw : w.counters ⊆ s.openCounters) (r : Registry) (x : LineItem) :
    let out := (w.trackPlan r x).run s
    Renewed s out.2 w.counters out.1.counters := by
  intro out
  cases hp : x.plan with
  | none =>
    simp only [out, run_trackPlan_of_none hp]
    exact .idle subset_rfl hw
  | some p =>
    have hcopy : ∀ q ∈ w.copy? x.id p.id, q.IsOpen s := fun q hq t ht =>
      hw ⟨x.id, q, (mem_of_copy? hq).1, t, ht, rfl⟩
    simp only [out, run_trackPlan_of_some hp]
    exact renewed_putCopy hw (Status.tracked_continues hcopy)

theorem renewed_mergeStatus (hw : w.counters ⊆ s.openCounters) (r : Registry) (st : Status) :
    let out := (mergeStatus r w st).run s
    Renewed s out.2 w.counters out.1.counters := by
  refine renewed_putStatus hw (run_foldlM_of_mem
    (I := fun (ps : List Plan) s' => Renewed s s' w.counters (Plan.countersOf ps)) ?_ ?_)
  · rw [plans_status]
    exact (Renewed.idle subset_rfl hw).mono subset_rfl (w.countersOf_copies st.lineItemId)
  · -- the sum of two copies has counters of its own
    intro p _ ps s₁ h
    have hadded := Renewed.of_continues (Status.added_continues p (ps.find? (·.id == p.id)) s₁)
    rw [Status.run_addPlan]
    refine h.trans (((hadded.mono ?_ subset_rfl).union (.idle hadded.grows h.opened)).mono
      subset_rfl (Plan.countersOf_upsert p.id _ ps))
    rintro k ⟨t, ht, -⟩
    cases ht

theorem renewed_merge (hw : w.counters ⊆ s.openCounters) (r : Registry) (other : Window) :
    let out := (w.merge r other).run s
    Renewed s out.2 w.counters out.1.counters :=
  run_merge_of_mem (I := fun (w' : Window) s' => Renewed s s' w.counters w'.counters)
    (.idle subset_rfl hw) (fun st _ _ _ h => h.trans (renewed_mergeStatus h.opened r st))
    fun _ _ _ h => h

/-- A window with one copy, which counts in a given counter. -/
def withCounter (k : Counter) : Window :=
  (opened default).putStatus ""
    { Status.new "" with plans := [⟨"", default, default, default, [⟨0, 0, k⟩]⟩] }

theorem mem_copies_withCounter {k : Counter} {id : String} {q : Plan} :
    q ∈ (withCounter k).copies id ↔
      id = "" ∧ q = ⟨"", default, default, default, [⟨0, 0, k⟩]⟩ := by
  rw [withCounter, copies_putStatus]
  by_cases hid : id = ""
  · simp [hid]
  · simp [hid, Ne.symm hid, copies_opened]

end Window

/-! ## Registries -/

namespace Registry

variable {r r' : Registry} {s s' : Spending}

theorem countersOf_subset (r : Registry) (id : String) : r.countersOf id ⊆ r.counters :=
  fun _ hk => ⟨id, hk⟩

theorem counters_empty : empty.counters = ∅ := by
  rw [Set.eq_empty_iff_forall_notMem]
  rintro k ⟨id, p, hp, -⟩
  simp [plan?, get?, empty] at hp

theorem counters_subset_of_owned {w : Window} {label : Counter → Owner × Int}
    (h : Owned r w s label) : r.counters ⊆ s.openCounters := by
  rintro k ⟨id, p, hp, t, ht, rfl⟩
  exact (h.plan hp t ht).1

/-- **What keeps the owners of counters, whatever the window is, renews the footprint of the
registry.** A counter of something else could be one of a copy in a window, and would stay one. -/
theorem renewed_of_owned {w : Window} {label : Counter → Owner × Int} (h : Owned r w s label)
    (hkeeps : s.openCounters ⊆ s'.openCounters)
    (hstep : ∀ (w : Window) (label : Counter → Owner × Int), Owned r w s label →
      ∃ label', Owned r' w s' label') :
    Renewed s s' r.counters r'.counters := by
  classical
  obtain ⟨label', h'⟩ := hstep w label h
  refine ⟨hkeeps, counters_subset_of_owned h', fun k hk => ?_⟩
  obtain ⟨⟨id, p, hp, t, ht, rfl⟩, hopen⟩ := hk
  by_contra hforeign
  -- the counter is given to a copy, which nothing forbids as no active plan counts in it
  let lent (k : Counter) : Owner × Int :=
    if k = t.counter then (Owner.copy "" "").kind 0 else label k
  have hlent : Owned r (.withCounter t.counter) s lent := by
    refine ⟨h.id_eq, fun {id x p} hx hplan u hu => ?_, fun id => ?_, fun {id q} hq u hu => ?_⟩
    · have hne : u.counter ≠ t.counter := fun e =>
        hforeign ⟨id, p, (plan?_of_get? hx).trans hplan, u, hu, e⟩
      obtain ⟨huopen, hlabel⟩ := h.items hx hplan u hu
      exact ⟨huopen, (if_neg hne).trans hlabel⟩
    · rw [Window.withCounter, Window.copies_putStatus]
      split
      · exact List.nodup_singleton _
      · rw [Window.copies_opened]
        exact List.nodup_nil
    · obtain ⟨rfl, rfl⟩ := Window.mem_copies_withCounter.mp hq
      obtain rfl := List.mem_singleton.mp hu
      exact ⟨hopen, if_pos rfl⟩
  obtain ⟨label'', h''⟩ := hstep _ _ hlent
  have hitem := (h''.plan hp t ht).2
  have hcopy := (h''.copies (Window.mem_copies_withCounter.mpr ⟨rfl, rfl⟩) ⟨0, 0, t.counter⟩
    (by simp)).2
  exact nomatch (Prod.mk.inj (hitem.symm.trans hcopy)).1

theorem renewed_update {w : Window} {label : Counter → Owner × Int} (h : Owned r w s label)
    (pricing : Pricing) (records : List LineItemRecord) (plannerResponds : Bool) (now : Instant) :
    let out := (r.update pricing records plannerResponds now).run s
    Renewed s out.2 r.counters out.1.1.counters :=
  renewed_of_owned h (fun _ => (h.update pricing records plannerResponds now).2.isOpen)
    fun _ _ h' => (h'.update pricing records plannerResponds now).1

theorem renewed_advance {w : Window} {label : Counter → Owner × Int} (h : Owned r w s label)
    (now : Instant) :
    let out := (r.advance now).run s
    Renewed s out.2 r.counters out.1.1.counters :=
  renewed_of_owned h (fun _ => (h.advance now).2.isOpen) fun _ _ h' => (h'.advance now).1

theorem counters_eq_of_plan? (h : ∀ id, r'.plan? id = r.plan? id) : r'.counters = r.counters := by
  unfold counters countersOf
  simp only [h]

/-- Different line items have different owners, so their footprints are apart. -/
theorem disjoint_countersOf {w : Window} {label : Counter → Owner × Int} (h : Owned r w s label)
    {id id' : String} (hne : id ≠ id') : Disjoint (r.countersOf id) (r.countersOf id') := by
  rw [Set.disjoint_left]
  rintro _ ⟨p, hp, t, ht, rfl⟩ ⟨p', hp', u, hu, hcounter⟩
  have hlabel := (h.plan hp t ht).2.symm.trans ((congrArg label hcounter.symm).trans
    (h.plan hp' u hu).2)
  exact hne (Owner.item.inj (Prod.mk.inj hlabel).1)

theorem counters_eraseAll (r : Registry) (ids : List String) :
    (r.eraseAll ids).counters ⊆ r.counters := by
  rintro k ⟨id, p, hp, hk⟩
  obtain ⟨x, hx, hplan⟩ := Option.bind_eq_some_iff.mp hp
  exact ⟨id, p, (plan?_of_get? (get?_of_get?_eraseAll hx)).trans hplan, hk⟩

end Registry

/-! ## Serves -/

/-- On the way from `s` to `s'` serves are counted in a footprint only. -/
def CountsIn (A : Set Counter) (s s' : Spending) : Prop :=
  ∀ k ∈ s.openCounters, k ∉ A → s'.get k = s.get k

section CountsIn

variable {A : Set Counter} {s s' : Spending}

theorem countsIn_raised {k : Counter} (hk : k ∈ A) (h : s.Keeps s') (n : Nat) :
    CountsIn A s (s'.raised k n) := by
  intro k' hopen hnot
  have hne : k' ≠ k := fun e => hnot (e ▸ hk)
  rw [Spending.get_raised_of_ne hne, h.get_eq hopen]

theorem countsIn_of_keeps (h : s.Keeps s') : CountsIn A s s' := fun _ hopen _ => h.get_eq hopen

theorem Registry.get?_spend_of_ne {id id' : String} (hne : id' ≠ id) (r : Registry)
    (s : Spending) : ((r.spend id).run s).1.1.get? id' = r.get? id' := by
  cases hx : r.get? id with
  | none => rw [run_spend_of_none hx]
  | some x =>
    rw [run_spend_of_some hx]
    simp [get?, Std.ExtTreeMap.getElem?_insert, hne.symm]

theorem Registry.countsIn_spend (r : Registry) (id : String) (s : Spending) :
    CountsIn (r.countersOf id) s ((r.spend id).run s).2 := by
  have hsame : CountsIn (r.countersOf id) s s := countsIn_of_keeps (.refl s)
  cases hx : r.get? id with
  | none =>
    rw [run_spend_of_none hx]
    exact hsame
  | some x =>
    rw [run_spend_of_some hx]
    cases hp : x.plan with
    | none =>
      rw [LineItem.run_spend_of_none hp]
      exact hsame
    | some p =>
      rw [LineItem.run_spend_of_some hp]
      cases ht : p.unspentToken? s with
      | none => exact hsame
      | some t =>
        have hcounter : t.counter ∈ r.countersOf id :=
          ⟨p, (plan?_of_get? hx).trans hp, t, (Plan.mem_of_unspentToken? ht).1, rfl⟩
        exact countsIn_raised hcounter (.refl s) 1

theorem Plan.countsIn_recordSpent (q : Plan) (c : Int) (s : Spending) :
    CountsIn q.counters s ((q.recordSpent c).run s).2 := by
  rw [run_recordSpent]
  cases ht : q.token? c with
  | none => exact countsIn_of_keeps (.refl s)
  | some t =>
    have hcounter : t.counter ∈ q.counters := ⟨t, (mem_of_token? ht).1, rfl⟩
    exact countsIn_raised hcounter (.refl s) 1

/-- A serve is counted in the copy that the window keeps afterwards, be it a new one or not. -/
theorem Window.countsIn_recordServe (r : Registry) (classes : IdMap Int) (w : Window) (id : String)
    (s : Spending) :
    let out := (recordServe r classes w id).run s
    CountsIn out.1.counters s out.2 := by
  intro out
  cases hp : (r.get? id).bind (·.plan) with
  | none =>
    simp only [out, run_recordServe_of_none hp]
    exact countsIn_of_keeps (.refl s)
  | some p =>
    simp only [out, run_recordServe_of_some hp]
    have hkeeps := Opens.served p (w.copy? id p.id) s
    generalize (Status.served p (w.copy? id p.id)).run s = served at hkeeps ⊢
    obtain ⟨q, s₁⟩ := served
    have hcopy : (w.putCopy r id q).copy? id q.id = some q := by
      rw [copy?_putCopy, if_pos ⟨rfl, rfl⟩]
    cases ht : classes[p.id]?.bind q.token? with
    | none => exact countsIn_of_keeps hkeeps
    | some t =>
      obtain ⟨c, -, htoken⟩ := Option.bind_eq_some_iff.mp ht
      have hcounter : t.counter ∈ (w.putCopy r id q).counters :=
        ⟨id, q, (mem_of_copy? hcopy).1, t, (Plan.mem_of_token? htoken).1, rfl⟩
      exact countsIn_raised hcounter hkeeps 1

/-! ### Serves do not show elsewhere -/

theorem Plan.value_eq_of_countsIn (h : CountsIn A s s') {p : Plan}
    (hopen : p.counters ⊆ s.openCounters) (hd : Disjoint A p.counters) :
    p.value s' = p.value s := by
  have hbalances : p.balances s' = p.balances s := by
    refine List.map_congr_left fun t ht => ?_
    have hspent : t.spent s' = t.spent s :=
      h t.counter (hopen ⟨t, ht, rfl⟩) fun hA => Set.disjoint_left.mp hd hA ⟨t, ht, rfl⟩
    simp only [Token.balance, hspent]
  rw [value, hbalances, value]

theorem Window.value_eq_of_countsIn (h : CountsIn A s s') {w : Window}
    (hopen : w.counters ⊆ s.openCounters) (hd : Disjoint A w.counters) :
    w.value s' = w.value s := by
  refine congrArg (WindowValue.mk _) (Std.ExtTreeMap.ext_getElem? fun id => ?_)
  rw [Std.ExtTreeMap.getElem?_map, Std.ExtTreeMap.getElem?_map]
  refine Option.map_congr fun st hst => congrArg (StatusValue.mk _) ?_
  refine List.map_congr_left fun q hq => ?_
  have hcounters : q.counters ⊆ w.counters :=
    fun k hk => ⟨id, q, (copies_of_getElem? hst).symm ▸ hq, hk⟩
  exact Plan.value_eq_of_countsIn h (hcounters.trans hopen) (hd.mono_right hcounters)

theorem Registry.value?_eq_of_countsIn (h : CountsIn A s s') {r : Registry} {id : String}
    (hopen : r.countersOf id ⊆ s.openCounters) (hd : Disjoint A (r.countersOf id)) :
    r.value? s' id = r.value? s id := by
  refine Option.map_congr fun x hx => ?_
  have hplan : x.plan.map (·.value s') = x.plan.map (·.value s) := by
    refine Option.map_congr fun p hp => ?_
    have hcounters : p.counters ⊆ r.countersOf id :=
      fun k hk => ⟨p, (plan?_of_get? hx).trans hp, hk⟩
    exact Plan.value_eq_of_countsIn h (hcounters.trans hopen) (hd.mono_right hcounters)
  simp only [LineItem.value, Pacing.value, LineItem.pacing, hplan]

end CountsIn

end DealPacing
