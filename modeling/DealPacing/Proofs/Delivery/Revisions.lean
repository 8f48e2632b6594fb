import DealPacing.Proofs.Delivery.Histories

/-!
# Revisions that spend side by side

A refresh leaves the line item it was made from as it is, so that several revisions of a line item
live side by side, and serves are taken from any of them. A revision keeps the counters of the
classes that it has in common with the one before, and a plan that is carried on keeps the counters
of both. So all plans that list a class count it in one counter, which shows every serve of the
class, whichever revision granted it.

## Main definitions

* `Family`, `Family.Reached`: revisions that were made of one line item, and the serves they granted
* `Shares`: all plans count a class in the same counter

## Main results

* `Shares.raised`, `Shares.snoc`: a serve is counted once, and further plans share the counter
* `Pacing.Changes.shares`: changes that keep the spend keep the shared counter
* `Family.spentInClass_eq_count`: every revision shows every serve
-/

namespace DealPacing

/-- Revisions of a line item that live side by side. -/
structure Family where
  revisions : List LineItem
  store : Spending
  /-- All plans that a revision has or had. -/
  plans : List Plan
  /-- The classes of the serves granted so far, the latest first. -/
  granted : List Int

namespace Family

/-- What an act left joins the revisions. -/
def join (f : Family) (r : (LineItem × Option TokenSpend) × Spending) : Family where
  revisions := f.revisions ++ [r.1.1]
  store := r.2
  plans := f.plans ++ r.1.1.plan.toList
  granted := (r.1.2.map (·.priorityClass)).toList ++ f.granted

/-- What an act left replaces a revision. -/
def replace (f : Family) (i : Nat) (r : (LineItem × Option TokenSpend) × Spending) : Family where
  revisions := f.revisions.set i r.1.1
  store := r.2
  plans := f.plans ++ r.1.1.plan.toList
  granted := (r.1.2.map (·.priorityClass)).toList ++ f.granted

/-- One attempt to take a serve from a token. -/
def tried (f : Family) (t : Token) : Family where
  revisions := f.revisions
  store := (t.trySpend.run f.store).2
  plans := f.plans
  granted := if (t.trySpend.run f.store).1 then t.priorityClass :: f.granted else f.granted

/-- The revisions of a line item: any of them is refreshed with a schedule of its plan, moves on in
place while the planner does not respond, or grants a serve. The attempts of a serve on the tokens
of a plan may fall between other steps. -/
inductive Reached : Family → Prop
  | registered (record : LineItemRecord) (cpm : Option Float)
    (targeting : Option Targeting.Expression) (now : Instant) (s : Spending) {y : Schedule}
    (hy : record.scheduleAt? now = some y) (hd : y.Distinct) :
    Reached ⟨[((LineItem.register record cpm targeting now).run s).1],
      ((LineItem.register record cpm targeting now).run s).2,
      ((LineItem.register record cpm targeting now).run s).1.plan.toList, []⟩
  | refreshed {f : Family} (h : Reached f) {x : LineItem} {p : Plan} (hx : x ∈ f.revisions)
    (hp : x.plan = some p) (record : LineItemRecord) (cpm : Option Float)
    (targeting : Option Targeting.Expression) (now : Instant) {y : Schedule}
    (hy : record.scheduleAt? now = some y) (hid : y.planId = p.id) (hd : y.Distinct) :
    Reached (f.join ((x.act (.refresh record cpm targeting now)).run f.store))
  | advanced {f : Family} (h : Reached f) {i : Nat} {x : LineItem} {p : Plan}
    (hx : f.revisions[i]? = some x) (hp : x.plan = some p) (now : Instant) {y : Schedule}
    (hy : x.record.scheduleAt? now = some y) (hd : y.Distinct) :
    Reached (f.replace i ((x.act (.advance now false)).run f.store))
  | spent {f : Family} (h : Reached f) {i : Nat} {x : LineItem} (hx : f.revisions[i]? = some x) :
    Reached (f.replace i ((x.act .spend).run f.store))
  | tried {f : Family} (h : Reached f) {x : LineItem} {p : Plan} {t : Token}
    (hx : x ∈ f.revisions) (hp : x.plan = some p) (ht : t ∈ p.tokens) : Reached (f.tried t)

end Family

theorem Token.run_trySpend (t : Token) (s : Spending) :
    t.trySpend.run s =
      if t.spent s < t.total then (true, s.raised t.counter 1) else (false, s) := by
  have hrun : t.trySpend.run s = StateT.run (if t.spent s < t.total then do
    Spending.add t.counter 1
    return true
    else return false) s := rfl
  rw [hrun]
  split <;> rfl

/-- All plans count class `c` in the counter `k`, which shows the serves that were granted. -/
structure Shares (label : Counter → Int) (k : Counter) (c : Int) (s : Spending)
    (plans : List Plan) (granted : List Int) : Prop where
  isOpen : s.IsOpen k
  counted : s.get k = granted.count c
  distinct : ∀ p ∈ plans, p.Distinct
  labelled : ∀ p ∈ plans, Labelled label id s p.tokens
  shared : ∀ p ∈ plans, ∃ t, p.token? c = some t ∧ t.counter = k

namespace Shares

variable {label : Counter → Int} {k : Counter} {c : Int} {s s' : Spending} {plans : List Plan}
  {granted : List Int} {p q : Plan}

/-- Every plan shows the serves that were granted. -/
theorem spentInClass_eq (h : Shares label k c s plans granted) (hp : p ∈ plans) :
    p.spentInClass c s = granted.count c := by
  obtain ⟨t, ht, hk⟩ := h.shared p hp
  rw [← h.counted, ← hk, Plan.spentInClass, ht]
  rfl

/-- A serve counts once for all plans if it is of the class, and not at all otherwise. -/
theorem raised (h : Shares label k c s plans granted) (hp : p ∈ plans) {t : Token}
    (ht : t ∈ p.tokens) :
    Shares label k c (s.raised t.counter 1) plans (t.priorityClass :: granted) where
  isOpen := (s.isOpen_raised t.counter k 1).mpr h.isOpen
  counted := by
    obtain ⟨u, hu, hk⟩ := h.shared p hp
    obtain ⟨hum, huc⟩ := Plan.mem_of_token? hu
    -- the plan counts the class in `k` and every other class in another counter
    by_cases hc : t.priorityClass = c
    · have htu : t = u := by
        have htoken := (Plan.token?_eq_some_iff (h.distinct p hp)).mpr ⟨ht, hc⟩
        exact Option.some.inj (htoken.symm.trans hu)
      rw [hc, List.count_cons_self, ← h.counted, htu, hk, Spending.get_raised_self h.isOpen]
    · have hne : k ≠ t.counter := by
        intro e
        have := (h.labelled p hp).priorityClass_eq Function.injective_id (h.labelled p hp) hum ht
          (hk.trans e)
        exact hc (this.symm.trans huc)
      rw [List.count_cons_of_ne hc, ← h.counted, Spending.get_raised_of_ne hne]
  distinct := h.distinct
  labelled := fun q hq => (h.labelled q hq).mono (.refl s label)
    (Spending.isOpen_raised s _ _ 1).mpr
  shared := h.shared

/-- One more plan, which continues another one and shares its counter. -/
theorem snoc (h : Shares label k c s plans granted) (hp : p ∈ plans)
    (hq : Continues s s' p.tokens q.tokens) (hd : q.Distinct)
    (hk : ∃ t, q.token? c = some t ∧ t.counter = k) :
    ∃ label', Shares label' k c s' (plans ++ [q]) granted := by
  obtain ⟨label', hl, hlabelled⟩ := hq.exists_label (h.labelled p hp)
  refine ⟨label', hq.keeps.isOpen h.isOpen, (hq.keeps.get_eq h.isOpen).trans h.counted, ?_, ?_, ?_⟩
  · intro r hr
    rcases List.mem_append.mp hr with hr | hr
    · exact h.distinct r hr
    · exact List.mem_singleton.mp hr ▸ hd
  · intro r hr
    rcases List.mem_append.mp hr with hr | hr
    · exact (h.labelled r hr).mono hl hq.keeps.isOpen
    · exact List.mem_singleton.mp hr ▸ hlabelled
  · intro r hr
    rcases List.mem_append.mp hr with hr | hr
    · exact h.shared r hr
    · exact List.mem_singleton.mp hr ▸ hk

/-- A plan that is there already may be listed again. -/
theorem snoc_mem (h : Shares label k c s plans granted) (hp : p ∈ plans) :
    Shares label k c s (plans ++ [p]) granted := by
  have hsub : ∀ q ∈ plans ++ [p], q ∈ plans := by
    intro q hq
    rcases List.mem_append.mp hq with hq | hq
    · exact hq
    · exact List.mem_singleton.mp hq ▸ hp
  exact ⟨h.isOpen, h.counted, fun q hq => h.distinct q (hsub q hq),
    fun q hq => h.labelled q (hsub q hq), fun q hq => h.shared q (hsub q hq)⟩

end Shares

/-- The change keeps the spend of the plan, and the schedule that it brings in lists each class at
most once. -/
def Change.KeepsSpend : Change → Prop
  | .kept => True
  | .activated _ _ => False
  | .carriedOn x _ => x.Distinct
  | .revised x => x.Distinct
  | .served _ => True
  | .ended => False

namespace LineItem

variable {x : LineItem} {p : Plan}

theorem keepsSpend_spend (x : LineItem) (s : Spending) : (x.change s .spend).KeepsSpend := by
  simp only [change, spendChange]
  split <;> trivial

theorem keepsSpend_refresh (hp : x.plan = some p) {record : LineItemRecord} {now : Instant}
    {y : Schedule} (hy : record.scheduleAt? now = some y) (hid : y.planId = p.id)
    (hd : y.Distinct) (cpm : Option Float) (targeting : Option Targeting.Expression)
    (s : Spending) : (x.change s (.refresh record cpm targeting now)).KeepsSpend := by
  simp only [change, refreshChange, hy, hp, if_pos hid.symm]
  split
  · exact hd
  · trivial

theorem keepsSpend_advance (hp : x.plan = some p) {now : Instant} {y : Schedule}
    (hy : x.record.scheduleAt? now = some y) (hd : y.Distinct) (s : Spending) :
    (x.change s (.advance now false)).KeepsSpend := by
  simp only [change, advanceChange, hy, hp]
  split
  · trivial
  · exact hd

end LineItem

/-- A change that keeps the spend leaves a plan that shares the counter, if it lists the class. -/
theorem Pacing.Changes.shares {b b' : Pacing} {s s' : Spending} {change : Change}
    (h : b.Changes s change b' s') (hkeeps : change.KeepsSpend) {label : Counter → Int}
    {k : Counter} {c : Int} {plans : List Plan} {granted : List Int}
    (hs : Shares label k c s plans granted) {p : Plan} (hb : b.plan = some p) (hp : p ∈ plans) :
    ∃ q, b'.plan = some q ∧ (c ∈ q.classes →
      ∃ label', Shares label' k c s' (plans ++ [q]) (change.serve?.toList ++ granted)) := by
  have hopen := Plan.isOpen_of_labelled (hs.labelled p hp)
  obtain ⟨u, hu, hk⟩ := hs.shared p hp
  cases h with
  | kept => exact ⟨p, hb, fun _ => ⟨label, hs.snoc_mem hp⟩⟩
  | activated hx => exact hkeeps.elim
  | @carriedOn x now r hr hx =>
    obtain rfl := Option.some.inj (hb.symm.trans hr)
    refine ⟨_, rfl, fun _ => hs.snoc hp (Plan.carriedInto_continues hopen x)
      (Plan.distinct_carriedInto p x s) ?_⟩
    -- the class is carried on, so the schedule does not matter
    rw [Plan.token?_carriedInto (hs.distinct p hp) hkeeps, hu]
    cases ((Plan.ofSchedule x).run s).1.token? c with
    | none => exact ⟨u, rfl, hk⟩
    | some t => exact ⟨u.revised (Token.wordAdd u.total t.total), rfl, hk⟩
  | @revised x r now hr hid hnewer hx =>
    obtain rfl := Option.some.inj (hb.symm.trans hr)
    refine ⟨_, rfl, fun hc => hs.snoc hp (Plan.withUpdatedSchedule_continues hopen x)
      (Plan.distinct_withUpdatedSchedule p hkeeps s) ?_⟩
    -- the newer schedule lists the class, so its token takes over the counter
    have hsome := Plan.token?_isSome_iff.mpr hc
    rw [Plan.token?_withUpdatedSchedule_of_some hu] at hsome ⊢
    cases ht : ((Plan.ofSchedule x).run s).1.token? c with
    | none => simp [ht] at hsome
    | some t => exact ⟨u.revised t.total, rfl, hk⟩
  | @served r t hr ht =>
    obtain rfl := Option.some.inj (hb.symm.trans hr)
    have hraised := hs.raised hp (Plan.mem_of_unspentToken? ht).1
    exact ⟨p, rfl, fun _ => ⟨label, hraised.snoc_mem hp⟩⟩
  | ended => exact hkeeps.elim

namespace Family

variable {f : Family} {c : Int}

/-- All plans of the revisions share one counter for the class. -/
def Shared (f : Family) (c : Int) : Prop :=
  (∃ label k, Shares label k c f.store f.plans f.granted) ∧
    ∀ x ∈ f.revisions, ∃ p ∈ f.plans, x.plan = some p

theorem shared_registered (record : LineItemRecord) (cpm : Option Float)
    (targeting : Option Targeting.Expression) {now : Instant} (s : Spending) {y : Schedule}
    (hy : record.scheduleAt? now = some y) (hd : y.Distinct)
    (hc : ∀ p ∈ ((LineItem.register record cpm targeting now).run s).1.plan.toList,
      c ∈ p.classes) :
    Shared ⟨[((LineItem.register record cpm targeting now).run s).1],
      ((LineItem.register record cpm targeting now).run s).2,
      ((LineItem.register record cpm targeting now).run s).1.plan.toList, []⟩ c := by
  rw [LineItem.run_register_of_some hy] at hc ⊢
  have hnew := Plan.ofSchedule_continues y s
  have hnil : Labelled (fun _ => 0) id s [] := by simp [Labelled]
  obtain ⟨label, -, hl⟩ := hnew.exists_label hnil
  have hlisted : c ∈ ((Plan.ofSchedule y).run s).1.classes := hc _ (by simp)
  obtain ⟨t, ht⟩ := Option.isSome_iff_exists.mp (Plan.token?_isSome_iff.mpr hlisted)
  have htm := (Plan.mem_of_token? ht).1
  refine ⟨⟨label, t.counter, ?_⟩, by simp⟩
  refine ⟨(hl t htm).1, Plan.spent_ofSchedule y s t htm, ?_, ?_, ?_⟩ <;>
    simp only [Option.toList_some, List.mem_singleton, forall_eq]
  · exact Plan.distinct_ofSchedule hd s
  · exact hl
  · exact ⟨t, ht, rfl⟩

/-- An act that keeps the spend keeps the counter shared, whether what it leaves joins the revisions
or replaces one. -/
theorem Shared.act (h : f.Shared c) {x : LineItem} (hx : x ∈ f.revisions) {a : LineItem.Act}
    (hkeeps : (x.change f.store a).KeepsSpend) {revisions : List LineItem}
    (hrevisions : ∀ z ∈ revisions, z ∈ f.revisions ∨ z = ((x.act a).run f.store).1.1)
    (hc : ∀ p ∈ f.plans ++ ((x.act a).run f.store).1.1.plan.toList, c ∈ p.classes) :
    Shared ⟨revisions, ((x.act a).run f.store).2,
      f.plans ++ ((x.act a).run f.store).1.1.plan.toList,
      (((x.act a).run f.store).1.2.map (·.priorityClass)).toList ++ f.granted⟩ c := by
  obtain ⟨⟨label, k, hs⟩, hplans⟩ := h
  obtain ⟨p, hp, hplan⟩ := hplans x hx
  obtain ⟨q, hq, hshares⟩ := (x.changes_act a f.store).shares hkeeps hs hplan hp
  have hq' : ((x.act a).run f.store).1.1.plan = some q := hq
  rw [← x.serve?_change a f.store, hq', Option.toList_some]
  rw [hq', Option.toList_some] at hc
  obtain ⟨label', hs'⟩ := hshares (hc q (by simp))
  refine ⟨⟨label', k, hs'⟩, fun z hz => ?_⟩
  rcases hrevisions z hz with hz | rfl
  · obtain ⟨r, hr, hplan⟩ := hplans z hz
    exact ⟨r, List.mem_append_left _ hr, hplan⟩
  · exact ⟨q, by simp, hq'⟩

theorem Shared.tried (h : f.Shared c) {x : LineItem} (hx : x ∈ f.revisions) {p : Plan}
    (hp : x.plan = some p) {t : Token} (ht : t ∈ p.tokens) : (f.tried t).Shared c := by
  obtain ⟨⟨label, k, hs⟩, hplans⟩ := h
  obtain ⟨q, hq, hplan⟩ := hplans x hx
  obtain rfl := Option.some.inj (hp.symm.trans hplan)
  refine ⟨⟨label, k, ?_⟩, hplans⟩
  unfold Family.tried
  rw [t.run_trySpend]
  split
  · exact hs.raised hq ht
  · exact hs

theorem Reached.shared (h : f.Reached) (hc : ∀ p ∈ f.plans, c ∈ p.classes) : f.Shared c := by
  induction h with
  | registered record cpm targeting now s hy hd =>
    exact shared_registered record cpm targeting s hy hd hc
  | @refreshed f h x p hx hp record cpm targeting now y hy hid hd ih =>
    have hkeeps := LineItem.keepsSpend_refresh hp hy hid hd cpm targeting f.store
    refine (ih fun p hp => hc p (List.mem_append_left _ hp)).act hx hkeeps (fun z hz => ?_) hc
    simpa using hz
  | @advanced f h i x p hx hp now y hy hd ih =>
    have hkeeps := LineItem.keepsSpend_advance hp hy hd f.store
    exact (ih fun p hp => hc p (List.mem_append_left _ hp)).act (List.mem_of_getElem? hx) hkeeps
      (fun z hz => List.mem_or_eq_of_mem_set hz) hc
  | @spent f h i x hx ih =>
    have hkeeps := x.keepsSpend_spend f.store
    exact (ih fun p hp => hc p (List.mem_append_left _ hp)).act (List.mem_of_getElem? hx) hkeeps
      (fun z hz => List.mem_or_eq_of_mem_set hz) hc
  | tried h hx hp ht ih => exact (ih hc).tried hx hp ht

/-- **Every revision shows every serve of a class that all plans list**, whichever revision granted
it. -/
theorem spentInClass_eq_count (h : f.Reached) (hc : ∀ p ∈ f.plans, c ∈ p.classes) :
    ∀ x ∈ f.revisions, ∃ p, x.plan = some p ∧ p.spentInClass c f.store = f.granted.count c := by
  obtain ⟨⟨label, k, hs⟩, hplans⟩ := h.shared hc
  intro x hx
  obtain ⟨p, hp, hplan⟩ := hplans x hx
  exact ⟨p, hplan, hs.spentInClass_eq hp⟩

/-- A refresh of a line item, a serve of each revision, and the next hour. -/
theorem spentInClass_eq_count_twoHours : ∃ f, Reached f ∧ (∀ p ∈ f.plans, 1 ∈ p.classes) ∧
    f.granted.count 1 = 2 ∧
      ∀ x ∈ f.revisions, ∃ p, x.plan = some p ∧ p.spentInClass 1 f.store = f.granted.count 1 := by
  have hregistered := Reached.registered (twoHours [⟨1, 2⟩] [⟨1, 1⟩] (hour 0)) none none (hour 0)
    .empty rfl (by decide +kernel)
  have hrefreshed := hregistered.refreshed (List.mem_singleton_self _) rfl
    (twoHours [⟨1, 2⟩] [⟨1, 1⟩] (hour 1)) none none (hour 0) rfl rfl (by decide +kernel)
  have hspent := (hrefreshed.spent (i := 0) rfl).spent (i := 1) rfl
  have h := @Reached.advanced _ hspent 0 _ ⟨"first", hour 0, hour 1, hour 0, [⟨1, 2, ⟨0⟩⟩]⟩ rfl
    (by decide +kernel) (hour 1) ⟨"second", hour 1, hour 2, hour 0, [⟨1, 1⟩]⟩ (by decide +kernel)
    (by decide +kernel)
  exact ⟨_, h, by decide +kernel, by decide +kernel, spentInClass_eq_count h (by decide +kernel)⟩

end Family

end DealPacing
