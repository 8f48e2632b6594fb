import DealPacing.Progress.Tracker
import DealPacing.Proofs.Progress.Copies
import DealPacing.Proofs.Registry.Keys
import Mathlib.Data.List.Find

/-!
# Who counts in which counter

A counter belongs to the active plan of a line item or to one copy in the open window, and counts
one class. No other plan ever counts in it, whatever ids the planner chooses for line items and
plans. So a serve shows in the plan it was taken from only, and a replayed class in one copy only.

## Main definitions

* `Owner`: registered line items and copies in the open window
* `Owned`: the counters of a registry and a window belong to their owners

## Main results

* `Owned.spent_raised_item`, `Owned.spent_raised_copy`: where a serve shows
* `Owned.update`, `Owned.advance`: responses of the planner and plan changes keep the owners
-/

namespace DealPacing

/-- What a counter belongs to. -/
inductive Owner where
  /-- The active plan of a registered line item. -/
  | item (id : String)
  /-- The copy of a plan of a line item in the open window. -/
  | copy (id planId : String)
deriving DecidableEq

/-- The label of the counter of a class. -/
def Owner.kind (o : Owner) (c : Int) : Owner × Int := (o, c)

/-- The active plan of a registered line item. -/
def Registry.plan? (r : Registry) (id : String) : Option Plan := (r.get? id).bind (·.plan)

namespace Registry

theorem plan?_of_get? {r : Registry} {id : String} {x : LineItem} (h : r.get? id = some x) :
    r.plan? id = x.plan := by
  rw [plan?, h, Option.bind_some]

end Registry

/-- A serve does not show in a class whose counter has another label. -/
theorem Plan.spentInClass_raised_of_ne {κ : Type} {label : Counter → κ} {kind : Int → κ}
    {s : Spending} {p : Plan} (hp : Labelled label kind s p.tokens) {k : Counter} {c : Int}
    (hne : label k ≠ kind c) (n : Nat) :
    p.spentInClass c (s.raised k n) = p.spentInClass c s := by
  unfold spentInClass
  cases ht : p.token? c with
  | none => rfl
  | some t =>
    obtain ⟨htm, htc⟩ := mem_of_token? ht
    have hcounter : t.counter ≠ k := by
      intro e
      rw [← e, (hp t htm).2, htc] at hne
      exact hne rfl
    simp only [Option.map_some, Token.spent, Spending.get_raised_of_ne hcounter]

/-- The counters of the active plans and of the copies belong to their owners. -/
structure Owned (r : Registry) (w : Window) (s : Spending) (label : Counter → Owner × Int) :
    Prop where
  id_eq : ∀ {id x}, r.get? id = some x → x.id = id
  items : ∀ {id x p}, r.get? id = some x → x.plan = some p →
    Labelled label (Owner.item id).kind s p.tokens
  nodup : ∀ id, ((w.copies id).map (·.id)).Nodup
  copies : ∀ {id q}, q ∈ w.copies id → Labelled label (Owner.copy id q.id).kind s q.tokens

namespace Owned

variable {r : Registry} {w : Window} {s s' : Spending} {label label' : Counter → Owner × Int}

theorem keyed (h : Owned r w s label) : r.Keyed := ⟨h.id_eq⟩

theorem plan (h : Owned r w s label) {id : String} {p : Plan} (hp : r.plan? id = some p) :
    Labelled label (Owner.item id).kind s p.tokens := by
  obtain ⟨x, hx, hplan⟩ := Option.bind_eq_some_iff.mp hp
  exact h.items hx hplan

theorem copy (h : Owned r w s label) {id planId : String} {q : Plan}
    (hq : w.copy? id planId = some q) : Labelled label (Owner.copy id planId).kind s q.tokens := by
  obtain ⟨hmem, hid⟩ := Window.mem_of_copy? hq
  exact hid ▸ h.copies hmem

theorem isOpen_copy (h : Owned r w s label) (id planId : String) :
    ∀ q ∈ w.copy? id planId, q.IsOpen s :=
  fun _ hq => Plan.isOpen_of_labelled (h.copy hq)

/-- What does not touch the copies leaves the owners. -/
theorem congr_window (h : Owned r w s label) {w' : Window} (hw : w'.copies = w.copies) :
    Owned r w' s label where
  id_eq := h.id_eq
  items := h.items
  nodup := fun id => by rw [hw]; exact h.nodup id
  copies := fun hq => h.copies (by rwa [hw] at hq)

/-- The store may open counters and move them. -/
theorem mono_store (h : Owned r w s label) (hs : ∀ {c}, s.IsOpen c → s'.IsOpen c) :
    Owned r w s' label where
  id_eq := h.id_eq
  items := fun hx hp => (h.items hx hp).mono (.refl s label) hs
  nodup := h.nodup
  copies := fun hq => (h.copies hq).mono (.refl s label) hs

/-- A line item is entered, whose active plan has counters of its own. -/
theorem put (h : Owned r w s label) (hl : Relabels s label label')
    (hs : ∀ {c}, s.IsOpen c → s'.IsOpen c) {x : LineItem}
    (hx : x.pacing.LabelledBy label' (Owner.item x.id).kind s') :
    Owned (r.put x) w s' label' where
  id_eq := by
    intro id y hy
    rw [Registry.get?_put] at hy
    split at hy
    · next e => exact Option.some.inj hy ▸ e
    · exact h.id_eq hy
  items := by
    intro id y p hy hp
    rw [Registry.get?_put] at hy
    split at hy
    · next e =>
      obtain rfl := Option.some.inj hy
      exact e ▸ hx p hp
    · exact (h.items hy hp).mono hl hs
  nodup := h.nodup
  copies := fun hq => (h.copies hq).mono hl hs

theorem eraseAll (h : Owned r w s label) (ids : List String) :
    Owned (r.eraseAll ids) w s label where
  id_eq := fun hx => h.id_eq (Registry.get?_of_get?_eraseAll hx)
  items := fun hx hp => h.items (Registry.get?_of_get?_eraseAll hx) hp
  nodup := h.nodup
  copies := h.copies

/-- A copy takes the place of the one with its id. -/
theorem putCopy (h : Owned r w s label) (hl : Relabels s label label')
    (hs : ∀ {c}, s.IsOpen c → s'.IsOpen c) {id : String} {q : Plan}
    (hq : Labelled label' (Owner.copy id q.id).kind s' q.tokens) :
    Owned r (w.putCopy r id q) s' label' where
  id_eq := h.id_eq
  items := fun hx hp => (h.items hx hp).mono hl hs
  nodup := by
    intro id'
    rw [Window.copies_putCopy]
    split
    · exact Status.nodup_upsert rfl (h.nodup id)
    · exact h.nodup id'
  copies := by
    intro id' p hp
    rw [Window.copies_putCopy] at hp
    split at hp
    · next e =>
      subst e
      rcases Status.mem_upsert rfl (h.nodup id) hp with rfl | ⟨hp, -⟩
      · exact hq
      · exact (h.copies hp).mono hl hs
    · exact (h.copies hp).mono hl hs

theorem putCopy_of_continues (h : Owned r w s label) {id planId : String} {q : Plan}
    (hid : q.id = planId)
    (hc : Continues s s' (((w.copy? id planId).map (·.tokens)).getD []) q.tokens) :
    ∃ label', Owned r (w.putCopy r id q) s' label' := by
  have hold : Labelled label (Owner.copy id q.id).kind s
      (((w.copy? id planId).map (·.tokens)).getD []) := by
    rw [hid]
    cases hq : w.copy? id planId with
    | none => simp [Labelled]
    | some q' => exact h.copy hq
  obtain ⟨label', hl, hq⟩ := hc.exists_label hold
  exact ⟨label', h.putCopy hl hc.keeps.isOpen hq⟩

/-! ## What the copies count -/

theorem spent_of_keeps (h : Owned r w s label) (hs : s.Keeps s') (id planId : String) (c : Int) :
    w.spent id planId c s' = w.spent id planId c s := by
  unfold Window.spent
  cases hq : w.copy? id planId with
  | none => rfl
  | some q => exact Plan.spentInClass_eq_of_keeps hs (h.isOpen_copy id planId q hq) c

/-- A serve of an active plan does not show in any copy. -/
theorem spent_raised_item (h : Owned r w s label) {id : String} {p : Plan}
    (hp : r.plan? id = some p) {t : Token} (ht : t ∈ p.tokens) (id' planId : String) (c : Int) :
    w.spent id' planId c (s.raised t.counter 1) = w.spent id' planId c s := by
  unfold Window.spent
  cases hq : w.copy? id' planId with
  | none => rfl
  | some q =>
    have hne : label t.counter ≠ (Owner.copy id' planId).kind c := by
      rw [(h.plan hp t ht).2]
      exact fun e => nomatch (Prod.mk.inj e).1
    exact Plan.spentInClass_raised_of_ne (h.copy hq) hne 1

/-- A class that is replayed on a copy shows in that copy only. -/
theorem spent_raised_copy (h : Owned r w s label) {id planId : String} {q : Plan}
    (hq : w.copy? id planId = some q) {c : Int} {t : Token} (ht : q.token? c = some t)
    (id' planId' : String) (c' : Int) :
    w.spent id' planId' c' (s.raised t.counter 1) =
      w.spent id' planId' c' s + if id' = id ∧ planId' = planId ∧ c' = c then 1 else 0 := by
  obtain ⟨htm, htc⟩ := Plan.mem_of_token? ht
  obtain ⟨hopen, hlabel⟩ := h.copy hq t htm
  by_cases hsame : id' = id ∧ planId' = planId ∧ c' = c
  · obtain ⟨rfl, rfl, rfl⟩ := hsame
    simp [Window.spent, hq, Plan.spentInClass, ht, Token.spent, Spending.get_raised_self hopen]
  · rw [if_neg hsame, Nat.add_zero]
    unfold Window.spent
    cases hq' : w.copy? id' planId' with
    | none => rfl
    | some q' =>
      have hne : label t.counter ≠ (Owner.copy id' planId').kind c' := by
        rw [hlabel, htc]
        intro e
        obtain ⟨ho, hc⟩ := Prod.mk.inj e
        obtain ⟨hid, hplan⟩ := Owner.copy.inj ho
        exact hsame ⟨hid.symm, hplan.symm, hc.symm⟩
      exact Plan.spentInClass_raised_of_ne (h.copy hq') hne 1

/-- A serve of one line item leaves the others as many serves as before. -/
theorem unspentToken?_raised (h : Owned r w s label) {id id' : String} (hne : id' ≠ id)
    {p p' : Plan} (hp : r.plan? id = some p) (hp' : r.plan? id' = some p') {t : Token}
    (ht : t ∈ p.tokens) : p'.unspentToken? (s.raised t.counter 1) = p'.unspentToken? s := by
  refine List.find?_congr fun u hu => ?_
  have hcounter : u.counter ≠ t.counter := by
    intro e
    have hlabel := (h.plan hp' u hu).2.symm.trans ((congrArg label e).trans (h.plan hp t ht).2)
    exact hne (Owner.item.inj (Prod.mk.inj hlabel).1)
  have hspent : u.spent (s.raised t.counter 1) = u.spent s := Spending.get_raised_of_ne hcounter s 1
  rw [hspent]

/-- A copy that is put in place counts for its own plan id. -/
theorem spent_putCopy (h : Owned r w s label) (hs : s.Keeps s') {id : String} {q : Plan}
    (id' planId : String) (c : Int) :
    (w.putCopy r id q).spent id' planId c s' =
      if id' = id ∧ planId = q.id then q.spentInClass c s' else w.spent id' planId c s := by
  rw [← h.spent_of_keeps hs]
  unfold Window.spent
  rw [Window.copy?_putCopy]
  split <;> rfl

/-! ## Operations on the registry -/

/-- The counters of the registry and the window belong to owners, and those of `s₀` stay. -/
def Grown (s₀ : Spending) (w : Window) (r : Registry) (s : Spending) : Prop :=
  (∃ label, Owned r w s label) ∧ s₀.Keeps s

/-- A line item goes through a change without a serve, and is entered. -/
theorem put_of_changes (h : Owned r w s label) {b : Pacing} {id : String}
    (hb : b.LabelledBy label (Owner.item id).kind s) {x : LineItem} {change : Change}
    (hc : b.Changes s change x.pacing s') (hserve : change.serve? = none) (hid : x.id = id) :
    ∃ label', Relabels s label label' ∧ Owned (r.put x) w s' label' := by
  subst hid
  obtain ⟨label', hl, hx⟩ := hc.exists_label hb
  exact ⟨label', hl, h.put hl (hc.keeps hserve).isOpen hx⟩

theorem enter (h : Owned r w s label) (record : LineItemRecord) (cpm : Option Float)
    (now : Instant) :
    Grown s w ((r.enter record cpm now).run s).1 ((r.enter record cpm now).run s).2 := by
  unfold Registry.enter
  cases hx : r.lineItems[record.lineItemId]? with
  | some x =>
    have hserve := x.serve?_change (.refresh record cpm record.expression? now) s
    have hc := x.changes_refreshed record cpm record.expression? now s
    have hb : x.pacing.LabelledBy label (Owner.item record.lineItemId).kind s :=
      fun p hp => h.items hx hp
    obtain ⟨label', -, h'⟩ := h.put_of_changes hb hc hserve rfl
    exact ⟨⟨label', h'⟩, hc.keeps hserve⟩
  | none =>
    have hserve : (LineItem.opening record now).serve? = none := by
      unfold LineItem.opening
      split <;> rfl
    have hc := LineItem.changes_register record cpm record.expression? now s
    have hb : Pacing.none.LabelledBy label (Owner.item record.lineItemId).kind s :=
      Pacing.forall_plan_none _
    have hid := LineItem.id_register record cpm record.expression? now s
    obtain ⟨label', -, h'⟩ := h.put_of_changes hb hc hserve hid
    exact ⟨⟨label', h'⟩, hc.keeps hserve⟩

theorem applyRecord {s₀ : Spending} {sofar : Registry × List Event} (h : Grown s₀ w sofar.1 s)
    (pricing : Pricing) (now : Instant) (record : LineItemRecord) :
    Grown s₀ w ((Registry.applyRecord pricing now sofar record).run s).1.1
      ((Registry.applyRecord pricing now sofar record).run s).2 := by
  obtain ⟨⟨label, howned⟩, hkeeps⟩ := h
  unfold Registry.applyRecord
  by_cases hretired : record.isRetired now
  · simp only [hretired, if_true]
    exact ⟨⟨label, howned⟩, hkeeps⟩
  · simp only [hretired]
    cases Registry.accept pricing record with
    | error e => exact ⟨⟨label, howned⟩, hkeeps⟩
    | ok cpm =>
      obtain ⟨howned', hkeeps'⟩ := howned.enter record cpm now
      exact ⟨howned', hkeeps.trans hkeeps'⟩

/-- **A response of the planner keeps the owners and all counts.** -/
theorem update (h : Owned r w s label) (pricing : Pricing) (records : List LineItemRecord)
    (plannerResponds : Bool) (now : Instant) :
    Grown s w ((r.update pricing records plannerResponds now).run s).1.1
      ((r.update pricing records plannerResponds now).run s).2 := by
  have hr : Owned { r with plannerResponds } w s label := ⟨h.id_eq, h.items, h.nodup, h.copies⟩
  unfold Registry.update
  cases plannerResponds with
  | false => exact ⟨⟨label, hr⟩, .refl s⟩
  | true =>
    refine run_foldlM_of_mem (I := fun (sofar : Registry × List Event) s' => Grown s w sofar.1 s')
      ⟨⟨label, hr.eraseAll _⟩, .refl s⟩ fun record _ sofar s' h' => ?_
    exact applyRecord h' pricing now record

/-- **Plan changes keep the owners and all counts.** -/
theorem advance (h : Owned r w s label) (now : Instant) :
    Grown s w ((r.advance now).run s).1.1 ((r.advance now).run s).2 := by
  -- the loop goes over the line items of the start, so it keeps their labels as well
  have hloop : (∃ label', Owned ((r.advance now).run s).1.1 w ((r.advance now).run s).2 label' ∧
      ∀ x ∈ r.toList, x.pacing.LabelledBy label' (Owner.item x.id).kind
        ((r.advance now).run s).2) ∧ s.Keeps ((r.advance now).run s).2 := by
    refine run_foldlM_of_mem (I := fun (sofar : Registry × List Event) s' =>
      (∃ label', Owned sofar.1 w s' label' ∧
        ∀ x ∈ r.toList, x.pacing.LabelledBy label' (Owner.item x.id).kind s') ∧ s.Keeps s')
      ⟨⟨label, h, fun x hx p hp => h.items (h.keyed.get?_of_mem_toList hx) hp⟩, .refl s⟩ ?_
    rintro x hx sofar s₁ ⟨⟨label₁, h₁, hl₁⟩, hkeeps₁⟩
    obtain ⟨hr, hs⟩ := Registry.run_advanceOne now sofar x s₁
    have hc := x.changes_advance now sofar.1.plannerResponds s₁
    have hserve := x.serve?_change (.advance now sofar.1.plannerResponds) s₁
    have hkeeps := hc.keeps hserve
    have hid := x.id_advance? now sofar.1.plannerResponds s₁
    rw [hr, hs]
    cases hnext : ((x.advance? now sofar.1.plannerResponds).run s₁).1 with
    | none =>
      refine ⟨⟨label₁, h₁.mono_store hkeeps.isOpen, fun y hy p hp => ?_⟩, hkeeps₁.trans hkeeps⟩
      exact (hl₁ y hy p hp).mono (.refl s₁ label₁) hkeeps.isOpen
    | some next =>
      rw [hnext, Option.getD_some] at hc hid
      obtain ⟨label₂, hl₂, h₂⟩ := h₁.put_of_changes (hl₁ x hx) hc hserve hid
      refine ⟨⟨label₂, h₂, fun y hy p hp => ?_⟩, hkeeps₁.trans hkeeps⟩
      exact (hl₁ y hy p hp).mono hl₂ hkeeps.isOpen
  obtain ⟨⟨label', h', -⟩, hkeeps⟩ := hloop
  exact ⟨⟨label', h'⟩, hkeeps⟩

end Owned

end DealPacing
