import DealPacing.Delivery.LineItem
import DealPacing.Proofs.Delivery.Plans

/-!
# Histories of a line item

Whatever happens to a line item changes its pacing state in one of six ways: it stays, a plan starts
afresh, a plan starts that carries on the one before, the active plan takes a newer revision of its
schedule, a serve is taken, or the plan ends. The changes of a history are written down in order, so
that statements about histories are statements about lists of changes.

## Main definitions

* `LineItem.Act`, `LineItem.act`: what can happen to a line item
* `Change`, `Pacing.Changes`: what becomes of the pacing state
* `History`: the line items that acts lead to, with their changes

## Main results

* `LineItem.changes_act`, `LineItem.serve?_change`: every act is one of the changes, which tells
  the serve that it takes
* `History.paced`: a history is a sequence of changes
* `Pacing.Changes.exists_label`: counters of different classes stay apart
-/

namespace DealPacing

/-- The pacing state of a line item. -/
structure Pacing where
  plan : Option Plan
  readyAt : Option Instant

/-- The pacing state without a plan. -/
def Pacing.none : Pacing := ⟨Option.none, Option.none⟩

theorem Pacing.forall_plan {P : Plan → Prop} {p : Plan} {readyAt : Option Instant} :
    (∀ q, (⟨some p, readyAt⟩ : Pacing).plan = some q → P q) ↔ P p := by simp

theorem Pacing.forall_plan_none (P : Plan → Prop) : ∀ q, none.plan = some q → P q := by
  simp [none]

/-- The pacing state of a line item. -/
def LineItem.pacing (x : LineItem) : Pacing := ⟨x.plan, x.readyAt⟩

/-- What becomes of the pacing state of a line item. -/
inductive Change where
  /-- Nothing changes. -/
  | kept
  /-- The plan of a schedule starts with nothing spent. -/
  | activated (x : Schedule) (now : Instant)
  /-- The plan of a schedule starts, and carries on the plan before. -/
  | carriedOn (x : Schedule) (now : Instant)
  /-- The active plan takes a newer revision of its schedule. -/
  | revised (x : Schedule)
  /-- A serve of a class is taken. -/
  | served (priorityClass : Int)
  /-- The active plan ends without a successor. -/
  | ended

/-- The schedule that a change brings in. -/
def Change.schedule? : Change → Option Schedule
  | .activated x _ => some x
  | .carriedOn x _ => some x
  | .revised x => some x
  | _ => none

/-- The class of the serve that a change takes. -/
def Change.serve? : Change → Option Int
  | .served c => some c
  | _ => none

namespace LineItem

/-- What can happen to a registered line item. -/
inductive Act where
  | spend
  | refresh (record : LineItemRecord) (cpm : Option Float)
      (targeting : Option Targeting.Expression) (now : Instant)
  | advance (now : Instant) (plannerResponds : Bool)

/-- The line item after an act, and the serve that was taken. -/
def act (x : LineItem) : Act → StateM Spending (LineItem × Option TokenSpend)
  | .spend => x.spend
  | .refresh record cpm targeting now => do
    return (← x.refreshed record cpm targeting now, none)
  | .advance now plannerResponds => do
    return ((← x.advance? now plannerResponds).getD x, none)

/-- The change that a registration is. -/
def opening (record : LineItemRecord) (now : Instant) : Change :=
  match record.scheduleAt? now with
  | some y => .activated y now
  | none => .kept

/-- The change that taking a serve is. -/
def spendChange (x : LineItem) (s : Spending) : Change :=
  match x.highestUnspentClass s with
  | some c => .served c
  | none => .kept

/-- The change that a new record is. -/
def refreshChange (x : LineItem) (record : LineItemRecord) (now : Instant) : Change :=
  match record.scheduleAt? now, x.plan with
  | none, _ => .ended
  | some y, none => .activated y now
  | some y, some p =>
    if p.id = y.planId then if p.updated < y.updated then .revised y else .kept
    else .activated y now

/-- The change that moving on is. -/
def advanceChange (x : LineItem) (now : Instant) (plannerResponds : Bool) : Change :=
  if x.isActiveAt now then .kept
  else
    match x.record.scheduleAt? now, x.plan with
    | none, none => .kept
    | none, some _ => .ended
    | some y, none => .activated y now
    | some y, some _ => if plannerResponds then .activated y now else .carriedOn y now

/-- The change that an act is. -/
def change (x : LineItem) (s : Spending) : Act → Change
  | .spend => x.spendChange s
  | .refresh record _ _ now => x.refreshChange record now
  | .advance now plannerResponds => x.advanceChange now plannerResponds

end LineItem

open LineItem (dueAt)

/-- What a change does to the pacing state and the counters. -/
inductive Pacing.Changes (b : Pacing) (s : Spending) : Change → Pacing → Spending → Prop
  | kept : Changes b s .kept b s
  | activated {x : Schedule} {now : Instant} (hx : x.covers now) :
    Changes b s (.activated x now) ⟨some ((Plan.ofSchedule x).run s).1, some (dueAt now)⟩
      ((Plan.ofSchedule x).run s).2
  | carriedOn {x : Schedule} {now : Instant} {p : Plan} (hp : b.plan = some p)
    (hx : x.covers now) :
    Changes b s (.carriedOn x now) ⟨some ((p.carriedInto x).run s).1, some (dueAt now)⟩
      ((p.carriedInto x).run s).2
  | revised {x : Schedule} {p : Plan} {now : Instant} (hp : b.plan = some p)
    (hid : x.planId = p.id) (hnewer : p.updated < x.updated) (hx : x.covers now) :
    Changes b s (.revised x)
      ⟨some ((p.withUpdatedSchedule x).run s).1,
        (((p.withUpdatedSchedule x).run s).1.readyAt? ((p.withUpdatedSchedule x).run s).2).map
          dueAt⟩
      ((p.withUpdatedSchedule x).run s).2
  | served {p : Plan} {t : Token} (hp : b.plan = some p) (ht : p.unspentToken? s = some t) :
    Changes b s (.served t.priorityClass)
      ⟨some p, (p.readyAt? (s.raised t.counter 1)).map dueAt⟩ (s.raised t.counter 1)
  | ended : Changes b s .ended .none s

theorem covers_of_scheduleAt? {record : LineItemRecord} {now : Instant} {x : Schedule}
    (h : record.scheduleAt? now = some x) : x.covers now := by
  simpa using List.find?_some h

namespace LineItem

theorem run_register_of_some {record : LineItemRecord} {now : Instant} {y : Schedule}
    (hy : record.scheduleAt? now = some y) (cpm : Option Float)
    (targeting : Option Targeting.Expression) (s : Spending) :
    (register record cpm targeting now).run s =
      (⟨record, cpm, targeting, some ((Plan.ofSchedule y).run s).1, some (dueAt now)⟩,
        ((Plan.ofSchedule y).run s).2) := by
  unfold register
  rw [hy]
  rfl

/-- A registration starts from nothing. -/
theorem changes_register (record : LineItemRecord) (cpm : Option Float)
    (targeting : Option Targeting.Expression) (now : Instant) (s : Spending) :
    Pacing.none.Changes s (opening record now) ((register record cpm targeting now).run s).1.pacing
      ((register record cpm targeting now).run s).2 := by
  unfold register opening
  cases h : record.scheduleAt? now with
  | none => exact .kept
  | some y => exact .activated (covers_of_scheduleAt? h)

theorem run_spend_of_none {x : LineItem} (hp : x.plan = none) (s : Spending) :
    x.spend.run s = ((x, none), s) := by
  unfold spend
  rw [hp]
  rfl

theorem run_spend_of_some {x : LineItem} {p : Plan} (hp : x.plan = some p) (s : Spending) :
    x.spend.run s =
      match p.unspentToken? s with
      | some t =>
        (({ x with readyAt := (p.readyAt? (s.raised t.counter 1)).map dueAt },
          some ⟨p.id, t.priorityClass⟩), s.raised t.counter 1)
      | none => ((x, none), s) := by
  have hspend := p.run_spend s
  unfold spend
  simp only [hp]
  rw [StateT.run_bind, hspend]
  cases p.unspentToken? s <;> rfl

theorem changes_spend (x : LineItem) (s : Spending) :
    x.pacing.Changes s (x.spendChange s) (x.spend.run s).1.1.pacing (x.spend.run s).2 := by
  unfold spendChange highestUnspentClass Plan.highestUnspentClass
  cases hp : x.plan with
  | none =>
    rw [run_spend_of_none hp]
    exact .kept
  | some p =>
    rw [run_spend_of_some hp]
    cases ht : p.unspentToken? s with
    | none =>
      simp only [Option.bind_some, ht, Option.map_none]
      exact .kept
    | some t =>
      simp only [Option.bind_some, ht, Option.map_some]
      exact hp ▸ .served hp ht

theorem run_refreshed_of_newer {x : LineItem} {record : LineItemRecord} {now : Instant}
    {y : Schedule} {p : Plan} (hy : record.scheduleAt? now = some y) (hp : x.plan = some p)
    (hupdated : p.isUpdatedBy y = true) (cpm : Option Float)
    (targeting : Option Targeting.Expression) (s : Spending) :
    (x.refreshed record cpm targeting now).run s =
      let q := (p.withUpdatedSchedule y).run s
      (⟨record, cpm, targeting, some q.1, (q.1.readyAt? q.2).map dueAt⟩, q.2) := by
  have hid : p.id = y.planId := by
    rw [Plan.isUpdatedBy, Bool.and_eq_true, beq_iff_eq] at hupdated
    exact hupdated.1.symm
  unfold refreshed refreshedPlan
  simp only [hy, hp, if_pos hid, if_pos hupdated]
  rfl

theorem changes_refreshed (x : LineItem) (record : LineItemRecord) (cpm : Option Float)
    (targeting : Option Targeting.Expression) (now : Instant) (s : Spending) :
    x.pacing.Changes s (x.refreshChange record now)
      ((x.refreshed record cpm targeting now).run s).1.pacing
      ((x.refreshed record cpm targeting now).run s).2 := by
  -- only the plan and the next serve matter, which are worked out together
  change x.pacing.Changes s (x.refreshChange record now)
    ⟨((x.refreshedPlan record now).run s).1.1, ((x.refreshedPlan record now).run s).1.2⟩
    ((x.refreshedPlan record now).run s).2
  unfold refreshChange refreshedPlan
  cases h : record.scheduleAt? now with
  | none => exact .ended
  | some y =>
    have hy := covers_of_scheduleAt? h
    cases hp : x.plan with
    | none => exact .activated hy
    | some p =>
      by_cases hid : p.id = y.planId
      · by_cases hnewer : p.updated < y.updated
        · have hupdated : p.isUpdatedBy y = true := by simp [Plan.isUpdatedBy, hid, hnewer]
          simp only [if_pos hid, if_pos hnewer, if_pos hupdated]
          exact .revised hp hid.symm hnewer hy
        · have hupdated : ¬ p.isUpdatedBy y = true := by simp [Plan.isUpdatedBy, hnewer]
          have hkept : x.pacing = ⟨some p, x.readyAt⟩ := by rw [pacing, hp]
          simp only [if_pos hid, if_neg hnewer, if_neg hupdated, hkept]
          exact .kept
      · simp only [if_neg hid]
        exact .activated hy

theorem changes_advance (x : LineItem) (now : Instant) (responds : Bool) (s : Spending) :
    x.pacing.Changes s (x.advanceChange now responds)
      (((x.advance? now responds).run s).1.getD x).pacing
      ((x.advance? now responds).run s).2 := by
  unfold advanceChange advance?
  by_cases hactive : x.isActiveAt now
  · simp only [hactive, if_true]
    exact .kept
  · simp only [hactive]
    unfold nextPlan
    cases h : x.record.scheduleAt? now with
    | none =>
      cases hp : x.plan with
      | none => exact .kept
      | some p => exact .ended
    | some y =>
      have hy := covers_of_scheduleAt? h
      cases hp : x.plan with
      | none => exact .activated hy
      | some p =>
        cases responds with
        | true => exact .activated hy
        | false => exact .carriedOn hp hy

/-- Every act is one of the changes. -/
theorem changes_act (x : LineItem) (a : Act) (s : Spending) :
    x.pacing.Changes s (x.change s a) ((x.act a).run s).1.1.pacing ((x.act a).run s).2 := by
  cases a with
  | spend => exact x.changes_spend s
  | refresh record cpm targeting now => exact x.changes_refreshed record cpm targeting now s
  | advance now plannerResponds => exact x.changes_advance now plannerResponds s

/-- The change tells which serve an act takes. -/
theorem serve?_change (x : LineItem) (a : Act) (s : Spending) :
    (x.change s a).serve? = ((x.act a).run s).1.2.map (·.priorityClass) := by
  cases a with
  | spend =>
    simp only [change, act, spendChange, highestUnspentClass, Plan.highestUnspentClass]
    cases hp : x.plan with
    | none =>
      rw [run_spend_of_none hp]
      rfl
    | some p =>
      rw [run_spend_of_some hp]
      cases ht : p.unspentToken? s <;> simp [ht, Change.serve?]
  | refresh record cpm targeting now =>
    have hserve : (x.refreshChange record now).serve? = none := by
      unfold refreshChange
      split <;> try rfl
      split_ifs <;> rfl
    exact hserve
  | advance now plannerResponds =>
    have hserve : (x.advanceChange now plannerResponds).serve? = none := by
      unfold advanceChange
      cases x.isActiveAt now <;> cases x.record.scheduleAt? now <;> cases x.plan <;>
        cases plannerResponds <;> rfl
    exact hserve

end LineItem

/-- A line item that was registered and went through acts, the store of counters it left, and the
changes that it went through. -/
inductive History : LineItem → Spending → List Change → Prop
  | registered (record : LineItemRecord) (cpm : Option Float)
    (targeting : Option Targeting.Expression) (now : Instant) (s : Spending) :
    History ((LineItem.register record cpm targeting now).run s).1
      ((LineItem.register record cpm targeting now).run s).2 [LineItem.opening record now]
  | acted {x : LineItem} {s : Spending} {changes : List Change} (h : History x s changes)
    (a : LineItem.Act) :
    History ((x.act a).run s).1.1 ((x.act a).run s).2 (changes ++ [x.change s a])

/-- A pacing state that changes led to. -/
inductive Pacing.Reached : List Change → Pacing → Spending → Prop
  | start (s : Spending) : Reached [] .none s
  | changed {changes : List Change} {b b' : Pacing} {s s' : Spending} {change : Change}
    (h : Reached changes b s) (hc : b.Changes s change b' s') : Reached (changes ++ [change]) b' s'

/-- A history is a sequence of changes. -/
theorem History.reached {x : LineItem} {s : Spending} {changes : List Change}
    (h : History x s changes) : Pacing.Reached changes x.pacing s := by
  induction h with
  | registered record cpm targeting now s =>
    exact .changed (.start s) (LineItem.changes_register record cpm targeting now s)
  | acted _ a ih => exact .changed ih (LineItem.changes_act _ a _)

/-- The tokens of the active plan count in counters that are labelled by their classes. -/
def Pacing.LabelledBy {κ : Type} (label : Counter → κ) (kind : Int → κ) (s : Spending)
    (b : Pacing) : Prop :=
  ∀ p, b.plan = some p → Labelled label kind s p.tokens

/-- Only serves move counters. -/
theorem Pacing.Changes.keeps {b b' : Pacing} {s s' : Spending} {change : Change}
    (h : b.Changes s change b' s') (hserve : change.serve? = Option.none) : s.Keeps s' := by
  cases h with
  | kept => exact .refl s
  | activated hx => exact Plan.keeps_ofSchedule _ s
  | carriedOn hp hx => exact Plan.keeps_carriedInto _ _ s
  | revised hp hid hnewer hx => exact Plan.keeps_withUpdatedSchedule _ _ s
  | served hp ht => cases hserve
  | ended => exact .refl s

/-- A change never mixes up the counters of different classes. -/
theorem Pacing.Changes.exists_label {κ : Type} {b b' : Pacing} {s s' : Spending} {change : Change}
    (h : b.Changes s change b' s') {label : Counter → κ} {kind : Int → κ}
    (hb : b.LabelledBy label kind s) :
    ∃ label', Relabels s label label' ∧ b'.LabelledBy label' kind s' := by
  cases h with
  | kept => exact ⟨label, .refl s label, hb⟩
  | activated hx =>
    have hnil : Labelled label kind s [] := by simp [Labelled]
    obtain ⟨label', hl, hp⟩ := (Plan.ofSchedule_continues _ s).exists_label hnil
    exact ⟨label', hl, forall_plan.mpr hp⟩
  | carriedOn hp hx =>
    obtain ⟨label', hl, hp'⟩ :=
      (Plan.carriedInto_continues (Plan.isOpen_of_labelled (hb _ hp)) _).exists_label (hb _ hp)
    exact ⟨label', hl, forall_plan.mpr hp'⟩
  | revised hp hid hnewer hx =>
    obtain ⟨label', hl, hp'⟩ :=
      (Plan.withUpdatedSchedule_continues (Plan.isOpen_of_labelled (hb _ hp)) _).exists_label
        (hb _ hp)
    exact ⟨label', hl, forall_plan.mpr hp'⟩
  | served hp ht =>
    refine ⟨label, .refl s label, forall_plan.mpr ?_⟩
    exact (hb _ hp).mono (.refl s label) (Spending.isOpen_raised s _ _ 1).mpr
  | ended => exact ⟨label, .refl s label, forall_plan_none _⟩

/-! ## A line item of two hours -/

/-- The start of an hour. -/
def hour (n : Int) : Instant := .ofMillis (3600000 * n)

/-- A line item with a plan for each of the first two hours. -/
def twoHours (first second : List Allotment) (updated : Instant) : LineItemRecord where
  lineItemId := "lineItem"
  extLineItemId := none
  dealId := none
  sizes := []
  accountId := "account"
  source := "bidder"
  price := none
  relativePriority := none
  start := hour 0
  finish := hour 2
  updated := none
  status := "active"
  frequencyCaps := []
  schedules :=
    [⟨"first", hour 0, hour 1, updated, first⟩, ⟨"second", hour 1, hour 2, updated, second⟩]
  targeting := none

end DealPacing
