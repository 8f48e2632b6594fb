import DealPacing.Proofs.Engine.Lasting
import DealPacing.Proofs.Registry.Entries

/-!
# Moving on to the next plan

Line items move on together. One whose plan covers the instant stays as it is, whatever its record
says by now. Any other one takes up the first schedule of its record that covers the instant, or is
left without a plan if there is none. After that the plans and the records are settled: to move on
once more at the same instant finds nothing to do, so that a plan is never carried on twice.

## Main definitions

* `LineItem.Succeeds`: what a line item moves on to
* `LineItem.Settled`: line items that have nothing to move on to

## Main results

* `LineItem.succeeds_advance?`: a line item moves on to what succeeds it
* `LineItem.Settled.run_advance?`: a settled line item stays as it is
* `Registry.Keyed.exists_advanced`: every line item of a registry moves on by itself
* `Engine.advance_exact`: what moving on does along every run, and that it is done once
-/

namespace DealPacing

open LineItem (dueAt)

/-! ## Line items -/

namespace LineItem

/-- A line item without a plan is never due. -/
def Dormant (x : LineItem) : Prop := x.plan = none → x.readyAt = none

/-- What a line item moves on to. It stays as it is while its plan covers the instant. After that
the first schedule of its record that covers the instant becomes its plan, and the next serve is due
at once; without such a schedule there is no plan. -/
structure Succeeds (now : Instant) (x next : LineItem) : Prop where
  record_eq : next.record = x.record
  cpm_eq : next.cpm = x.cpm
  targeting_eq : next.targeting = x.targeting
  kept : x.isActiveAt now = true → next = x
  started : x.isActiveAt now = false → ∀ y, x.record.scheduleAt? now = some y →
    ∃ p, next.plan = some p ∧ p.id = y.planId ∧ p.start = y.start ∧ p.finish = y.finish ∧
      next.readyAt = some (dueAt now)
  ended : x.isActiveAt now = false → x.record.scheduleAt? now = none →
    next.plan = none ∧ next.readyAt = none

/-- The line item has nothing to move on to: its plan covers the instant, or neither a plan nor a
schedule does. -/
def Settled (now : Instant) (x : LineItem) : Prop :=
  x.isActiveAt now = true ∨ x.plan = none ∧ x.record.scheduleAt? now = none

variable {x : LineItem} {now : Instant} {responds : Bool} {s : Spending}

theorem isActiveAt_of_some {p : Plan} (hp : x.plan = some p) : x.isActiveAt now = p.covers now := by
  rw [isActiveAt, hp]

theorem run_advance?_of_active (h : x.isActiveAt now = true) :
    (x.advance? now responds).run s = (none, s) := by
  rw [advance?, if_pos h]
  rfl

theorem run_advance?_of_not_active (h : x.isActiveAt now = false) :
    (x.advance? now responds).run s =
      (match ((x.nextPlan now responds).run s).1, x.plan with
        | none, none => none
        | none, some _ => some { x with plan := none, readyAt := none }
        | some plan, _ => some { x with plan := some plan, readyAt := some (dueAt now) },
        ((x.nextPlan now responds).run s).2) := by
  have hover : ¬ x.isActiveAt now = true := by rw [h]; exact Bool.false_ne_true
  rw [advance?, if_neg hover, run_bind_eq]
  cases ((x.nextPlan now responds).run s).1 <;> cases x.plan <;> rfl

theorem run_nextPlan_of_none (h : x.record.scheduleAt? now = none) :
    (x.nextPlan now responds).run s = (none, s) := by
  rw [nextPlan, h]
  rfl

/-- The next plan is that of the schedule, whether it carries on the one before or not. -/
theorem exists_nextPlan {y : Schedule} (h : x.record.scheduleAt? now = some y) (responds : Bool)
    (s : Spending) : ∃ p, ((x.nextPlan now responds).run s).1 = some p ∧ p.id = y.planId ∧
      p.start = y.start ∧ p.finish = y.finish := by
  rw [nextPlan, h]
  cases x.plan with
  | none => exact ⟨((Plan.ofSchedule y).run s).1, rfl, rfl, rfl, rfl⟩
  | some previous =>
    cases responds with
    | true => exact ⟨((Plan.ofSchedule y).run s).1, rfl, rfl, rfl, rfl⟩
    | false => exact ⟨((previous.carriedInto y).run s).1, rfl, rfl, rfl, rfl⟩

/-- A line item moves on to what succeeds it. -/
theorem succeeds_advance? (hx : x.Dormant) (now : Instant) (responds : Bool) (s : Spending) :
    x.Succeeds now (((x.advance? now responds).run s).1.getD x) := by
  cases hactive : x.isActiveAt now with
  | true =>
    rw [run_advance?_of_active hactive]
    exact ⟨rfl, rfl, rfl, fun _ => rfl, by simp [hactive], by simp [hactive]⟩
  | false =>
    rw [run_advance?_of_not_active hactive]
    cases hnext : x.record.scheduleAt? now with
    | none =>
      rw [run_nextPlan_of_none hnext]
      cases hp : x.plan with
      | none =>
        -- the line item is left alone: it had no plan, and so was not due
        exact ⟨rfl, rfl, rfl, fun _ => rfl, by simp [hnext], fun _ _ => ⟨hp, hx hp⟩⟩
      | some p => exact ⟨rfl, rfl, rfl, by simp [hactive], by simp [hnext], fun _ _ => ⟨rfl, rfl⟩⟩
    | some y =>
      obtain ⟨p, hp, hid, hstart, hfinish⟩ := exists_nextPlan hnext responds s
      rw [hp]
      refine ⟨rfl, rfl, rfl, by simp [hactive], fun _ z hz => ?_, by simp [hnext]⟩
      obtain rfl := Option.some.inj (hnext.symm.trans hz)
      exact ⟨p, rfl, hid, hstart, hfinish, rfl⟩

/-- A line item whose plan is over has a plan again if and only if a schedule of its record covers
the instant. -/
theorem Succeeds.isSome_plan_iff {next : LineItem} (h : x.Succeeds now next)
    (hactive : x.isActiveAt now = false) :
    next.plan.isSome ↔ ∃ y ∈ x.record.schedules, y.covers now = true := by
  rw [← List.find?_isSome]
  change _ ↔ (x.record.scheduleAt? now).isSome = true
  cases hnext : x.record.scheduleAt? now with
  | none => simp [(h.ended hactive hnext).1]
  | some y =>
    obtain ⟨p, hp, -⟩ := h.started hactive y hnext
    rw [hp]
    rfl

/-- What succeeds a line item is settled. -/
theorem Succeeds.settled {next : LineItem} (h : x.Succeeds now next) : next.Settled now := by
  cases hactive : x.isActiveAt now with
  | true =>
    obtain rfl := h.kept hactive
    exact .inl hactive
  | false =>
    cases hnext : x.record.scheduleAt? now with
    | none =>
      refine .inr ⟨(h.ended hactive hnext).1, ?_⟩
      rw [h.record_eq, hnext]
    | some y =>
      -- the plan has the window of the schedule, which was chosen because it covers the instant
      obtain ⟨p, hp, -, hstart, hfinish, -⟩ := h.started hactive y hnext
      refine .inl ?_
      rw [isActiveAt_of_some hp, Plan.covers, hstart, hfinish]
      exact covers_of_scheduleAt? hnext

/-- The active plan of a settled line item covers the instant. -/
theorem Settled.covers (h : x.Settled now) {p : Plan} (hp : x.plan = some p) : p.covers now := by
  rcases h with hactive | ⟨hnone, -⟩
  · rwa [isActiveAt_of_some hp] at hactive
  · rw [hp] at hnone
    cases hnone

/-- A settled line item stays as it is, whether the planner responds or not. -/
theorem Settled.run_advance? (h : x.Settled now) (responds : Bool) (s : Spending) :
    (x.advance? now responds).run s = (none, s) := by
  rcases h with hactive | ⟨hplan, hnext⟩
  · exact run_advance?_of_active hactive
  · have hactive : x.isActiveAt now = false := by rw [isActiveAt, hplan]
    rw [run_advance?_of_not_active hactive, run_nextPlan_of_none hnext, hplan]

end LineItem

theorem Pacing.Changes.dormant {b b' : Pacing} {s s' : Spending} {change : Change}
    (h : b.Changes s change b' s') (hb : b.plan = Option.none → b.readyAt = Option.none) :
    b'.plan = Option.none → b'.readyAt = Option.none := by
  cases h with
  | kept => exact hb
  | ended => exact fun _ => rfl
  | _ => exact fun hnone => nomatch hnone

/-- A line item without a plan is never due, whatever happens to it. -/
theorem LineItem.lasting_dormant : Lasting (fun _ => True) Dormant where
  register cpm targeting now s _ :=
    (changes_register _ cpm targeting now s).dormant fun _ => rfl
  act s hx _ := (changes_act _ _ s).dormant hx

/-! ## Registries -/

namespace Registry

variable {r : Registry}

/-- A round of the loop does not touch the line items with other ids. -/
theorem get?_advanceOne_of_ne (now : Instant) (sofar : Registry × List Event) (x : LineItem)
    (s : Spending) (id : String) (hid : id ≠ x.id) :
    ((advanceOne now sofar x).run s).1.1.get? id = sofar.1.get? id := by
  have hnext := x.id_advance? now sofar.1.plannerResponds s
  rw [(run_advanceOne now sofar x s).1]
  cases hadvanced : ((x.advance? now sofar.1.plannerResponds).run s).1 with
  | none => rfl
  | some next =>
    rw [hadvanced, Option.getD_some] at hnext
    exact (get?_put _ next id).trans (if_neg fun e => hid (e.symm.trans hnext))

/-- Every line item of a registry moves on by itself, while the others only open counters. -/
theorem Keyed.exists_advanced (h : r.Keyed) (now : Instant) (s : Spending) {id : String}
    {x : LineItem} (hx : r.get? id = some x) : ∃ responds s₁, s.Keeps s₁ ∧
      ((x.advance? now responds).run s₁).2.Keeps ((r.advance now).run s).2 ∧
      ((r.advance now).run s).1.1.get? id =
        some (((x.advance? now responds).run s₁).1.getD x) := by
  obtain rfl := h.id_eq hx
  have hkeeps (sofar : Registry × List Event) (y : LineItem) (s' : Spending) :
      s'.Keeps ((advanceOne now sofar y).run s').2 := by
    rw [(run_advanceOne now sofar y s').2]
    exact (y.changes_advance now sofar.1.plannerResponds s').keeps
      (y.serve?_change (.advance now sofar.1.plannerResponds) s')
  -- the round of the line item finds it as it was, and no later round writes under its id
  obtain ⟨sofar, s₁, hfound, hbefore, hafter, hresult⟩ :=
    exists_round_of_mem (g := fun (sofar : Registry × List Event) id => sofar.1.get? id) (.refl)
      .trans hkeeps (get?_advanceOne_of_ne now) h.nodup_ids (h.mem_toList_iff.mpr hx) (r, []) s
  obtain ⟨hregistry, hstore⟩ := run_advanceOne now sofar x s₁
  refine ⟨sofar.1.plannerResponds, s₁, hbefore, hstore ▸ hafter, hresult.trans ?_⟩
  have hid := x.id_advance? now sofar.1.plannerResponds s₁
  rw [hregistry]
  cases hnext : ((x.advance? now sofar.1.plannerResponds).run s₁).1 with
  | none => exact hfound.trans hx
  | some next =>
    rw [hnext, Option.getD_some] at hid
    exact (get?_put sofar.1 next x.id).trans (if_pos hid)

theorem Keyed.get?_advance_of_none (h : r.Keyed) (now : Instant) (s : Spending) {id : String}
    (hid : r.get? id = none) : ((r.advance now).run s).1.1.get? id = none := by
  have hnot : id ∉ r.toList.map (·.id) := by
    intro hmem
    obtain ⟨x, hx, rfl⟩ := List.mem_map.mp hmem
    rw [h.get?_of_mem_toList hx] at hid
    cases hid
  exact (run_foldlM_of_not_mem (g := fun (sofar : Registry × List Event) id => sofar.1.get? id)
    (get?_advanceOne_of_ne now) hnot (r, []) s).trans hid

/-- A registry in which everything is settled stays as it is. -/
theorem run_advance_of_settled {now : Instant} (h : r.All (·.Settled now)) (s : Spending) :
    (r.advance now).run s = ((r, []), s) := by
  refine run_foldlM_eq_self fun x hx => ?_
  rw [advanceOne, run_bind_eq, (h.of_mem_toList hx).run_advance?]
  rfl

end Registry

/-! ## Runs -/

namespace Engine

theorem Move.brings_true (m : Move) : m.Brings fun _ => True := by
  cases m with
  | update records plannerResponds now => exact fun _ _ => trivial
  | _ => trivial

/-- What moving on does to a line item of a run. -/
theorem exists_succeeds (c : Config) (start now : Instant) (moves : List Move) {id : String}
    {x : LineItem} (hx : (run c start moves).registry.get? id = some x) :
    ∃ next, ((run c start moves).advance now).1.registry.get? id = some next ∧
      x.Succeeds now next ∧ (x.isActiveAt now = true →
        x.value ((run c start moves).advance now).1.spending =
          x.value (run c start moves).spending) := by
  obtain ⟨label, howned⟩ := sound_run c start moves
  have hdormant : x.Dormant :=
    (all_run LineItem.lasting_dormant c start fun m _ => m.brings_true).of_get? hx
  obtain ⟨responds, s₁, hbefore, hafter, hget⟩ := howned.keyed.exists_advanced now _ hx
  refine ⟨_, hget, x.succeeds_advance? hdormant now responds s₁, fun hactive => ?_⟩
  rw [LineItem.run_advance?_of_active hactive] at hafter
  exact LineItem.value_eq_of_keeps (hbefore.trans hafter) (howned.isOpen_item hx)

/-- Moving on loses and adds no line item. -/
theorem get?_advance_eq_none_iff (c : Config) (start now : Instant) (moves : List Move)
    (id : String) : ((run c start moves).advance now).1.registry.get? id = none ↔
      (run c start moves).registry.get? id = none := by
  obtain ⟨label, howned⟩ := sound_run c start moves
  constructor
  · intro hnone
    cases hx : (run c start moves).registry.get? id with
    | none => rfl
    | some x =>
      obtain ⟨next, hnext, -, -⟩ := exists_succeeds c start now moves hx
      rw [hnext] at hnone
      cases hnone
  · exact howned.keyed.get?_advance_of_none now _

/-- After moving on everything is settled. -/
theorem all_settled_advance (c : Config) (start now : Instant) (moves : List Move) :
    ((run c start moves).advance now).1.registry.All (·.Settled now) := by
  refine ⟨fun {id next} hnext => ?_⟩
  cases hx : (run c start moves).registry.get? id with
  | none =>
    rw [(get?_advance_eq_none_iff c start now moves id).mpr hx] at hnext
    cases hnext
  | some x =>
    obtain ⟨next', hnext', hsucceeds, -⟩ := exists_succeeds c start now moves hx
    obtain rfl := Option.some.inj (hnext.symm.trans hnext')
    exact hsucceeds.settled

/-- **Moving on is exact, and done once.** In every engine that a run leads to, each line item moves
on to what succeeds it, and none is lost or added: one whose plan covers the instant keeps its plan,
its spend and its next serve, and any other one has a plan if and only if a schedule of its record
covers the instant. So every active plan covers the instant, and to move on once more at the same
instant changes and reports nothing, whether the planner responds or not. -/
theorem advance_exact (c : Config) (start now : Instant) (moves : List Move) :
    let e := run c start moves
    let advanced := (e.advance now).1
    (∀ id, advanced.registry.get? id = none ↔ e.registry.get? id = none) ∧
    (∀ id x next, e.registry.get? id = some x → advanced.registry.get? id = some next →
      x.Succeeds now next ∧
      (x.isActiveAt now = true → next.value advanced.spending = x.value e.spending) ∧
      (x.isActiveAt now = false →
        (next.plan.isSome ↔ ∃ y ∈ x.record.schedules, y.covers now = true))) ∧
    (∀ id next p, advanced.registry.get? id = some next → next.plan = some p →
      p.covers now = true) ∧
    ∀ responds, (advanced.setPlannerResponds responds).advance now =
      (advanced.setPlannerResponds responds, []) := by
  intro e advanced
  have hsettled : advanced.registry.All (·.Settled now) := all_settled_advance c start now moves
  refine ⟨get?_advance_eq_none_iff c start now moves, ?_, ?_, ?_⟩
  · intro id x next hx hnext
    obtain ⟨next', hnext', hsucceeds, hvalue⟩ := exists_succeeds c start now moves hx
    obtain rfl := Option.some.inj (hnext.symm.trans hnext')
    refine ⟨hsucceeds, fun hactive => ?_, hsucceeds.isSome_plan_iff⟩
    rw [hsucceeds.kept hactive]
    exact hvalue hactive
  · intro id next p hnext hp
    exact (hsettled.of_get? hnext).covers hp
  · intro responds
    -- whether the planner responds is no matter for settled line items
    have hagain : (advanced.setPlannerResponds responds).registry.All (·.Settled now) :=
      ⟨hsettled.of_get?⟩
    rw [advance, Registry.run_advance_of_settled hagain]

end Engine

end DealPacing
