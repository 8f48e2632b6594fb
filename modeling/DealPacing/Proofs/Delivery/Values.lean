import DealPacing.Proofs.Delivery.Histories
import DealPacing.Proofs.Delivery.WordSums

/-!
# Plans and line items as values

The names of counters are no part of what a line item shows: two stores may count the same serves
under different names. As a value, a plan is its schedule together with the serves that its counters
show. What a new record makes of a line item is a function of its value, in which no counter occurs.

## Main definitions

* `PlanValue`, `Plan.value`: plans as values
* `PacingValue`, `Pacing.value`: pacing states as values
* `PacingValue.refreshed`: the pacing state under a new record
* `LineItemValue`, `LineItem.value`: line items as values

## Main results

* `Plan.readyAt?_eq_of_value_eq`: the next serve depends on the value only
* `LineItem.value_refreshedPlan`, `LineItem.value_register`: what records make of line items
-/

namespace DealPacing

/-- A delivery plan as a value. -/
structure PlanValue where
  id : String
  start : Instant
  finish : Instant
  updated : Instant
  balances : List Balance
deriving DecidableEq

/-- The plan with the serves that its counters show. -/
def Plan.value (p : Plan) (s : Spending) : PlanValue :=
  ⟨p.id, p.start, p.finish, p.updated, p.balances s⟩

namespace PlanValue

/-- The plan of a schedule, with nothing spent. -/
def ofSchedule (x : Schedule) : PlanValue :=
  ⟨x.planId, x.start, x.finish, x.updated, Plan.openingBalances x⟩

/-- The serves spent in a class. -/
def spentInClass (v : PlanValue) (c : Int) : Nat :=
  ((v.balances.find? (·.priorityClass == c)).map (·.spent)).getD 0

/-- The revision of the plan by a schedule: its classes keep what was spent in them. -/
def revised (v : PlanValue) (x : Schedule) : PlanValue :=
  { ofSchedule x with
    balances := (Plan.openingBalances x).map fun b =>
      { b with spent := v.spentInClass b.priorityClass } }

/-- The plan with new counters that show the value. -/
def realized (v : PlanValue) : StateM Spending Plan := do
  return ⟨v.id, v.start, v.finish, v.updated, ← Token.ofBalances v.balances⟩

/-- The earliest instant of the next serve, if a serve is left. -/
def readyAt? (v : PlanValue) : Option Instant :=
  let (p, s) := v.realized.run .empty
  p.readyAt? s

end PlanValue

/-! ## What a plan answers depends on its value -/

/-- The serves that balances show as spent. -/
def sumSpent (bs : List Balance) : Nat := (bs.map (·.spent)).sum

namespace Plan

theorem grantedSum_eq (p : Plan) (s : Spending) :
    p.grantedSum = ((p.balances s).map (·.total)).sum := by
  rw [grantedSum, balances, List.map_map]
  rfl

theorem spentSum_eq (p : Plan) (s : Spending) : p.spentSum s = sumSpent (p.balances s) := by
  rw [spentSum, sumSpent, balances, List.map_map]
  rfl

theorem leftSum_eq (p : Plan) (s : Spending) :
    p.leftSum s = ((p.balances s).map (·.unspent)).sum := by
  rw [leftSum, balances, List.map_map]
  rfl

theorem spentTokens_eq_of_balances_eq {p q : Plan} {s s' : Spending}
    (h : p.balances s = q.balances s') : p.spentTokens s = q.spentTokens s' := by
  rw [spentTokens_eq, spentTokens_eq, spentSum_eq, spentSum_eq, h]

theorem unspentTokens_eq_of_balances_eq {p q : Plan} {s s' : Spending}
    (h : p.balances s = q.balances s') : p.unspentTokens s = q.unspentTokens s' := by
  rw [unspentTokens_eq, unspentTokens_eq, leftSum_eq, leftSum_eq, h]

theorem readyAt?_eq_of_value_eq {p q : Plan} {s s' : Spending} (h : p.value s = q.value s') :
    p.readyAt? s = q.readyAt? s' := by
  obtain ⟨-, hstart, hfinish, -, hbalances⟩ := PlanValue.mk.inj h
  have htotal : p.totalTokens = q.totalTokens := by
    rw [totalTokens_eq, totalTokens_eq, p.grantedSum_eq s, q.grantedSum_eq s', hbalances]
  unfold readyAt? rate?
  rw [hstart, hfinish, htotal, spentTokens_eq_of_balances_eq hbalances,
    unspentTokens_eq_of_balances_eq hbalances]

theorem value_realized (v : PlanValue) (s : Spending) :
    (v.realized.run s).1.value (v.realized.run s).2 = v := by
  have hbalances := map_balance_ofBalances v.balances s
  unfold value balances
  rw [show (v.realized.run s).1.tokens = ((Token.ofBalances v.balances).run s).1 from rfl]
  rw [show (v.realized.run s).2 = ((Token.ofBalances v.balances).run s).2 from rfl, hbalances]
  rfl

theorem readyAt?_value (p : Plan) (s : Spending) : (p.value s).readyAt? = p.readyAt? s :=
  readyAt?_eq_of_value_eq (value_realized (p.value s) .empty)

theorem spentInClass_value (p : Plan) (c : Int) (s : Spending) :
    (p.value s).spentInClass c = p.spentInClass c s := by
  simp only [PlanValue.spentInClass, value, balances, List.find?_map, Option.map_map]
  rfl

theorem balances_eq_of_keeps {p : Plan} {s s' : Spending} (h : s.Keeps s') (hp : p.IsOpen s) :
    p.balances s' = p.balances s :=
  List.map_congr_left fun t ht => Token.balance_eq_of_keeps h (hp t ht)

theorem value_eq_of_keeps {p : Plan} {s s' : Spending} (h : s.Keeps s') (hp : p.IsOpen s) :
    p.value s' = p.value s := by
  rw [value, balances_eq_of_keeps h hp]
  rfl

/-! ## The plans that records bring in -/

theorem value_ofSchedule (x : Schedule) (s : Spending) :
    ((ofSchedule x).run s).1.value ((ofSchedule x).run s).2 = .ofSchedule x := by
  rw [value, balances_ofSchedule]
  rfl

/-- Every token of a newer revision shows the spend of its class. -/
theorem map_balance_continued {p : Plan} {s : Spending} (hp : p.IsOpen s) (ts : List Token) :
    ((p.continued ts).run s).1.map (·.balance ((p.continued ts).run s).2) =
      ts.map fun t => ⟨t.priorityClass, t.total, p.spentInClass t.priorityClass s⟩ := by
  induction ts generalizing s with
  | nil => rfl
  | cons t ts ih =>
    cases h : p.token? t.priorityClass with
    | some u =>
      obtain ⟨hu, hcu⟩ := mem_of_token? h
      have hk := keeps_continued p ts s
      rw [run_continued_of_some h, List.map_cons, ih hp, List.map_cons]
      -- the token counts in an old counter, which the later ones leave alone
      simp [Token.balance, Token.revised, Token.spent, hcu, hk.get_eq (hp u hu), spentInClass, h]
    | none =>
      have hk := keeps_continued p ts (s.opened 0)
      have hsame (c : Int) : p.spentInClass c (s.opened 0) = p.spentInClass c s :=
        spentInClass_eq_of_keeps (s.keeps_opened 0) hp c
      have hnone : p.spentInClass t.priorityClass s = 0 := by simp [spentInClass, h]
      rw [run_continued_of_none h, List.map_cons, ih (isOpen_opened hp 0), List.map_cons, hnone]
      -- the token counts in a counter that was opened for it, at zero
      simp [Token.balance, Token.spent, hk.get_eq (s.isOpen_next_opened 0),
        Spending.get_next_opened, hsame]

theorem value_withUpdatedSchedule {p : Plan} {s : Spending} (hp : p.IsOpen s) (x : Schedule) :
    ((p.withUpdatedSchedule x).run s).1.value ((p.withUpdatedSchedule x).run s).2 =
      (p.value s).revised x := by
  -- the revision is opened afresh, and then its counters are exchanged for those of its classes
  have hfresh := balances_ofSchedule x s
  have hcontinued := map_balance_continued (isOpen_ofSchedule hp x) ((ofSchedule x).run s).1.tokens
  have hspent (c : Int) : p.spentInClass c ((ofSchedule x).run s).2 = p.spentInClass c s :=
    spentInClass_eq_of_keeps (keeps_ofSchedule x s) hp c
  have hbalances : ((p.withUpdatedSchedule x).run s).1.balances
      ((p.withUpdatedSchedule x).run s).2 = ((p.value s).revised x).balances := by
    rw [run_withUpdatedSchedule, PlanValue.revised, ← hfresh]
    simp only [spentInClass_value, balances, List.map_map, ← hspent]
    exact hcontinued
  rw [value, hbalances]
  rfl

end Plan

/-! ## Pacing states and line items -/

/-- A pacing state as a value. -/
structure PacingValue where
  plan : Option PlanValue
  readyAt : Option Instant
deriving DecidableEq

/-- The pacing state with the serves that the counters of its plan show. -/
def Pacing.value (b : Pacing) (s : Spending) : PacingValue := ⟨b.plan.map (·.value s), b.readyAt⟩

namespace PacingValue

open LineItem (dueAt)

/-- The pacing state without a plan. -/
def none : PacingValue := ⟨Option.none, Option.none⟩

/-- The plan of a schedule that starts now. -/
def started (x : Schedule) (now : Instant) : PacingValue := ⟨some (.ofSchedule x), some (dueAt now)⟩

/-- The pacing state with a newer revision of its plan. -/
def revised (v : PlanValue) (x : Schedule) : PacingValue :=
  ⟨some (v.revised x), (v.revised x).readyAt?.map dueAt⟩

/-- The pacing state under a new record. -/
def refreshed (b : PacingValue) (record : LineItemRecord) (now : Instant) : PacingValue :=
  match record.scheduleAt? now, b.plan with
  | .none, _ => none
  | some x, .none => started x now
  | some x, some v =>
    if v.id = x.planId then if v.updated < x.updated then revised v x else b
    else started x now

end PacingValue

/-- A line item as a value. -/
structure LineItemValue where
  record : LineItemRecord
  cpm : Option Float
  targeting : Option Targeting.Expression
  pacing : PacingValue

/-- The pacing state of a line item, if there is one. -/
def LineItemValue.pacing? (v? : Option LineItemValue) : PacingValue :=
  (v?.map (·.pacing)).getD .none

namespace LineItem

/-- The line item with the serves that the counters of its plan show. -/
def value (x : LineItem) (s : Spending) : LineItemValue :=
  ⟨x.record, x.cpm, x.targeting, x.pacing.value s⟩

theorem value_eq_of_keeps {x : LineItem} {s s' : Spending} (h : s.Keeps s')
    (hx : ∀ p, x.plan = some p → p.IsOpen s) : x.value s' = x.value s := by
  have hplan : x.plan.map (·.value s') = x.plan.map (·.value s) :=
    Option.map_congr fun p hp => Plan.value_eq_of_keeps h (hx p hp)
  simp only [value, Pacing.value, pacing, hplan]

/-- What a new record makes of a pacing state depends on its value only. -/
theorem value_refreshedPlan {x : LineItem} {s : Spending} (hx : ∀ p, x.plan = some p → p.IsOpen s)
    (record : LineItemRecord) (now : Instant) :
    let out := (x.refreshedPlan record now).run s
    (⟨out.1.1, out.1.2⟩ : Pacing).value out.2 = (x.pacing.value s).refreshed record now := by
  unfold refreshedPlan PacingValue.refreshed pacing Pacing.value
  cases record.scheduleAt? now with
  | none => rfl
  | some y =>
    have hstarted := congrArg some (Plan.value_ofSchedule y s)
    cases hp : x.plan with
    | none => exact congrArg (PacingValue.mk · _) hstarted
    | some p =>
      by_cases hid : p.id = y.planId
      · by_cases hnewer : p.updated < y.updated
        · have hupdated : p.isUpdatedBy y = true := by simp [Plan.isUpdatedBy, hid, hnewer]
          have hrevised := Plan.value_withUpdatedSchedule (hx p hp) y
          -- the next serve is that of the revision
          have hready := congrArg PlanValue.readyAt? hrevised
          rw [Plan.readyAt?_value] at hready
          simp only [if_pos hid, if_pos hupdated, Option.map_some, Plan.value, if_pos hnewer]
          exact congrArg₂ PacingValue.mk (congrArg some hrevised)
            (congrArg (Option.map dueAt) hready)
        · have hupdated : ¬ p.isUpdatedBy y = true := by simp [Plan.isUpdatedBy, hnewer]
          simp only [if_pos hid, if_neg hupdated, Option.map_some, Plan.value, if_neg hnewer]
          rfl
      · simp only [if_neg hid, Option.map_some, Plan.value]
        exact congrArg (PacingValue.mk · _) hstarted

/-- A registration is a new record for a line item without a plan. -/
theorem value_register (record : LineItemRecord) (cpm : Option Float)
    (targeting : Option Targeting.Expression) (now : Instant) (s : Spending) :
    let out := (register record cpm targeting now).run s
    out.1.value out.2 = ⟨record, cpm, targeting, PacingValue.none.refreshed record now⟩ := by
  unfold register PacingValue.refreshed
  cases record.scheduleAt? now with
  | none => rfl
  | some y =>
    have hplan := congrArg some (Plan.value_ofSchedule y s)
    exact congrArg (LineItemValue.mk record cpm targeting) (congrArg (PacingValue.mk · _) hplan)

end LineItem

end DealPacing
