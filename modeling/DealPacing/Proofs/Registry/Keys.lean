import DealPacing.Proofs.Delivery.Histories
import DealPacing.Proofs.Loops
import DealPacing.Registry

/-!
# Line items are registered under their own ids

The registry starts empty, and every operation enters line items under their own ids and with
records that have been checked. So an id names one line item, in the registry and in the logs that
auctions write, and every line item has a source.

## Main definitions

* `Registry.Keyed`: every line item is registered under its own id
* `Registry.Valid`: moreover, every line item has a record that can be entered

## Main results

* `Valid.update`, `Valid.advance`, `Valid.spend`, `Valid.eraseAll`: all operations keep a registry
  valid
* `Keyed.nodup_ids`: the ids of the registered line items are different
-/

namespace DealPacing

theorem IdMap.getElem?_foldl_erase {α : Type} (ids : List String) (m : IdMap α) (id : String) :
    (ids.foldl (·.erase ·) m)[id]? = if id ∈ ids then none else m[id]? := by
  induction ids generalizing m with
  | nil => simp
  | cons i ids ih =>
    rw [List.foldl_cons, ih, Std.ExtTreeMap.getElem?_erase]
    by_cases hid : i = id
    · simp [hid]
    · simp [hid, Ne.symm hid]

/-! ## Records of line items -/

namespace LineItem

theorem record_register (record : LineItemRecord) (cpm : Option Float)
    (targeting : Option Targeting.Expression) (now : Instant) (s : Spending) :
    ((register record cpm targeting now).run s).1.record = record := by
  unfold register
  cases record.scheduleAt? now <;> rfl

theorem record_advance? (x : LineItem) (now : Instant) (plannerResponds : Bool) (s : Spending) :
    (((x.advance? now plannerResponds).run s).1.getD x).record = x.record := by
  unfold advance? nextPlan
  cases x.isActiveAt now with
  | true => rfl
  | false =>
    cases x.record.scheduleAt? now with
    | none => cases hp : x.plan <;> rfl
    | some y => cases hp : x.plan <;> cases plannerResponds <;> rfl

theorem record_spend (x : LineItem) (s : Spending) : (x.spend.run s).1.1.record = x.record := by
  cases hp : x.plan with
  | none => rw [run_spend_of_none hp]
  | some p =>
    rw [run_spend_of_some hp]
    cases p.unspentToken? s <;> rfl

theorem id_register (record : LineItemRecord) (cpm : Option Float)
    (targeting : Option Targeting.Expression) (now : Instant) (s : Spending) :
    ((register record cpm targeting now).run s).1.id = record.lineItemId :=
  congrArg LineItemRecord.lineItemId (record_register record cpm targeting now s)

theorem id_advance? (x : LineItem) (now : Instant) (plannerResponds : Bool) (s : Spending) :
    (((x.advance? now plannerResponds).run s).1.getD x).id = x.id :=
  congrArg LineItemRecord.lineItemId (x.record_advance? now plannerResponds s)

end LineItem

namespace Registry

theorem get?_put (r : Registry) (x : LineItem) (id : String) :
    (r.put x).get? id = if x.id = id then some x else r.get? id := by
  simp [get?, put, Std.ExtTreeMap.getElem?_insert]

theorem get?_eraseAll (r : Registry) (ids : List String) (id : String) :
    (r.eraseAll ids).get? id = if id ∈ ids then none else r.get? id :=
  IdMap.getElem?_foldl_erase ids r.lineItems id

theorem get?_of_get?_eraseAll {r : Registry} {ids : List String} {id : String} {x : LineItem}
    (h : (r.eraseAll ids).get? id = some x) : r.get? id = some x := by
  rw [get?_eraseAll] at h
  split at h
  · cases h
  · exact h

theorem run_advanceOne (now : Instant) (sofar : Registry × List Event) (x : LineItem)
    (s : Spending) :
    ((advanceOne now sofar x).run s).1.1 =
        (match ((x.advance? now sofar.1.plannerResponds).run s).1 with
        | none => sofar.1
        | some next => sofar.1.put next) ∧
      ((advanceOne now sofar x).run s).2 =
        ((x.advance? now sofar.1.plannerResponds).run s).2 := by
  unfold advanceOne
  rw [run_bind_eq]
  obtain ⟨next, s'⟩ := (x.advance? now sofar.1.plannerResponds).run s
  cases next <;> exact ⟨rfl, rfl⟩

theorem exists_get?_of_mem_toList {r : Registry} {x : LineItem} (hx : x ∈ r.toList) :
    ∃ id, r.get? id = some x := by
  obtain ⟨⟨id, y⟩, hy, rfl⟩ := List.mem_map.mp hx
  exact ⟨id, Std.ExtTreeMap.mem_toList_iff_getElem?_eq_some.mp hy⟩

/-- Every line item is registered under its own id. -/
structure Keyed (r : Registry) : Prop where
  id_eq : ∀ {id x}, r.get? id = some x → x.id = id

/-- Every line item is registered under its own id and has a record that can be entered. -/
structure Valid (r : Registry) : Prop extends Keyed r where
  validate_eq : ∀ {id x}, r.get? id = some x → x.record.validate = .ok ()

theorem valid_empty : Registry.empty.Valid := ⟨⟨by simp [get?, empty]⟩, by simp [get?, empty]⟩

theorem Keyed.put {r : Registry} (h : r.Keyed) (x : LineItem) : (r.put x).Keyed where
  id_eq hget := by
    rw [get?_put] at hget
    split at hget
    · next hid => exact Option.some.inj hget ▸ hid
    · exact h.id_eq hget

namespace Valid

variable {r : Registry}

theorem put (h : r.Valid) {x : LineItem} (hx : x.record.validate = .ok ()) : (r.put x).Valid := by
  refine ⟨h.toKeyed.put x, fun {id y} hy => ?_⟩
  rw [get?_put] at hy
  split at hy
  · exact Option.some.inj hy ▸ hx
  · exact h.validate_eq hy

theorem eraseAll (h : r.Valid) (ids : List String) : (r.eraseAll ids).Valid :=
  ⟨⟨fun hx => h.id_eq (get?_of_get?_eraseAll hx)⟩,
    fun hx => h.validate_eq (get?_of_get?_eraseAll hx)⟩

theorem enter (h : r.Valid) {record : LineItemRecord} (hrecord : record.validate = .ok ())
    (cpm : Option Float) (now : Instant) (s : Spending) :
    ((r.enter record cpm now).run s).1.Valid := by
  unfold Registry.enter
  cases r.lineItems[record.lineItemId]? with
  | some x => exact h.put hrecord
  | none =>
    have hregister := LineItem.record_register record cpm record.expression? now s
    exact h.put ((congrArg LineItemRecord.validate hregister).trans hrecord)

theorem applyRecord {sofar : Registry × List Event} (h : sofar.1.Valid) (pricing : Pricing)
    (now : Instant) (record : LineItemRecord) (s : Spending) :
    ((Registry.applyRecord pricing now sofar record).run s).1.1.Valid := by
  unfold Registry.applyRecord
  by_cases hretired : record.isRetired now
  · simp only [hretired, if_true]
    exact h
  · simp only [hretired]
    cases haccept : Registry.accept pricing record with
    | error e => exact h
    | ok cpm =>
      have hrecord : record.validate = .ok () := by
        rw [Registry.accept] at haccept
        cases hvalidate : record.validate with
        | error e =>
          rw [hvalidate] at haccept
          cases haccept
        | ok _ => rfl
      exact h.enter hrecord cpm now s

/-- A response of the planner keeps a registry valid. -/
theorem update (h : r.Valid) (pricing : Pricing) (records : List LineItemRecord)
    (plannerResponds : Bool) (now : Instant) (s : Spending) :
    ((r.update pricing records plannerResponds now).run s).1.1.Valid := by
  have hr : Valid { r with plannerResponds } := ⟨⟨h.id_eq⟩, h.validate_eq⟩
  unfold Registry.update
  cases plannerResponds with
  | false => exact hr
  | true =>
    exact run_foldlM_of_mem (I := fun (sofar : Registry × List Event) _ => sofar.1.Valid)
      (hr.eraseAll _) fun record _ _ s' h' => h'.applyRecord pricing now record s'

/-- Plan changes keep a registry valid. -/
theorem advance (h : r.Valid) (now : Instant) (s : Spending) :
    ((r.advance now).run s).1.1.Valid := by
  refine run_foldlM_of_mem (I := fun (sofar : Registry × List Event) _ => sofar.1.Valid) h
    fun x hx sofar s' h' => ?_
  obtain ⟨id, hget⟩ := exists_get?_of_mem_toList hx
  have hrecord := x.record_advance? now sofar.1.plannerResponds s'
  rw [(run_advanceOne now sofar x s').1]
  cases hnext : ((x.advance? now sofar.1.plannerResponds).run s').1 with
  | none => exact h'
  | some next =>
    rw [hnext, Option.getD_some] at hrecord
    refine h'.put ?_
    rw [hrecord]
    exact h.validate_eq hget

/-- Serves keep a registry valid. -/
theorem spend (h : r.Valid) (id : String) (s : Spending) : ((r.spend id).run s).1.1.Valid := by
  unfold Registry.spend
  cases hx : r.get? id with
  | none => exact h
  | some x =>
    have hrecord := x.record_spend s
    have hid : (x.spend.run s).1.1.id = id :=
      (congrArg LineItemRecord.lineItemId hrecord).trans (h.id_eq hx)
    have hput := h.put (x := (x.spend.run s).1.1) (hrecord ▸ h.validate_eq hx)
    rw [Registry.put, hid] at hput
    exact hput

end Valid

namespace Keyed

variable {r : Registry}

theorem get?_of_mem_toList (h : r.Keyed) {x : LineItem} (hx : x ∈ r.toList) :
    r.get? x.id = some x := by
  obtain ⟨id, hget⟩ := exists_get?_of_mem_toList hx
  rw [h.id_eq hget]
  exact hget

theorem mem_toList_iff (h : r.Keyed) {x : LineItem} : x ∈ r.toList ↔ r.get? x.id = some x := by
  refine ⟨h.get?_of_mem_toList, fun hx => List.mem_map.mpr ⟨(x.id, x), ?_, rfl⟩⟩
  exact Std.ExtTreeMap.mem_toList_iff_getElem?_eq_some.mpr hx

/-- The ids of the registered line items are different. -/
theorem nodup_ids (h : r.Keyed) : (r.toList.map (·.id)).Nodup := by
  have hids : r.toList.map (·.id) = r.lineItems.toList.map Prod.fst := by
    rw [Registry.toList, List.map_map]
    refine List.map_congr_left fun e he => ?_
    exact h.id_eq (Std.ExtTreeMap.mem_toList_iff_getElem?_eq_some.mp he)
  rw [hids]
  exact nodup_keys_toList _

end Keyed

end Registry

end DealPacing
