import DealPacing.Proofs.Progress.Upkeep

/-!
# What lasts of line items

Line items are registered, take new records, take serves and move on to their next plans, and
nothing else happens to them. A property that they are registered with, and that all this keeps,
holds of all line items that a run leads to, whatever the windows and the reports do meanwhile.

## Main definitions

* `LineItem.Lasting`: properties that line items are registered with and keep
* `Registry.All`: all registered line items have a property
* `Engine.Move.Brings`: all records that come with a move are of a kind

## Main results

* `Registry.All.update`, `Registry.All.advance`, `Registry.All.spend`: what lasts in a registry
* `Engine.all_run`: what lasts along a run
-/

namespace DealPacing

variable {K : LineItemRecord → Prop} {P : LineItem → Prop}

/-- The record that comes with an act is of a kind. -/
def LineItem.Act.Brings (K : LineItemRecord → Prop) : LineItem.Act → Prop
  | .refresh record _ _ _ => K record
  | _ => True

/-- A property that line items are registered with and keep, as long as their records are of a
kind. -/
structure LineItem.Lasting (K : LineItemRecord → Prop) (P : LineItem → Prop) : Prop where
  register : ∀ {record} (cpm : Option Float) (targeting : Option Targeting.Expression)
    (now : Instant) (s : Spending), K record → P ((register record cpm targeting now).run s).1
  act : ∀ {x} {a : Act} (s : Spending), P x → a.Brings K → P ((x.act a).run s).1.1

/-! ## Registries -/

namespace Registry

/-- All registered line items have a property. -/
structure All (P : LineItem → Prop) (r : Registry) : Prop where
  of_get? : ∀ {id x}, r.get? id = some x → P x

namespace All

variable {r : Registry}

theorem empty : Registry.empty.All P := ⟨by simp [Registry.empty, get?]⟩

theorem put (h : r.All P) {x : LineItem} (hx : P x) : (r.put x).All P where
  of_get? hy := by
    rw [get?_put] at hy
    split at hy
    · exact Option.some.inj hy ▸ hx
    · exact h.of_get? hy

theorem eraseAll (h : r.All P) (ids : List String) : (r.eraseAll ids).All P :=
  ⟨fun hx => h.of_get? (get?_of_get?_eraseAll hx)⟩

theorem of_mem_toList (h : r.All P) {x : LineItem} (hx : x ∈ r.toList) : P x := by
  obtain ⟨id, hget⟩ := exists_get?_of_mem_toList hx
  exact h.of_get? hget

theorem enter (hP : LineItem.Lasting K P) (h : r.All P) {record : LineItemRecord}
    (hrecord : K record) (cpm : Option Float) (now : Instant) (s : Spending) :
    ((r.enter record cpm now).run s).1.All P := by
  unfold Registry.enter
  cases hx : r.lineItems[record.lineItemId]? with
  | some x =>
    have hrefreshed := hP.act (a := .refresh record cpm record.expression? now) s (h.of_get? hx)
      hrecord
    exact h.put hrefreshed
  | none => exact h.put (hP.register cpm record.expression? now s hrecord)

theorem applyRecord (hP : LineItem.Lasting K P) {sofar : Registry × List Event}
    (h : sofar.1.All P) (pricing : Pricing) (now : Instant) {record : LineItemRecord}
    (hrecord : K record) (s : Spending) :
    ((Registry.applyRecord pricing now sofar record).run s).1.1.All P := by
  unfold Registry.applyRecord
  by_cases hretired : record.isRetired now
  · simp only [hretired, if_true]
    exact h
  · simp only [hretired]
    cases Registry.accept pricing record with
    | error e => exact h
    | ok cpm => exact h.enter hP hrecord cpm now s

/-- A response of the planner keeps what lasts. -/
theorem update (hP : LineItem.Lasting K P) (h : r.All P) (pricing : Pricing)
    {records : List LineItemRecord} (hrecords : ∀ record ∈ records, K record)
    (plannerResponds : Bool) (now : Instant) (s : Spending) :
    ((r.update pricing records plannerResponds now).run s).1.1.All P := by
  have hr : All P { r with plannerResponds } := ⟨h.of_get?⟩
  unfold Registry.update
  cases plannerResponds with
  | false => exact hr
  | true =>
    exact run_foldlM_of_mem (I := fun (sofar : Registry × List Event) _ => sofar.1.All P)
      (hr.eraseAll _) fun record hrecord _ s' h' =>
        h'.applyRecord hP pricing now (hrecords record hrecord) s'

/-- Plan changes keep what lasts. -/
theorem advance (hP : LineItem.Lasting K P) (h : r.All P) (now : Instant) (s : Spending) :
    ((r.advance now).run s).1.1.All P := by
  refine run_foldlM_of_mem (I := fun (sofar : Registry × List Event) _ => sofar.1.All P) h
    fun x hx sofar s' h' => ?_
  have hnext := hP.act (a := .advance now sofar.1.plannerResponds) s' (h.of_mem_toList hx) trivial
  rw [(run_advanceOne now sofar x s').1]
  change P (((x.advance? now sofar.1.plannerResponds).run s').1.getD x) at hnext
  cases hadvanced : ((x.advance? now sofar.1.plannerResponds).run s').1 with
  | none => exact h'
  | some next =>
    rw [hadvanced] at hnext
    exact h'.put hnext

/-- Serves keep what lasts. -/
theorem spend (hP : LineItem.Lasting K P) (h : r.All P) (id : String) (s : Spending) :
    ((r.spend id).run s).1.1.All P := by
  cases hx : r.get? id with
  | none =>
    rw [run_spend_of_none hx]
    exact h
  | some x =>
    have hspent := hP.act (a := .spend) s (h.of_get? hx) trivial
    rw [run_spend_of_some hx]
    refine ⟨fun hy => ?_⟩
    simp only [get?, Std.ExtTreeMap.getElem?_insert] at hy
    split at hy
    · exact Option.some.inj hy ▸ hspent
    · exact h.of_get? hy

theorem spendAll (hP : LineItem.Lasting K P) (h : r.All P) (ids : List String) (s : Spending) :
    ((Progress.spendAll ids r).run s).1.1.All P := by
  induction ids generalizing r s with
  | nil => exact h
  | cons id ids ih => exact ih (h.spend hP id s) _

end All

end Registry

/-! ## Runs -/

namespace Engine

/-- All records that come with a move are of a kind. -/
def Move.Brings (K : LineItemRecord → Prop) : Move → Prop
  | .update records _ _ => ∀ record ∈ records, K record
  | _ => True

/-- Every move keeps what lasts. -/
theorem all_move (hP : LineItem.Lasting K P) {e : Engine} (h : e.registry.All P) {m : Move}
    (hm : m.Brings K) : (e.move m).registry.All P := by
  cases m with
  | update records plannerResponds now => exact h.update hP e.pricing hm plannerResponds now _
  | advance now => exact h.advance hP now _
  | spend id => exact h.spend hP id _
  | auction log accountId =>
    -- the serves of the auction are taken one after the other
    have hregistry : (e.move (.auction log accountId)).registry =
        ((Progress.spendAll log.sentToClientAsTopMatch.toList e.registry).run e.spending).1.1 :=
      congrArg (·.1.1) (Progress.run_foldlM_serve ..)
    rw [hregistry]
    exact h.spendAll hP _ _
  | removeLineItems ids => cases ids <;> exact h.eraseAll _
  | _ => exact ⟨h.of_get?⟩

/-- **What line items are registered with and keep holds of all line items of a run**, as long as
all records of the run are of the kind. -/
theorem all_run (hP : LineItem.Lasting K P) (c : Config) (start : Instant) {moves : List Move}
    (hmoves : ∀ m ∈ moves, m.Brings K) : (run c start moves).registry.All P := by
  induction moves using List.reverseRecOn with
  | nil => exact .empty
  | append_singleton moves m ih =>
    rw [run_concat]
    exact all_move hP (ih fun m' hm' => hmoves m' (List.mem_append_left _ hm')) (hmoves m (by simp))

end Engine

end DealPacing
