import DealPacing.Proofs.Registry.Entries

/-!
# What a response of the planner leaves

After a response, the registry is what the planner said: the last record of an id that was entered
is the record of its line item, and line items that no record names stay exactly as they were,
unless they ended. A record that is malformed leaves no trace, whatever stands around it.

## Main definitions

* `Registry.Follows`: the registry is what the planner said
* `LineItemRecord.Malformed`: records that are active and have not ended, but cannot be entered

## Main results

* `Engine.update_follows`: after a response, the registry is what the planner said
* `Engine.update_malformed`: a malformed record is isolated
-/

namespace DealPacing

/-! ## The registry is what the planner said -/

/-- The registry `r'` is what the planner said in a response to the registry `r`. -/
structure Registry.Follows (pricing : Pricing) (records : List LineItemRecord) (now : Instant)
    (r : Registry) (s : Spending) (r' : Registry) (s' : Spending) : Prop where
  responds : r'.plannerResponds = true
  registered_iff : ∀ id, (r'.get? id).isSome ↔
    (∃ record ∈ records, record.lineItemId = id ∧ record.Enters pricing now) ∨
      ∃ x, r.get? id = some x ∧ x.record.isExpired now = false ∧
        ∀ record ∈ records, record.lineItemId = id → record.isRetired now = false
  /-- The last record of an id that is entered is the record of the line item. -/
  entered : ∀ {before record after}, records = before ++ record :: after →
    record.Enters pricing now →
    (∀ later ∈ after, later.lineItemId = record.lineItemId → ¬ later.Enters pricing now) →
    ∃ x, r'.get? record.lineItemId = some x ∧ x.record = record ∧
      pricing.cpm record = .ok x.cpm ∧ x.targeting = record.expression?
  unchanged : ∀ {id x}, r'.get? id = some x →
    (∀ record ∈ records, record.lineItemId = id → ¬ record.Enters pricing now) →
    r.get? id = some x ∧ x.value s' = x.value s
  keyed : ∀ {id x}, r'.get? id = some x → x.id = id
  current : ∀ {id x}, r'.get? id = some x → x.record.isExpired now = false

theorem isSome_foldl_apply (now : Instant) (es : List Entry) (v? : Option LineItemValue) :
    (es.foldl (Entry.apply now) v?).isSome ↔ es ≠ [] ∨ v?.isSome := by
  induction es using List.reverseRecOn with
  | nil => simp
  | append_singleton es e _ => simp [Entry.apply]

theorem exists_record_eq_of_foldl_apply {now : Instant} {es : List Entry} (hes : es ≠ [])
    {v? : Option LineItemValue} {v : LineItemValue} (h : es.foldl (Entry.apply now) v? = some v) :
    ∃ e ∈ es, v.record = e.record := by
  induction es using List.reverseRecOn with
  | nil => exact absurd rfl hes
  | append_singleton es e _ =>
    rw [List.foldl_append] at h
    exact ⟨e, by simp, congrArg LineItemValue.record (Option.some.inj h).symm⟩

/-- **After a response, the registry is what the planner said.** -/
theorem Owned.follows {r : Registry} {w : Window} {s : Spending} {label : Counter → Owner × Int}
    (h : Owned r w s label) (pricing : Pricing) (records : List LineItemRecord) (now : Instant) :
    let out := (r.update pricing records true now).run s
    r.Follows pricing records now s out.1.1 out.2 := by
  obtain ⟨⟨⟨label', howned⟩, hkeeps⟩, hvalue, hothers, hresponds⟩ :=
    h.entering_update pricing records now
  generalize (r.update pricing records true now).run s = out at *
  have hunnamed {id : String} {x : LineItem} (hx : out.1.1.get? id = some x)
      (hnone : entriesOf id (entries pricing now records) = []) :
      (r.relieved records now).get? id = some x := (hothers hnone).symm.trans hx
  constructor
  case responds => exact hresponds
  case registered_iff =>
    intro id
    -- every entry leaves a line item, and without entries the old one stays
    rw [← Registry.isSome_value? out.1.1 out.2, hvalue, isSome_foldl_apply, Registry.isSome_value?]
    apply or_congr
    · rw [Ne, entriesOf_entries_eq_nil_iff]
      simp only [not_forall, not_not, exists_prop]
    · simp only [Option.isSome_iff_exists, Registry.get?_relieved_eq_some_iff]
  case entered =>
    rintro before record after rfl henters hlast
    obtain ⟨es, cpm, hcpm, hes⟩ := exists_entriesOf_concat before henters hlast
    -- the last entry gives everything but the pacing state
    have hlastValue := hvalue record.lineItemId
    rw [hes, List.foldl_append] at hlastValue
    obtain ⟨x, hx, hxvalue⟩ := Option.map_eq_some_iff.mp hlastValue
    obtain ⟨hrecord, hxcpm, htargeting, -⟩ := LineItemValue.mk.inj hxvalue
    exact ⟨x, hx, hrecord, hcpm.trans (congrArg _ hxcpm.symm), htargeting⟩
  case unchanged =>
    intro id x hx hnone
    have hx' := hunnamed hx (entriesOf_entries_eq_nil_iff.mpr hnone)
    refine ⟨(Registry.get?_relieved_eq_some_iff.mp hx').1, ?_⟩
    exact x.value_eq_of_keeps hkeeps ((h.relieved records now).isOpen_item hx')
  case keyed => exact howned.id_eq
  case current =>
    intro id x hx
    by_cases hnone : entriesOf id (entries pricing now records) = []
    · exact (Registry.get?_relieved_eq_some_iff.mp (hunnamed hx hnone)).2.1
    · -- the record was entered, so it has not ended
      have hxvalue : out.1.1.value? out.2 id = some (x.value out.2) := congrArg (Option.map _) hx
      obtain ⟨e, he, hrecord⟩ :=
        exists_record_eq_of_foldl_apply hnone ((hvalue id).symm.trans hxvalue)
      have henters := (mem_entries_iff.mp (mem_entriesOf_iff.mp he).1).2.1
      exact (congrArg (·.isExpired now) hrecord).trans henters.current

/-! ## Malformed records -/

/-- The record is active and has not ended, but it lacks something, or its price cannot be
converted. -/
structure LineItemRecord.Malformed (pricing : Pricing) (now : Instant) (record : LineItemRecord) :
    Prop where
  active : record.isActive = true
  current : record.isExpired now = false
  refused : (∃ error, record.validate = .error error) ∨ ∃ error, pricing.cpm record = .error error

namespace LineItemRecord.Malformed

variable {pricing : Pricing} {now : Instant} {record : LineItemRecord}

theorem not_isRetired (h : record.Malformed pricing now) : ¬ record.isRetired now = true := by
  rw [Bool.not_eq_true]
  exact isRetired_eq_false_iff.mpr ⟨h.active, h.current⟩

theorem not_enters (h : record.Malformed pricing now) : ¬ record.Enters pricing now := by
  intro henters
  rcases h.refused with ⟨error, hrefused⟩ | ⟨error, hrefused⟩
  · have hvalid : record.validate = .ok () := validate_eq_ok_iff.mpr
      ⟨henters.id_ne, henters.account_ne, henters.source_ne, henters.start_le⟩
    rw [hvalid] at hrefused
    cases hrefused
  · obtain ⟨cpm, hcpm⟩ := henters.priced
    rw [hcpm] at hrefused
    cases hrefused

end LineItemRecord.Malformed

namespace Engine

/-- A malformed record leaves no trace in the engine. -/
theorem fst_update_of_malformed {e : Engine} {now : Instant} {record : LineItemRecord}
    (h : record.Malformed e.pricing now) (before after : List LineItemRecord) :
    (e.update (before ++ record :: after) true now).1 =
      (e.update (before ++ after) true now).1 := by
  -- the record retires nothing and has no entry
  have hretired : e.registry.relieved (before ++ record :: after) now =
      e.registry.relieved (before ++ after) now := by
    have hrecord : (record :: after).filter (·.isRetired now) = after.filter (·.isRetired now) :=
      List.filter_cons_of_neg h.not_isRetired
    unfold Registry.relieved Registry.retired
    rw [List.filter_append, List.filter_append, hrecord]
  have hentries : entries e.pricing now (before ++ record :: after) =
      entries e.pricing now (before ++ after) := by
    have hnone := LineItemRecord.entered?_eq_none_iff.mpr h.not_enters
    unfold entries
    rw [List.filterMap_append, List.filterMap_append, List.filterMap_cons_none hnone]
  have hrun := e.registry.run_update e.pricing (before ++ record :: after) now e.spending
  rw [hretired, hentries, ← e.registry.run_update e.pricing (before ++ after) now] at hrun
  obtain ⟨hregistry, hspending⟩ := Prod.mk.inj hrun
  exact congrArg₂ (fun registry spending => { e with registry, spending }) hregistry hspending

variable (c : Config) (start : Instant) (moves : List Move)

/-- **A malformed record is isolated.** It can be left out of a response, and a line item whose
records in a response are all malformed stays exactly as it was. -/
theorem update_malformed {record : LineItemRecord} {now : Instant}
    (h : record.Malformed (run c start moves).pricing now) :
    let e := run c start moves
    (∀ before after plannerResponds,
        (e.update (before ++ record :: after) plannerResponds now).1 =
          (e.update (before ++ after) plannerResponds now).1) ∧
      ∀ records x, e.registry.get? record.lineItemId = some x → x.record.isExpired now = false →
        (∀ other ∈ records, other.lineItemId = record.lineItemId → other.Malformed e.pricing now) →
        let e' := (e.update records true now).1
        e'.registry.get? record.lineItemId = some x ∧ x.value e'.spending = x.value e.spending := by
  refine ⟨fun before after plannerResponds => ?_, fun records x hx hcurrent hmalformed => ?_⟩
  · cases plannerResponds with
    | true => exact fst_update_of_malformed h before after
    | false => rfl
  · obtain ⟨label, howned⟩ := sound_run c start moves
    have hfollows := howned.follows (run c start moves).pricing records now
    -- no record of the id retires the line item, so it is registered still
    have hregistered := (hfollows.registered_iff record.lineItemId).mpr (Or.inr ⟨x, hx, hcurrent,
      fun other hother hid => Bool.eq_false_iff.mpr (hmalformed other hother hid).not_isRetired⟩)
    obtain ⟨x', hx'⟩ := Option.isSome_iff_exists.mp hregistered
    obtain ⟨hold, hvalue⟩ := hfollows.unchanged hx' fun other hother hid =>
      (hmalformed other hother hid).not_enters
    obtain rfl := Option.some.inj (hx.symm.trans hold)
    exact ⟨hx', hvalue⟩

/-- A record without an account for a line item that is registered. -/
theorem update_malformed_noAccount :
    let moves := [.update [twoHours [⟨1, 2⟩] [] (hour 0)] true (hour 0), .spend "lineItem"]
    let e := run {} (hour 0) moves
    let record := { twoHours [⟨1, 1⟩] [] (hour 1) with accountId := "" }
    record.Malformed e.pricing (hour 1) ∧
      (e.update [record] true (hour 1)).1 = (e.update [] true (hour 1)).1 ∧
        ∃ x, e.registry.get? record.lineItemId = some x ∧
          (e.update [record] true (hour 1)).1.registry.get? record.lineItemId = some x := by
  intro moves e record
  have h : record.Malformed e.pricing (hour 1) :=
    ⟨by decide, by decide, Or.inl ⟨.missingAccount "lineItem", rfl⟩⟩
  obtain ⟨hleft, hkept⟩ := update_malformed {} (hour 0) moves h
  rw [show run {} (hour 0) moves = e from rfl] at hkept
  have hregistered : ((e.registry.get? record.lineItemId).map (·.record.isExpired (hour 1))) =
      some false := by decide +kernel
  obtain ⟨x, hx, hcurrent⟩ := Option.map_eq_some_iff.mp hregistered
  have hmalformed : ∀ other ∈ [record], other.lineItemId = record.lineItemId →
      other.Malformed e.pricing (hour 1) := by
    intro other hother _
    rw [List.mem_singleton.mp hother]
    exact h
  obtain ⟨hstays, -⟩ := hkept [record] x hx hcurrent hmalformed
  exact ⟨h, hleft [] [] true, x, hx, hstays⟩

end Engine

end DealPacing
