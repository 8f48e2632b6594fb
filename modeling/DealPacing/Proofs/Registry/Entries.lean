import DealPacing.Proofs.Delivery.Values
import DealPacing.Proofs.Engine.Runs

/-!
# A response of the planner is a list of entries

A response first removes the line items that it retires and those that ended, and then enters its
records one by one. A record that is retired or malformed is not entered. So a response is a removal
and a list of entries, and what becomes of a line item depends on the entries of its own id only:
each of them is a new record for the line item that the one before left.

## Main definitions

* `LineItemRecord.Enters`: the records that a response enters
* `Entry`, `entries`, `entriesOf`: records with the prices they are entered with
* `Registry.relieved`: what a response leaves before it enters records
* `Registry.value?`: a registered line item as a value

## Main results

* `Registry.fst_update`: a response is a removal and a list of entries
* `Owned.entering_update`: what a response does to each line item
-/

namespace DealPacing

open Targeting

/-! ## The records that are entered -/

/-- A response enters the record: it is active and has not ended, has an id, an account and a
source, does not end before it starts, and its price can be converted. -/
structure LineItemRecord.Enters (pricing : Pricing) (now : Instant) (record : LineItemRecord) :
    Prop where
  active : record.isActive = true
  current : record.isExpired now = false
  id_ne : record.lineItemId ≠ ""
  account_ne : record.accountId ≠ ""
  source_ne : record.source ≠ ""
  start_le : record.start ≤ record.finish
  priced : ∃ cpm, pricing.cpm record = .ok cpm

/-- A record with the price it is entered with. -/
structure Entry where
  record : LineItemRecord
  cpm : Option Float

/-- The entry of a record, if a response enters it. -/
def LineItemRecord.entered? (pricing : Pricing) (now : Instant) (record : LineItemRecord) :
    Option Entry :=
  if record.isRetired now then none
  else (Registry.accept pricing record).toOption.map fun cpm => ⟨record, cpm⟩

/-- The entries of a response. -/
def entries (pricing : Pricing) (now : Instant) (records : List LineItemRecord) : List Entry :=
  records.filterMap (·.entered? pricing now)

namespace LineItemRecord

variable {pricing : Pricing} {now : Instant} {record : LineItemRecord}

theorem isRetired_eq_false_iff :
    record.isRetired now = false ↔ record.isActive = true ∧ record.isExpired now = false := by
  simp [isRetired]

theorem validate_eq_ok_iff :
    record.validate = .ok () ↔ record.lineItemId ≠ "" ∧ record.accountId ≠ "" ∧
      record.source ≠ "" ∧ record.start ≤ record.finish := by
  have hwindow : ¬ record.finish < record.start ↔ record.start ≤ record.finish := by
    rw [Instant.lt_iff, Instant.le_iff, Int.not_lt]
  rw [← hwindow]
  unfold validate
  split_ifs <;> simp_all

theorem accept_eq_ok_iff {cpm : Option Float} :
    Registry.accept pricing record = .ok cpm ↔
      record.validate = .ok () ∧ pricing.cpm record = .ok cpm := by
  unfold Registry.accept
  cases record.validate with
  | error e =>
    constructor
    · intro h
      cases h
    · rintro ⟨h, -⟩
      cases h
  | ok _ => exact ⟨fun h => ⟨rfl, h⟩, fun h => h.2⟩

theorem entered?_eq_some_iff {entry : Entry} :
    record.entered? pricing now = some entry ↔
      record.Enters pricing now ∧ entry.record = record ∧ pricing.cpm record = .ok entry.cpm := by
  unfold entered?
  constructor
  · intro h
    cases hretired : record.isRetired now with
    | true => simp [hretired] at h
    | false =>
      obtain ⟨hactive, hcurrent⟩ := isRetired_eq_false_iff.mp hretired
      cases haccept : Registry.accept pricing record with
      | error e => simp [hretired, haccept, Except.toOption] at h
      | ok cpm =>
        obtain rfl : (⟨record, cpm⟩ : Entry) = entry := by
          simpa [hretired, haccept, Except.toOption] using h
        obtain ⟨hvalidate, hcpm⟩ := accept_eq_ok_iff.mp haccept
        obtain ⟨hid, haccount, hsource, hstart⟩ := validate_eq_ok_iff.mp hvalidate
        exact ⟨⟨hactive, hcurrent, hid, haccount, hsource, hstart, cpm, hcpm⟩, rfl, hcpm⟩
  · rintro ⟨h, rfl, hcpm⟩
    have hretired := isRetired_eq_false_iff.mpr ⟨h.active, h.current⟩
    have hvalidate := validate_eq_ok_iff.mpr ⟨h.id_ne, h.account_ne, h.source_ne, h.start_le⟩
    simp [hretired, accept_eq_ok_iff.mpr ⟨hvalidate, hcpm⟩, Except.toOption]

theorem Enters.exists_entry (h : record.Enters pricing now) :
    ∃ cpm, pricing.cpm record = .ok cpm ∧ record.entered? pricing now = some ⟨record, cpm⟩ := by
  obtain ⟨cpm, hcpm⟩ := h.priced
  exact ⟨cpm, hcpm, entered?_eq_some_iff.mpr ⟨h, rfl, hcpm⟩⟩

theorem entered?_eq_none_iff :
    record.entered? pricing now = none ↔ ¬ record.Enters pricing now := by
  constructor
  · intro h henters
    obtain ⟨cpm, -, hentry⟩ := henters.exists_entry
    rw [h] at hentry
    cases hentry
  · intro h
    cases hentry : record.entered? pricing now with
    | none => rfl
    | some entry => exact absurd (entered?_eq_some_iff.mp hentry).1 h

end LineItemRecord

theorem mem_entries_iff {pricing : Pricing} {now : Instant} {records : List LineItemRecord}
    {entry : Entry} :
    entry ∈ entries pricing now records ↔ entry.record ∈ records ∧
      entry.record.Enters pricing now ∧ pricing.cpm entry.record = .ok entry.cpm := by
  simp only [entries, List.mem_filterMap, LineItemRecord.entered?_eq_some_iff]
  constructor
  · rintro ⟨record, hmem, henters, rfl, hcpm⟩
    exact ⟨hmem, henters, hcpm⟩
  · rintro ⟨hmem, henters, hcpm⟩
    exact ⟨entry.record, hmem, henters, rfl, hcpm⟩

/-- The entries of an id. -/
def entriesOf (id : String) (es : List Entry) : List Entry :=
  es.filter (·.record.lineItemId == id)

theorem mem_entriesOf_iff {id : String} {es : List Entry} {e : Entry} :
    e ∈ entriesOf id es ↔ e ∈ es ∧ e.record.lineItemId = id := by
  simp [entriesOf]

theorem entriesOf_concat (id : String) (es : List Entry) (e : Entry) :
    entriesOf id (es ++ [e]) =
      entriesOf id es ++ if e.record.lineItemId = id then [e] else [] := by
  simp [entriesOf, List.filter_append, List.filter_singleton]

section EntriesOf

variable {pricing : Pricing} {now : Instant} {records before after : List LineItemRecord}
  {record : LineItemRecord}

theorem entriesOf_entries_eq_nil_iff {id : String} :
    entriesOf id (entries pricing now records) = [] ↔
      ∀ record ∈ records, record.lineItemId = id → ¬ record.Enters pricing now := by
  rw [List.eq_nil_iff_forall_not_mem]
  constructor
  · intro h record hmem hid henters
    obtain ⟨cpm, hcpm, -⟩ := henters.exists_entry
    exact h ⟨record, cpm⟩ (mem_entriesOf_iff.mpr ⟨mem_entries_iff.mpr ⟨hmem, henters, hcpm⟩, hid⟩)
  · intro h e he
    obtain ⟨he, hid⟩ := mem_entriesOf_iff.mp he
    obtain ⟨hmem, henters, -⟩ := mem_entries_iff.mp he
    exact h e.record hmem hid henters

/-- The last record of an id that is entered is its last entry. -/
theorem exists_entriesOf_concat (before : List LineItemRecord) (h : record.Enters pricing now)
    (hlast : ∀ later ∈ after, later.lineItemId = record.lineItemId → ¬ later.Enters pricing now) :
    ∃ es cpm, pricing.cpm record = .ok cpm ∧
      entriesOf record.lineItemId (entries pricing now (before ++ record :: after)) =
        es ++ [⟨record, cpm⟩] := by
  obtain ⟨cpm, hcpm, hentry⟩ := h.exists_entry
  refine ⟨entriesOf record.lineItemId (entries pricing now before), cpm, hcpm, ?_⟩
  have hafter : entriesOf record.lineItemId (entries pricing now after) = [] :=
    entriesOf_entries_eq_nil_iff.mpr hlast
  -- what comes after `record` has no entry of its id
  rw [entries, List.filterMap_append, List.filterMap_cons_some hentry]
  rw [entriesOf, List.filter_append, List.filter_cons_of_pos (by simp)]
  exact congrArg (_ ++ ⟨record, cpm⟩ :: ·) hafter

end EntriesOf

/-! ## A response is a removal and a list of entries -/

namespace Registry

/-- Enter records one after the other. -/
def enterAll (now : Instant) (r : Registry) (es : List Entry) : StateM Spending Registry :=
  es.foldlM (fun r e => r.enter e.record e.cpm now) r

/-- The registry without the line items that a response retires. -/
def relieved (r : Registry) (records : List LineItemRecord) (now : Instant) : Registry :=
  { r with plannerResponds := true }.eraseAll (r.retired records now)

theorem fst_applyRecord (pricing : Pricing) (now : Instant) (r : Registry) (events : List Event)
    (record : LineItemRecord) :
    Prod.fst <$> applyRecord pricing now (r, events) record =
      r.enterAll now (record.entered? pricing now).toList := by
  unfold applyRecord LineItemRecord.entered?
  cases record.isRetired now with
  | true => rfl
  | false => cases accept pricing record <;> rfl

theorem entries_cons (pricing : Pricing) (now : Instant) (record : LineItemRecord)
    (records : List LineItemRecord) :
    entries pricing now (record :: records) =
      (record.entered? pricing now).toList ++ entries pricing now records := by
  unfold entries
  rw [List.filterMap_cons]
  cases record.entered? pricing now <;> rfl

theorem fst_foldlM_applyRecord (pricing : Pricing) (now : Instant) (records : List LineItemRecord)
    (r : Registry) (events : List Event) :
    Prod.fst <$> records.foldlM (applyRecord pricing now) (r, events) =
      r.enterAll now (entries pricing now records) := by
  induction records generalizing r events with
  | nil => rfl
  | cons record records ih =>
    -- what a record reports is not read by the later ones
    have hrest (sofar : Registry × List Event) := ih sofar.1 sofar.2
    have hrecord := fst_applyRecord pricing now r events record
    calc Prod.fst <$> (record :: records).foldlM (applyRecord pricing now) (r, events)
        = applyRecord pricing now (r, events) record >>= fun sofar =>
            sofar.1.enterAll now (entries pricing now records) := by
          rw [List.foldlM_cons, map_bind]
          exact bind_congr hrest
      _ = (Prod.fst <$> applyRecord pricing now (r, events) record) >>= fun r =>
            r.enterAll now (entries pricing now records) := rfl
      _ = r.enterAll now (entries pricing now (record :: records)) := by
          rw [hrecord, entries_cons, enterAll, enterAll, List.foldlM_append]
          rfl

/-- **A response removes line items, and then enters its records.** -/
theorem fst_update (pricing : Pricing) (r : Registry) (records : List LineItemRecord)
    (now : Instant) :
    Prod.fst <$> r.update pricing records true now =
      (r.relieved records now).enterAll now (entries pricing now records) :=
  fst_foldlM_applyRecord pricing now records _ _

theorem run_update (pricing : Pricing) (r : Registry) (records : List LineItemRecord)
    (now : Instant) (s : Spending) :
    let out := (r.update pricing records true now).run s
    (out.1.1, out.2) =
      ((r.relieved records now).enterAll now (entries pricing now records)).run s :=
  congrArg (StateT.run · s) (r.fst_update pricing records now)

theorem mem_retired_iff {r : Registry} {records : List LineItemRecord} {now : Instant}
    {id : String} :
    id ∈ r.retired records now ↔ ∃ x, r.get? id = some x ∧
      ((∃ record ∈ records, record.lineItemId = id ∧ record.isRetired now = true) ∨
        x.record.isExpired now = true) := by
  have hnamed : id ∈ IdSet.ofList ((records.filter (·.isRetired now)).map (·.lineItemId)) ↔
      ∃ record ∈ records, record.lineItemId = id ∧ record.isRetired now = true := by
    simp only [IdSet.ofList, Std.ExtTreeSet.mem_ofList, List.contains_iff_mem, List.mem_map,
      List.mem_filter, and_assoc]
    exact exists_congr fun record => and_congr_right fun _ => and_comm
  simp only [retired, List.mem_map, List.mem_filter, Bool.or_eq_true, Prod.exists,
    exists_and_right, exists_eq_right, Std.ExtTreeMap.mem_toList_iff_getElem?_eq_some,
    Std.ExtTreeSet.contains_iff_mem, hnamed]
  rfl

/-- What a response does not remove: line items that it does not retire and that have not ended. -/
theorem get?_relieved_eq_some_iff {r : Registry} {records : List LineItemRecord} {now : Instant}
    {id : String} {x : LineItem} :
    (r.relieved records now).get? id = some x ↔ r.get? id = some x ∧
      x.record.isExpired now = false ∧
        ∀ record ∈ records, record.lineItemId = id → record.isRetired now = false := by
  have hget : (r.relieved records now).get? id =
      if id ∈ r.retired records now then none else r.get? id :=
    get?_eraseAll { r with plannerResponds := true } _ id
  rw [hget]
  constructor
  · intro h
    split at h
    · cases h
    · next hstays =>
      -- it would have been retired if it had ended or if a record had retired it
      refine ⟨h, ?_, fun record hmem hid => ?_⟩
      · rw [← Bool.not_eq_true]
        exact fun hended => hstays (mem_retired_iff.mpr ⟨x, h, Or.inr hended⟩)
      · rw [← Bool.not_eq_true]
        exact fun hretired =>
          hstays (mem_retired_iff.mpr ⟨x, h, Or.inl ⟨record, hmem, hid, hretired⟩⟩)
  · rintro ⟨h, hcurrent, hnamed⟩
    refine (if_neg fun hmem => ?_).trans h
    obtain ⟨y, hy, ⟨record, hrecord, hid, hretired⟩ | hended⟩ := mem_retired_iff.mp hmem
    · rw [hnamed record hrecord hid] at hretired
      cases hretired
    · obtain rfl := Option.some.inj (h.symm.trans hy)
      rw [hcurrent] at hended
      cases hended

/-! ## What entries do to each line item -/

/-- A registered line item as a value. -/
def value? (r : Registry) (s : Spending) (id : String) : Option LineItemValue :=
  (r.get? id).map (·.value s)

theorem isSome_value? (r : Registry) (s : Spending) (id : String) :
    (r.value? s id).isSome = (r.get? id).isSome := by
  simp [value?]

theorem get?_enter_of_ne (r : Registry) (record : LineItemRecord) (cpm : Option Float)
    (now : Instant) (s : Spending) {id : String} (h : record.lineItemId ≠ id) :
    ((r.enter record cpm now).run s).1.get? id = r.get? id := by
  unfold enter
  cases r.lineItems[record.lineItemId]? with
  | some x =>
    refine (get?_put r _ id).trans (if_neg ?_)
    exact h
  | none =>
    refine (get?_put r _ id).trans (if_neg ?_)
    have hid := LineItem.id_register record cpm record.expression? now s
    exact fun e => h (hid.symm.trans e)

theorem plannerResponds_enter (r : Registry) (record : LineItemRecord) (cpm : Option Float)
    (now : Instant) (s : Spending) :
    ((r.enter record cpm now).run s).1.plannerResponds = r.plannerResponds := by
  unfold enter
  cases r.lineItems[record.lineItemId]? <;> rfl

end Registry

/-- The line item that an entry leaves of the one with its id. -/
def Entry.apply (now : Instant) (v? : Option LineItemValue) (e : Entry) : Option LineItemValue :=
  some ⟨e.record, e.cpm, e.record.expression?, (LineItemValue.pacing? v?).refreshed e.record now⟩

namespace Owned

variable {r : Registry} {w : Window} {s s' : Spending} {label : Counter → Owner × Int}

theorem isOpen_item (h : Owned r w s label) {id : String} {x : LineItem} (hx : r.get? id = some x) :
    ∀ p, x.plan = some p → p.IsOpen s :=
  fun _ hp => Plan.isOpen_of_labelled (h.items hx hp)

/-- A line item that is not touched keeps its value while counters are opened. -/
theorem value?_of_keeps (h : Owned r w s label) (hs : s.Keeps s') {r' : Registry} {id : String}
    (hid : r'.get? id = r.get? id) : r'.value? s' id = r.value? s id := by
  unfold Registry.value?
  rw [hid]
  exact Option.map_congr fun x hx => x.value_eq_of_keeps hs (h.isOpen_item hx)

/-- An entry is a new record for the line item of its id. -/
theorem value?_enter (h : Owned r w s label) (now : Instant) (e : Entry) :
    let out := (r.enter e.record e.cpm now).run s
    out.1.value? out.2 e.record.lineItemId =
      e.apply now (r.value? s e.record.lineItemId) := by
  unfold Registry.enter Registry.value? Entry.apply
  cases hx : r.get? e.record.lineItemId with
  | some x =>
    -- the line item gets the new record, and its pacing state is refreshed
    have hvalue := LineItem.value_refreshedPlan (h.isOpen_item hx) e.record now
    rw [show r.lineItems[e.record.lineItemId]? = some x from hx]
    refine congrArg (Option.map _) ((Registry.get?_put r _ _).trans (if_pos rfl)) |>.trans ?_
    exact congrArg some (congrArg (LineItemValue.mk _ _ _) hvalue)
  | none =>
    -- a line item is registered under the id of the record
    have hvalue := LineItem.value_register e.record e.cpm e.record.expression? now s
    have hid := LineItem.id_register e.record e.cpm e.record.expression? now s
    rw [show r.lineItems[e.record.lineItemId]? = none from hx]
    refine congrArg (Option.map _) ((Registry.get?_put r _ _).trans (if_pos hid)) |>.trans ?_
    exact congrArg some hvalue

/-- Entries were entered one after the other: each line item is what those of its id made of it, and
line items that no entry names are not touched. -/
structure Entering (now : Instant) (r : Registry) (w : Window) (s : Spending) (done : List Entry)
    (r' : Registry) (s' : Spending) : Prop where
  grown : Grown s w r' s'
  value?_eq : ∀ id, r'.value? s' id = (entriesOf id done).foldl (Entry.apply now) (r.value? s id)
  others : ∀ {id}, entriesOf id done = [] → r'.get? id = r.get? id
  responds : r'.plannerResponds = r.plannerResponds

theorem Entering.enter {now : Instant} {done : List Entry} {r' : Registry}
    (h : Entering now r w s done r' s') (e : Entry) :
    Entering now r w s (done ++ [e]) ((r'.enter e.record e.cpm now).run s').1
      ((r'.enter e.record e.cpm now).run s').2 := by
  obtain ⟨⟨⟨label', howned⟩, hkeeps⟩, hvalue, hothers, hresponds⟩ := h
  obtain ⟨howned', hkeeps'⟩ := howned.enter e.record e.cpm now
  have happly := howned.value?_enter now e
  have hframe {id : String} (hid : e.record.lineItemId ≠ id) :=
    r'.get?_enter_of_ne e.record e.cpm now s' hid
  refine ⟨⟨howned', hkeeps.trans hkeeps'⟩, fun id => ?_, fun {id} hnone => ?_, ?_⟩
  · -- only the line item with the id of the entry gets a new value
    rw [entriesOf_concat, List.foldl_append, ← hvalue]
    by_cases hid : e.record.lineItemId = id
    · subst hid
      rw [if_pos rfl]
      exact happly
    · rw [if_neg hid]
      exact howned.value?_of_keeps hkeeps' (hframe hid)
  · rw [entriesOf_concat, List.append_eq_nil_iff] at hnone
    have hid : e.record.lineItemId ≠ id := fun hid => by simp [hid] at hnone
    exact (hframe hid).trans (hothers hnone.1)
  · exact (r'.plannerResponds_enter e.record e.cpm now s').trans hresponds

/-- **What a list of entries does to each line item.** -/
theorem entering_enterAll (h : Owned r w s label) (now : Instant) (es : List Entry) :
    Entering now r w s es ((r.enterAll now es).run s).1 ((r.enterAll now es).run s).2 := by
  have hstart : Entering now r w s [] r s :=
    ⟨⟨⟨label, h⟩, .refl s⟩, fun _ => rfl, fun _ => rfl, rfl⟩
  exact run_foldlM_of_prefix hstart fun done e r' s' _ h' => h'.enter e

theorem relieved (h : Owned r w s label) (records : List LineItemRecord) (now : Instant) :
    Owned (r.relieved records now) w s label := by
  have hr : Owned { r with plannerResponds := true } w s label :=
    ⟨h.id_eq, h.items, h.nodup, h.copies⟩
  exact hr.eraseAll _

/-- **What a response does to each line item.** -/
theorem entering_update (h : Owned r w s label) (pricing : Pricing) (records : List LineItemRecord)
    (now : Instant) :
    let out := (r.update pricing records true now).run s
    Entering now (r.relieved records now) w s (entries pricing now records) out.1.1 out.2 := by
  have hentering := (h.relieved records now).entering_enterAll now (entries pricing now records)
  rw [← r.run_update pricing records now s] at hentering
  exact hentering

end Owned

end DealPacing
