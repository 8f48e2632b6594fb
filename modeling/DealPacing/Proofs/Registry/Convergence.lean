import DealPacing.Proofs.Registry.Responses
import DealPacing.Proofs.Time.Instants

/-!
# A response that comes twice, or in another order

The planner may send a response again, and nothing says in which order its records come. A pacing
state under a list of records ends in one of two ways: a record starts a plan afresh, and then it
does not matter what was there before, or all records bring revisions of one plan, and then the
newest of them stays however often they come again. So a response that is applied twice leaves what
it left the first time, and if its ids are different, the order of its records does not matter.

## Main definitions

* `PacingValue.Covers`: the active plan is no older than the revision that a record brings
* `Engine.value?`: a registered line item as a value

## Main results

* `PacingValue.refreshedAll_or`: the two ways in which a list of records ends
* `Engine.update_converges`: responses are idempotent and free of order
-/

namespace DealPacing

/-- The id of the plan that a record brings at an instant. -/
def LineItemRecord.planIdAt? (record : LineItemRecord) (now : Instant) : Option String :=
  (record.scheduleAt? now).map (·.planId)

namespace PacingValue

variable {b : PacingValue} {record other : LineItemRecord} {now : Instant}

/-- The id of the active plan. -/
def planId? (b : PacingValue) : Option String := b.plan.map (·.id)

/-- After a record, the active plan is the one that the record brings. -/
theorem planId?_refreshed (b : PacingValue) (record : LineItemRecord) (now : Instant) :
    (b.refreshed record now).planId? = record.planIdAt? now := by
  unfold refreshed LineItemRecord.planIdAt? planId?
  cases record.scheduleAt? now with
  | none => rfl
  | some x =>
    cases hp : b.plan with
    | none => rfl
    | some v =>
      by_cases hid : v.id = x.planId
      · by_cases hnewer : v.updated < x.updated
        · simp only [if_pos hid, if_pos hnewer]
          rfl
        · simp [if_neg hnewer, hp, hid]
      · simp only [if_neg hid]
        rfl

/-- The record brings a revision of the active plan. -/
def Shares (b : PacingValue) (record : LineItemRecord) (now : Instant) : Prop :=
  ∃ x v, record.scheduleAt? now = some x ∧ b.plan = some v ∧ v.id = x.planId

theorem shares_iff : b.Shares record now ↔
    b.planId? = record.planIdAt? now ∧ record.planIdAt? now ≠ Option.none := by
  unfold Shares planId? LineItemRecord.planIdAt?
  cases record.scheduleAt? now <;> cases b.plan <;> simp

/-- Without a plan in common, a record starts afresh. -/
theorem refreshed_of_not_shares (h : ¬ b.Shares record now) :
    b.refreshed record now = none.refreshed record now := by
  unfold refreshed
  cases hx : record.scheduleAt? now with
  | none => rfl
  | some x =>
    cases hp : b.plan with
    | none => rfl
    | some v => exact if_neg fun hid => h ⟨x, v, hx, hp, hid⟩

/-- The active plan is the one that the record brings, and no older. -/
def Covers (b : PacingValue) (record : LineItemRecord) (now : Instant) : Prop :=
  ∃ x v, record.scheduleAt? now = some x ∧ b.plan = some v ∧ v.id = x.planId ∧
    ¬ v.updated < x.updated

/-- An old revision changes nothing. -/
theorem Covers.refreshed_eq (h : b.Covers record now) : b.refreshed record now = b := by
  obtain ⟨x, v, hx, hp, hid, hnewer⟩ := h
  simp only [refreshed, hx, hp, if_pos hid, if_neg hnewer]

/-- After a record that brings a plan, the active plan is no older than that. -/
theorem covers_refreshed (b : PacingValue) (h : record.planIdAt? now ≠ Option.none) :
    (b.refreshed record now).Covers record now := by
  obtain ⟨x, hx⟩ : ∃ x, record.scheduleAt? now = some x := by
    rw [LineItemRecord.planIdAt?, Ne, Option.map_eq_none_iff] at h
    exact Option.ne_none_iff_exists'.mp h
  have hsame : ¬ x.updated < x.updated := Int.lt_irrefl _
  unfold refreshed
  rw [hx]
  cases hp : b.plan with
  | none => exact ⟨x, _, hx, rfl, rfl, hsame⟩
  | some v =>
    by_cases hid : v.id = x.planId
    · by_cases hnewer : v.updated < x.updated
      · simp only [if_pos hid, if_pos hnewer]
        exact ⟨x, _, hx, rfl, rfl, hsame⟩
      · simp only [if_pos hid, if_neg hnewer]
        exact ⟨x, v, hx, hp, hid, hnewer⟩
    · simp only [if_neg hid]
      exact ⟨x, _, hx, rfl, rfl, hsame⟩

/-- A revision of the active plan does not make it older. -/
theorem Covers.refreshed (h : b.Covers other now) (hshares : b.Shares record now) :
    (b.refreshed record now).Covers other now := by
  obtain ⟨y, v, hy, hp, hidy, hold⟩ := h
  obtain ⟨x, v', hx, hp', hid⟩ := hshares
  obtain rfl := Option.some.inj (hp.symm.trans hp')
  unfold PacingValue.refreshed
  rw [hx, hp]
  by_cases hnewer : v.updated < x.updated
  · simp only [if_pos hid, if_pos hnewer]
    refine ⟨y, _, hy, rfl, hid.symm.trans hidy, fun hlt => hold ?_⟩
    exact Int.lt_trans hnewer hlt
  · simp only [if_pos hid, if_neg hnewer]
    exact ⟨y, v, hy, hp, hidy, hold⟩

/-! ## Lists of records -/

/-- The pacing state under records that come one after the other. -/
def refreshedAll (now : Instant) (b : PacingValue) (records : List LineItemRecord) : PacingValue :=
  records.foldl (fun b record => b.refreshed record now) b

theorem refreshedAll_concat (now : Instant) (b : PacingValue) (records : List LineItemRecord)
    (record : LineItemRecord) :
    b.refreshedAll now (records ++ [record]) =
      (b.refreshedAll now records).refreshed record now := by
  simp [refreshedAll]

/-- **A list of records either leaves the same wherever it starts, or it leaves a plan that is no
older than any of them.** -/
theorem refreshedAll_or (now : Instant) (b : PacingValue) (records : List LineItemRecord) :
    (∀ b' : PacingValue, b'.refreshedAll now records = b.refreshedAll now records) ∨
      ∀ record ∈ records, (b.refreshedAll now records).Covers record now := by
  induction records using List.reverseRecOn with
  | nil => exact Or.inr fun record h => nomatch h
  | append_singleton records record ih =>
    simp only [refreshedAll_concat]
    rcases ih with hconst | hcovers
    · exact Or.inl fun b' => by rw [hconst b']
    by_cases hnone : record.planIdAt? now = Option.none
    · -- without a plan at this instant, whatever was there is dropped
      have hfresh (b' : PacingValue) : b'.refreshed record now = none.refreshed record now :=
        refreshed_of_not_shares fun h => (shares_iff.mp h).2 hnone
      exact Or.inl fun b' => (hfresh _).trans (hfresh _).symm
    by_cases hshares : records = [] ∨ (b.refreshedAll now records).Shares record now
    · refine Or.inr fun other hother => ?_
      rcases List.mem_append.mp hother with hother | hother
      · rcases hshares with rfl | hshares
        · cases hother
        · exact (hcovers other hother).refreshed hshares
      · rw [List.mem_singleton.mp hother]
        exact covers_refreshed _ hnone
    · -- the record before this one brought another plan, whatever was there at the start
      obtain ⟨hne, hshares⟩ := not_or.mp hshares
      obtain ⟨before, last, rfl⟩ := (List.eq_nil_or_concat records).resolve_left hne
      have hfresh (b' : PacingValue) :
          (b'.refreshedAll now (before.concat last)).refreshed record now =
            none.refreshed record now := by
        refine refreshed_of_not_shares fun h => hshares ?_
        rw [shares_iff, List.concat_eq_append, refreshedAll_concat, planId?_refreshed] at h ⊢
        exact h
      exact Or.inl fun b' => (hfresh b').trans (hfresh b).symm

/-- Records that come again change nothing. -/
theorem refreshedAll_refreshedAll (now : Instant) (b : PacingValue)
    (records : List LineItemRecord) :
    (b.refreshedAll now records).refreshedAll now records = b.refreshedAll now records := by
  rcases refreshedAll_or now b records with hconst | hcovers
  · exact hconst _
  · generalize b.refreshedAll now records = b' at hcovers
    induction records with
    | nil => rfl
    | cons record records ih =>
      have hfirst := (hcovers record (by simp)).refreshed_eq
      rw [refreshedAll, List.foldl_cons, hfirst]
      exact ih fun other hother => hcovers other (by simp [hother])

end PacingValue

/-! ## Lists of entries -/

theorem pacing?_foldl_apply (now : Instant) (es : List Entry) (v? : Option LineItemValue) :
    LineItemValue.pacing? (es.foldl (Entry.apply now) v?) =
      (LineItemValue.pacing? v?).refreshedAll now (es.map (·.record)) := by
  rw [PacingValue.refreshedAll, List.foldl_map]
  exact (List.foldl_hom LineItemValue.pacing? fun _ _ => rfl).symm

/-- What entries leave depends on the pacing state that they start from. -/
theorem foldl_apply_eq {now : Instant} {es : List Entry} (hes : es ≠ [])
    {v? v'? : Option LineItemValue}
    (h : LineItemValue.pacing? (es.foldl (Entry.apply now) v?) =
      LineItemValue.pacing? (es.foldl (Entry.apply now) v'?)) :
    es.foldl (Entry.apply now) v? = es.foldl (Entry.apply now) v'? := by
  obtain ⟨before, e, rfl⟩ := (List.eq_nil_or_concat es).resolve_left hes
  rw [List.concat_eq_append, List.foldl_append, List.foldl_append] at h ⊢
  -- the last entry gives everything but the pacing state
  exact congrArg (fun b => some (LineItemValue.mk e.record e.cpm e.record.expression? b)) h

/-- Entries that come again change nothing. -/
theorem foldl_apply_foldl_apply (now : Instant) (es : List Entry) (v? : Option LineItemValue) :
    es.foldl (Entry.apply now) (es.foldl (Entry.apply now) v?) = es.foldl (Entry.apply now) v? := by
  by_cases hes : es = []
  · rw [hes]
    rfl
  · apply foldl_apply_eq hes
    rw [pacing?_foldl_apply, pacing?_foldl_apply, PacingValue.refreshedAll_refreshedAll]

/-! ## Responses -/

namespace Registry

variable {r : Registry} {records records' : List LineItemRecord} {now : Instant} {id : String}

theorem value?_relieved_of_retired
    (h : ∃ record ∈ records, record.lineItemId = id ∧ record.isRetired now = true) (s : Spending) :
    (r.relieved records now).value? s id = none := by
  obtain ⟨record, hmem, hid, hretired⟩ := h
  cases hx : (r.relieved records now).get? id with
  | none => rw [value?, hx, Option.map_none]
  | some x =>
    rw [(get?_relieved_eq_some_iff.mp hx).2.2 record hmem hid] at hretired
    cases hretired

theorem get?_relieved_of_current
    (h : ∀ record ∈ records, record.lineItemId = id → record.isRetired now = false)
    (hcurrent : ∀ x, r.get? id = some x → x.record.isExpired now = false) :
    (r.relieved records now).get? id = r.get? id :=
  Option.ext fun x =>
    get?_relieved_eq_some_iff.trans ⟨And.left, fun hx => ⟨hx, hcurrent x hx, h⟩⟩

theorem get?_relieved_of_perm (h : records'.Perm records) :
    (r.relieved records' now).get? id = (r.relieved records now).get? id :=
  Option.ext fun x => by simp only [get?_relieved_eq_some_iff, h.mem_iff]

end Registry

/-- Of records with different ids, each id has one entry at most. -/
theorem eq_of_mem_entriesOf {pricing : Pricing} {now : Instant} {records : List LineItemRecord}
    (hd : (records.map (·.lineItemId)).Nodup) {id : String} {e e' : Entry}
    (he : e ∈ entriesOf id (entries pricing now records))
    (he' : e' ∈ entriesOf id (entries pricing now records)) : e = e' := by
  obtain ⟨hmem, hid⟩ := mem_entriesOf_iff.mp he
  obtain ⟨hmem', hid'⟩ := mem_entriesOf_iff.mp he'
  obtain ⟨hrecord, -, hcpm⟩ := mem_entries_iff.mp hmem
  obtain ⟨hrecord', -, hcpm'⟩ := mem_entries_iff.mp hmem'
  have hsame : e.record = e'.record :=
    List.inj_on_of_nodup_map hd hrecord hrecord' (hid.trans hid'.symm)
  rw [hsame, hcpm', Except.ok.injEq] at hcpm
  cases e
  cases e'
  simp_all

namespace Engine

/-- A registered line item as a value. -/
def value? (e : Engine) (id : String) : Option LineItemValue := e.registry.value? e.spending id

variable {e : Engine}

theorem Sound.value?_update (h : e.Sound) (records : List LineItemRecord) (now : Instant)
    (id : String) :
    (e.update records true now).1.value? id =
      (entriesOf id (entries e.pricing now records)).foldl (Entry.apply now)
        ((e.registry.relieved records now).value? e.spending id) := by
  obtain ⟨label, howned⟩ := h
  exact (howned.entering_update e.pricing records now).value?_eq id

/-- A response that comes again changes nothing. -/
theorem Sound.value?_update_update (h : e.Sound) (records : List LineItemRecord) (now : Instant)
    (id : String) :
    ((e.update records true now).1.update records true now).1.value? id =
      (e.update records true now).1.value? id := by
  have hupdated : (e.update records true now).1.Sound := h.move (.update records true now)
  have hfirst := h.value?_update records now id
  have hagain := hupdated.value?_update records now id
  by_cases hretired : ∃ record ∈ records, record.lineItemId = id ∧ record.isRetired now = true
  · -- the line item is removed both times, so both times the entries start from nothing
    rw [Registry.value?_relieved_of_retired hretired] at hfirst hagain
    exact hagain.trans hfirst.symm
  · -- the second time there is nothing to remove
    have hkept : ∀ record ∈ records, record.lineItemId = id → record.isRetired now = false :=
      fun record hmem hid => Bool.eq_false_iff.mpr fun h => hretired ⟨record, hmem, hid, h⟩
    obtain ⟨label, howned⟩ := h
    have hfollows := howned.follows e.pricing records now
    -- no line item has ended after the first time
    have hstart : ((e.update records true now).1.registry.relieved records now).value?
        (e.update records true now).1.spending id = (e.update records true now).1.value? id :=
      congrArg (Option.map _)
        (Registry.get?_relieved_of_current hkept fun _ hx => hfollows.current hx)
    rw [hagain, hstart, hfirst]
    exact foldl_apply_foldl_apply now _ _

/-- The order of records with different ids does not matter. -/
theorem Sound.value?_update_of_perm (h : e.Sound) {records records' : List LineItemRecord}
    (hp : records'.Perm records) (hd : (records.map (·.lineItemId)).Nodup) (now : Instant)
    (id : String) :
    (e.update records' true now).1.value? id = (e.update records true now).1.value? id := by
  have hentries : (entriesOf id (entries e.pricing now records)).Perm
      (entriesOf id (entries e.pricing now records')) :=
    (hp.symm.filterMap _).filter _
  rw [h.value?_update, h.value?_update, Registry.value?, Registry.get?_relieved_of_perm hp]
  -- an id has one entry at most, so there are no two that could change places
  refine (hentries.foldl_eq' (fun a ha a' ha' v? => ?_) _).symm
  rw [eq_of_mem_entriesOf hd ha ha']

/-- **Responses are idempotent and free of order.** -/
theorem update_converges (c : Config) (start : Instant) (moves : List Move)
    (records : List LineItemRecord) (now : Instant) :
    let e := run c start moves
    (∀ id, ((e.update records true now).1.update records true now).1.value? id =
        (e.update records true now).1.value? id) ∧
      ∀ records', records'.Perm records → (records.map (·.lineItemId)).Nodup → ∀ id,
        (e.update records' true now).1.value? id = (e.update records true now).1.value? id := by
  have h := sound_run c start moves
  exact ⟨h.value?_update_update records now, fun _ hp hd => h.value?_update_of_perm hp hd now⟩

/-- Revisions of the plans of two line items, in both orders. -/
theorem update_converges_reversed :
    let moves := [.update [twoHours [⟨1, 2⟩] [] (hour 0)] true (hour 0), .spend "lineItem"]
    let e := run {} (hour 0) moves
    let newer := twoHours [⟨1, 3⟩] [] (hour 1)
    let other := { newer with lineItemId := "other" }
    [other, newer].Perm [newer, other] ∧ ([newer, other].map (·.lineItemId)).Nodup ∧
      ∀ id, (e.update [other, newer] true (hour 0)).1.value? id =
        (e.update [newer, other] true (hour 0)).1.value? id := by
  intro moves e newer other
  have hp : [other, newer].Perm [newer, other] := .swap newer other []
  have hd : ([newer, other].map (·.lineItemId)).Nodup := by decide
  exact ⟨hp, hd, (update_converges {} (hour 0) moves [newer, other] (hour 0)).2 _ hp hd⟩

end Engine

end DealPacing
