import DealPacing.Proofs.Time.TimeStamps
import DealPacing.Wire.Codec

/-!
# Codecs that restore what they read

A value need not be written as it was read: a record read from an array is written as an object,
members that are absent or `null` are left out or get their default, and a time stamp is written in
UTC. But what is written is read as the same value again. This holds of the scalars and is inherited
by lists and records. Of a record it is shown by going through its fields in their declared order,
keeping account of the members that the fields read so far are to be found in.

## Main definitions

* `Restores`: what was read is read again from what is written for it, which is not `null`
* `Rereads`: the same of a reader of fields, given the members that they are written as
* `RoundTrips`: the law of a wire format, for a value read and for a value read and written

## Main results

* `restores_text`, `restores_int64`, `restores_instant`, ...: the scalars
* `restores_list`: lists
* `restores_record`: records, by `Rereads.required`, `Rereads.optional`, `Rereads.raw`,
  `Rereads.defaulted` and `Rereads.done`
* `Restores.roundTrips`: a codec that restores what it reads round-trips
-/

namespace DealPacing.Wire

variable {α β : Type}

/-- What was read is read again from what is written for it, which is never the `null` that stands
for nothing. -/
structure Restores (decode : Decoder α) (encode : α → Json) : Prop where
  decode_encode : ∀ {v x}, decode v = some x → decode (encode x) = some x
  encode_ne_null : ∀ x, encode x ≠ .null

/-! ## Scalars and lists -/

theorem restores_text : Restores text .str where
  decode_encode _ := rfl
  encode_ne_null _ := nofun

theorem restores_float : Restores float .float where
  decode_encode _ := rfl
  encode_ne_null _ := nofun

/-- The integer of a value that is one. -/
theorem of_asInt? {v : Json} {n : Int} (h : v.asInt? = some n) : fitsInt64 n = true := by
  unfold Json.asInt? at h
  split at h
  · obtain ⟨hfits, h⟩ := Option.ite_none_right_eq_some.mp h
    obtain rfl := Option.some.inj h
    exact hfits
  · cases h

theorem restores_int64 : Restores int64 .int where
  decode_encode h := if_pos (of_asInt? h)
  encode_ne_null _ := nofun

theorem restores_int32 : Restores int32 .int where
  decode_encode {v n} h := by
    unfold int32 at h
    split at h
    · obtain ⟨hfits, h⟩ := Option.ite_none_right_eq_some.mp h
      obtain rfl := Option.some.inj h
      exact if_pos hfits
    · cases h
  encode_ne_null _ := nofun

theorem restores_word64 : Restores word64 .nat where
  decode_encode {v n} h := by
    unfold word64 at h
    split at h
    · next m =>
      obtain ⟨hfits, h⟩ := Option.ite_none_right_eq_some.mp h
      obtain rfl := Option.some.inj h
      -- the word is written as the integer that it was read from
      have hm : (m.toNat : Int) = m := by
        rw [Bool.and_eq_true, decide_eq_true_eq] at hfits
        exact Int.toNat_of_nonneg hfits.1
      unfold Json.nat
      rw [hm]
      exact if_pos hfits
    · cases h
  encode_ne_null _ := nofun

theorem restores_instant : Restores instant encodeInstant where
  decode_encode {v t} h := by
    unfold instant at h
    split at h
    · exact Instant.parse?_formatShortest (Instant.isReadable_of_parse? h)
    · cases h
  encode_ne_null _ := nofun

/-- The elements of a list are restored one by one. -/
theorem Restores.mapM_map {decode : Decoder α} {encode : α → Json} (h : Restores decode encode)
    {items : List Json} {xs : List α} (hitems : items.mapM decode = some xs) :
    (xs.map encode).mapM decode = some xs := by
  induction items generalizing xs with
  | nil =>
    obtain rfl := Option.some.inj hitems
    rfl
  | cons v items ih =>
    rw [List.mapM_cons] at hitems
    obtain ⟨x, hx, hitems⟩ := Option.bind_eq_some_iff.mp hitems
    obtain ⟨rest, hrest, hitems⟩ := Option.bind_eq_some_iff.mp hitems
    obtain rfl := Option.some.inj hitems
    rw [List.map_cons, List.mapM_cons, h.decode_encode hx, ih hrest]
    rfl

theorem restores_list {decode : Decoder α} {encode : α → Json} (h : Restores decode encode) :
    Restores (list decode) (encodeList encode) where
  decode_encode {v xs} hv := by
    unfold list at hv
    split at hv
    · exact h.mapM_map hv
    · cases hv
  encode_ne_null _ := nofun

/-! ## Single fields

What a field was read from does not matter when it is written: a field that was found anywhere is
found again in an object with the right member.
-/

section Fields

variable {name : String} {decode : Decoder α} {s t : Fields} {entries : List (String × Json)}

theorem run_nextField_bind (k : Option Json → FieldReader β) :
    (nextField name >>= k).run (.named entries) = (k (entries.lookup name)).run (.named entries) :=
  rfl

theorem run_lift {o : Option α} {a : α} (h : o = some a) :
    (StateT.lift o : FieldReader α).run s = some (a, s) := by
  rw [h]
  rfl

theorem eq_some_of_run_lift {o : Option α} {a : α}
    (h : (StateT.lift o : FieldReader α).run s = some (a, t)) : o = some a := by
  obtain ⟨b, hb, h⟩ := Option.bind_eq_some_iff.mp h
  obtain ⟨rfl, -⟩ := Prod.mk.inj (Option.some.inj h)
  exact hb

theorem exists_of_required {a : α} (h : (required name decode).run s = some (a, t)) :
    ∃ v, decode v = some a := by
  obtain ⟨⟨_ | v, s'⟩, -, h⟩ := Option.bind_eq_some_iff.mp h
  · cases h
  · -- a required field that is absent is refused, so there is a value
    exact ⟨v, eq_some_of_run_lift h⟩

theorem required_named {v : Json} {a : α} (hv : entries.lookup name = some v)
    (ha : decode v = some a) :
    (required name decode).run (.named entries) = some (a, .named entries) := by
  rw [required, run_nextField_bind, hv]
  exact run_lift ha

theorem exists_of_defaulted {a default : α}
    (h : (defaulted name decode default).run s = some (a, t)) :
    a = default ∨ ∃ v, decode v = some a := by
  obtain ⟨⟨_ | v, s'⟩, -, h⟩ := Option.bind_eq_some_iff.mp h
  · -- the field is absent
    obtain ⟨rfl, -⟩ := Prod.mk.inj (Option.some.inj h)
    exact .inl rfl
  · exact .inr ⟨v, eq_some_of_run_lift h⟩

theorem defaulted_named {v : Json} {a default : α} (hv : entries.lookup name = some v)
    (ha : decode v = some a) :
    (defaulted name decode default).run (.named entries) = some (a, .named entries) := by
  rw [defaulted, run_nextField_bind, hv]
  exact run_lift ha

theorem nullable_of_ne_null {v : Json} (hv : v ≠ .null) :
    nullable decode v = (decode v).map some := by
  unfold nullable
  split
  · exact absurd rfl hv
  · rfl

/-- Only `null` is read as nothing, so that a value comes from another one. -/
theorem exists_of_optional {a : α} (h : (optional name decode).run s = some (some a, t)) :
    ∃ v, v ≠ .null ∧ decode v = some a := by
  obtain ⟨⟨_ | v, s'⟩, -, h⟩ := Option.bind_eq_some_iff.mp h
  · cases h
  · have hv := eq_some_of_run_lift h
    have hnull : v ≠ .null := by
      rintro rfl
      cases hv
    rw [nullable_of_ne_null hnull] at hv
    obtain ⟨b, hb, hsome⟩ := Option.map_eq_some_iff.mp hv
    obtain rfl := Option.some.inj hsome
    exact ⟨v, hnull, hb⟩

theorem optional_named {v : Json} {a : α} (hv : entries.lookup name = some v) (hnull : v ≠ .null)
    (ha : decode v = some a) :
    (optional name decode).run (.named entries) = some (some a, .named entries) := by
  rw [optional, run_nextField_bind, hv]
  apply run_lift
  rw [nullable_of_ne_null hnull, ha, Option.map_some]

theorem optional_named_none (hv : entries.lookup name = none) :
    (optional name decode).run (.named entries) = some (none, .named entries) := by
  rw [optional, run_nextField_bind, hv]
  rfl

end Fields

/-! ## Records -/

/-- The members of an object that are written. -/
abbrev written (members : List Member) : List (String × Json) := members.filterMap id

theorem lookup_cons (name key : String) (v : Json) (entries : List (String × Json)) :
    ((name, v) :: entries).lookup key = if key = name then some v else entries.lookup key := by
  rw [List.lookup_cons]
  split
  · next h => rw [if_pos (eq_of_beq h)]
  · next h => rw [if_neg (ne_of_beq_false h)]

@[simp] theorem lookup_member (name key : String) (v : Json) (members : List Member) :
    (written (member name v :: members)).lookup key =
      if key = name then some v else (written members).lookup key :=
  lookup_cons name key v (written members)

@[simp] theorem lookup_rawMember (name key : String) (v : Option Json) (members : List Member) :
    (written (rawMember name v :: members)).lookup key =
      if key = name then v.or ((written members).lookup key)
      else (written members).lookup key := by
  cases v with
  | none => exact (ite_self _).symm
  | some v => exact lookup_cons name key v (written members)

@[simp] theorem lookup_optionalMember (name key : String) (encode : α → Json) (x : Option α)
    (members : List Member) : (written (optionalMember name encode x :: members)).lookup key =
      if key = name then (x.map encode).or ((written members).lookup key)
      else (written members).lookup key := by
  have hmember : optionalMember name encode x = rawMember name (x.map encode) := by
    cases x <;> rfl
  rw [hmember, lookup_rawMember]

/-- What the reader finds anywhere it finds again in the members that are written for it, and
these have the known values. -/
def Rereads (fields : FieldReader α) (members : α → List Member)
    (known : List (String × Option Json)) : Prop :=
  ∀ ⦃s x t⦄, fields.run s = some (x, t) →
    (∀ p ∈ known, (written (members x)).lookup p.1 = p.2) ∧
      fields.run (.named (written (members x))) = some (x, .named (written (members x)))

namespace Rereads

variable {decode : Decoder α} {encode : α → Json} {name : String} {members : β → List Member}
  {known : List (String × Option Json)}

/-- A field that is read again from its member is followed by the fields after it. -/
theorem bind {m : FieldReader α} {f : α → FieldReader β} {value : α → Option Json}
    (hm : ∀ {s a t entries}, m.run s = some (a, t) → entries.lookup name = value a →
      m.run (.named entries) = some (a, .named entries))
    (hf : ∀ a, Rereads (f a) members ((name, value a) :: known)) :
    Rereads (m >>= f) members known := by
  intro s x t h
  rw [StateT.run_bind] at h
  obtain ⟨⟨a, s'⟩, ha, hx⟩ := Option.bind_eq_some_iff.mp h
  -- the fields behind it tell that the member of the field is among those that are written
  obtain ⟨hknown, hrest⟩ := hf a hx
  obtain ⟨hname, hknown⟩ := List.forall_mem_cons.mp hknown
  refine ⟨hknown, ?_⟩
  rw [StateT.run_bind, hm ha hname]
  exact hrest

theorem required {f : α → FieldReader β} (h : Restores decode encode)
    (hf : ∀ a, Rereads (f a) members ((name, some (encode a)) :: known)) :
    Rereads (required name decode >>= f) members known := by
  refine bind (fun ha hname => ?_) hf
  obtain ⟨v, hv⟩ := exists_of_required ha
  exact required_named hname (h.decode_encode hv)

theorem defaulted {default : α} {f : α → FieldReader β} (h : Restores decode encode)
    (hdefault : decode (encode default) = some default)
    (hf : ∀ a, Rereads (f a) members ((name, some (encode a)) :: known)) :
    Rereads (defaulted name decode default >>= f) members known := by
  refine bind (fun ha hname => ?_) hf
  -- a default is written too, and then read as a value
  rcases exists_of_defaulted ha with rfl | ⟨v, hv⟩
  · exact defaulted_named hname hdefault
  · exact defaulted_named hname (h.decode_encode hv)

theorem optional {f : Option α → FieldReader β} (h : Restores decode encode)
    (hf : ∀ a, Rereads (f a) members ((name, a.map encode) :: known)) :
    Rereads (optional name decode >>= f) members known := by
  refine bind (fun {s a t entries} ha hname => ?_) hf
  cases a with
  | none => exact optional_named_none hname
  | some a =>
    obtain ⟨v, -, hv⟩ := exists_of_optional ha
    exact optional_named hname (h.encode_ne_null a) (h.decode_encode hv)

/-- A field that is kept as it is holds no `null`, since that has been read as nothing. -/
theorem raw {f : Option Json → FieldReader β}
    (hf : ∀ a, Rereads (f a) members ((name, a) :: known)) :
    Rereads (Wire.optional name Wire.raw >>= f) members known := by
  refine bind (fun {s a t entries} ha hname => ?_) hf
  cases a with
  | none => exact optional_named_none hname
  | some a =>
    obtain ⟨v, hnull, hv⟩ := exists_of_optional ha
    obtain rfl := Option.some.inj hv
    exact optional_named hname hnull rfl

/-- All fields are read, and their values known. -/
theorem done {x : β} (hx : ∀ p ∈ known, (written (members x)).lookup p.1 = p.2) :
    Rereads (pure x) members known := by
  intro s y t h
  obtain ⟨rfl, -⟩ := Prod.mk.inj (Option.some.inj h)
  exact ⟨hx, rfl⟩

end Rereads

/-- A record is restored when its reader finds the fields again. -/
theorem restores_record {fields : FieldReader α} {members : α → List Member}
    (h : Rereads fields members []) :
    Restores (record fields) fun x => ofFields (members x) where
  decode_encode {v x} hv := by
    -- an object and an array are read by the same fields
    have hread : ∃ s t, fields.run s = some (x, t) := by
      unfold record at hv
      split at hv
      · obtain ⟨⟨y, t⟩, hrun, rfl⟩ := Option.map_eq_some_iff.mp hv
        exact ⟨_, t, hrun⟩
      · split at hv
        · next hrun =>
          obtain rfl := Option.some.inj hv
          exact ⟨_, _, hrun⟩
        · cases hv
      · cases hv
    obtain ⟨s, t, hrun⟩ := hread
    show (fields.run (.named (written (members x)))).map Prod.fst = some x
    rw [(h hrun).2, Option.map_some]
  encode_ne_null _ := nofun

/-! ## Round trips -/

/-- Read a value, and write what was read. -/
def rewritten (decode : Decoder α) (encode : α → Json) (v : Json) : Option Json :=
  (decode v).map encode

/-- **The law of a wire format**: what is read is read again when it is written, so that a value
that has been read and written does not change when it is read and written again. -/
structure RoundTrips (decode : Decoder α) (encode : α → Json) : Prop where
  decode_encode : ∀ {v x}, decode v = some x → decode (encode x) = some x
  rewritten_rewritten : ∀ {v w}, rewritten decode encode v = some w →
    rewritten decode encode w = some w

theorem Restores.roundTrips {decode : Decoder α} {encode : α → Json}
    (h : Restores decode encode) : RoundTrips decode encode where
  decode_encode := h.decode_encode
  rewritten_rewritten {v w} hw := by
    obtain ⟨x, hx, rfl⟩ := Option.map_eq_some_iff.mp hw
    rw [rewritten, h.decode_encode hx, Option.map_some]

end DealPacing.Wire
