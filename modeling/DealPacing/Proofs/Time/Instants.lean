import DealPacing.Time.Instant

/-!
# Instants outside leap seconds

Outside leap seconds an instant is the number of its nanoseconds since the epoch, and the operations
on instants are additions and roundings of that number.

## Main definitions

* `Instant.Plain`: instants outside leap seconds
* `Instant.nanos`: the nanoseconds since the epoch
* `Instant.cutToMillis`: whole milliseconds, also within leap seconds
* `Instant.wholeMillisSince`: the milliseconds from an instant on, also out of a leap second

## Main results

* `Plain.lt_iff`, `Plain.le_iff`: instants are ordered by their nanoseconds
* `Plain.nanosSince_eq`, `Plain.nanos_addMillis`: differences and sums
* `Plain.addMillis_lt`: less than the milliseconds between two instants stays before the second
* `cutToMillis_le_ofMillis`: counted in milliseconds since the epoch an instant is cut, or put off
  beyond its leap second
* `wholeMillisSince_addMillis`, `le_wholeMillisSince`: the milliseconds that were added are those
  that have passed
-/

namespace DealPacing.Instant

theorem le_trans {a b c : Instant} (hab : a ≤ b) (hbc : b ≤ c) : a ≤ c := Int.le_trans hab hbc

theorem lt_of_le_of_lt {a b c : Instant} (hab : a ≤ b) (hbc : b < c) : a < c :=
  Int.lt_of_le_of_lt hab hbc

/-- The instant lies outside leap seconds. -/
def Plain (t : Instant) : Prop := t.nano < 1000000000

instance (t : Instant) : Decidable t.Plain := inferInstanceAs (Decidable (_ < _))

/-- The nanoseconds from the epoch to an instant outside leap seconds. -/
def nanos (t : Instant) : Int := t.second * 1000000000 + t.nano

theorem plain_normalized (second nano : Int) : (normalized second nano).Plain := by
  simp only [Plain, normalized]
  omega

theorem nanos_normalized (second nano : Int) :
    (normalized second nano).nanos = second * 1000000000 + nano := by
  simp only [nanos, normalized]
  omega

theorem plain_ofMillis (n : Int) : (ofMillis n).Plain := by
  simp only [Plain, ofMillis]
  omega

theorem nanos_ofMillis (n : Int) : (ofMillis n).nanos = n * 1000000 := by
  simp only [nanos, ofMillis]
  omega

theorem millis_eq (t : Instant) : t.millis = t.nanos / 1000000 := by
  simp only [millis, nanos]
  omega

/-- The instant without its part of a millisecond. -/
def cutToMillis (t : Instant) : Instant :=
  ⟨t.second, t.nano / 1000000 * 1000000, by have := t.nano_lt; omega⟩

theorem cutToMillis_mono {a b : Instant} (h : a ≤ b) : a.cutToMillis ≤ b.cutToMillis := by
  have ha := a.nano_lt
  have hb := b.nano_lt
  simp only [le_iff, rank, cutToMillis] at *
  omega

theorem cutToMillis_le_cutToMillis {a b : Instant} (h : a.cutToMillis ≤ b) :
    a.cutToMillis ≤ b.cutToMillis := by
  have ha := a.nano_lt
  have hb := b.nano_lt
  simp only [le_iff, rank, cutToMillis] at *
  omega

theorem millis_cutToMillis (t : Instant) : t.cutToMillis.millis = t.millis := by
  simp only [millis, cutToMillis]
  omega

theorem cutToMillis_le_ofMillis (t : Instant) : t.cutToMillis ≤ ofMillis t.millis := by
  have h := t.nano_lt
  simp only [le_iff, rank, cutToMillis, ofMillis, millis]
  omega

/-- Counted in milliseconds an instant lies in its second or, out of a leap second, in the next. -/
theorem second_le_of_ofMillis_millis_le {t b : Instant} (h : ofMillis t.millis ≤ b) :
    t.second ≤ b.second := by
  have hb := b.nano_lt
  simp only [le_iff, rank, ofMillis, millis] at h
  omega

theorem addMillis_zero (t : Instant) : t.addMillis 0 = t := by
  have h := t.nano_lt
  refine rank_injective ?_
  simp only [addMillis, normalized, rank, Int.zero_tdiv, Int.zero_tmod]
  split
  · simp
    omega
  · simp
    omega

namespace Plain

variable {a b : Instant}

theorem cutToMillis (ha : a.Plain) : a.cutToMillis.Plain := by
  simp only [Plain, Instant.cutToMillis] at *
  omega

theorem lt_iff (ha : a.Plain) (hb : b.Plain) : a < b ↔ a.nanos < b.nanos := by
  simp only [Plain, Instant.lt_iff, rank, nanos] at *
  omega

theorem le_iff (ha : a.Plain) (hb : b.Plain) : a ≤ b ↔ a.nanos ≤ b.nanos := by
  simp only [Plain, Instant.le_iff, rank, nanos] at *
  omega

theorem nanosSince_eq (ha : a.Plain) (hb : b.Plain) : a.nanosSince b = a.nanos - b.nanos := by
  have ha' : ¬ 1000000000 ≤ a.nano := Nat.not_le.mpr ha
  have hb' : ¬ 1000000000 ≤ b.nano := Nat.not_le.mpr hb
  simp only [nanosSince, nanos, ha', hb', decide_false, Bool.and_false, Bool.false_eq_true,
    if_false]
  omega

theorem addMillis_eq (ha : a.Plain) (n : Int) :
    a.addMillis n = normalized (a.second + n.tdiv 1000) (a.nano + n.tmod 1000 * 1000000) := by
  have ha' : ¬ 1000000000 ≤ a.nano := Nat.not_le.mpr ha
  simp only [addMillis, if_neg ha']

theorem plain_addMillis (ha : a.Plain) (n : Int) : (a.addMillis n).Plain := by
  rw [ha.addMillis_eq]
  exact plain_normalized _ _

theorem nanos_addMillis (ha : a.Plain) (n : Int) :
    (a.addMillis n).nanos = a.nanos + n * 1000000 := by
  have hn : 1000 * n.tdiv 1000 + n.tmod 1000 = n := Int.mul_tdiv_add_tmod n 1000
  rw [ha.addMillis_eq, nanos_normalized]
  simp only [nanos]
  omega

theorem millis_addMillis (ha : a.Plain) (n : Int) : (a.addMillis n).millis = a.millis + n := by
  rw [millis_eq, ha.nanos_addMillis, millis_eq]
  omega

/-- Cut to milliseconds an instant is no later. -/
theorem ofMillis_millis_le (ha : a.Plain) : ofMillis a.millis ≤ a := by
  rw [le_iff (plain_ofMillis _) ha, nanos_ofMillis, millis_eq]
  omega

/-- Some milliseconds later it is no earlier second. -/
theorem second_le_addMillis (ha : a.Plain) {n : Int} (hn : 0 ≤ n) :
    a.second ≤ (a.addMillis n).second := by
  have hseconds : 0 ≤ n.tdiv 1000 := Int.tdiv_nonneg hn (by decide)
  have hmillis : 0 ≤ n.tmod 1000 := Int.tmod_nonneg 1000 hn
  rw [ha.addMillis_eq]
  simp only [normalized]
  omega

/-- Zero milliseconds after `a`, and fewer than the milliseconds from `a` to `b`, it is not yet
`b`. -/
theorem addMillis_lt (ha : a.Plain) (hb : b.Plain) (hab : a < b) {n : Int}
    (hn : n = 0 ∨ n < b.millisSince a) : a.addMillis n < b := by
  have hnanos : a.nanos < b.nanos := (lt_iff ha hb).mp hab
  rw [lt_iff (ha.plain_addMillis n) hb, ha.nanos_addMillis]
  rw [millisSince, nanosSince_eq hb ha, Int.tdiv_eq_ediv_of_nonneg (by omega)] at hn
  omega

end Plain

/-! ## Milliseconds from an instant on -/

/-- The milliseconds from `start` to `t`, both cut. The milliseconds since the epoch leave out leap
seconds, so one that `start` lies in is added when it is over. -/
def wholeMillisSince (t start : Instant) : Int :=
  t.millis - start.millis +
    if 1000000000 ≤ start.nano ∧ start.second < t.second then 1000 else 0

variable {start : Instant}

theorem Plain.wholeMillisSince_eq (h : start.Plain) (t : Instant) :
    t.wholeMillisSince start = t.millis - start.millis := by
  have hstart : ¬ (1000000000 ≤ start.nano ∧ start.second < t.second) :=
    fun hleap => Nat.not_le.mpr h hleap.1
  rw [wholeMillisSince, if_neg hstart, Int.add_zero]

theorem wholeMillisSince_cutToMillis (t start : Instant) :
    t.cutToMillis.wholeMillisSince start = t.wholeMillisSince start := by
  rw [wholeMillisSince, millis_cutToMillis]
  rfl

/-- Some milliseconds after an instant in a leap second it is still that leap second, or a second
after it. -/
theorem addMillis_of_leap (h : 1000000000 ≤ start.nano) {n : Int} (hn : 0 ≤ n) :
    ((start.addMillis n).second = start.second ∧
        ((start.addMillis n).nano : Int) = start.nano + n * 1000000) ∨
      ((start.addMillis n).Plain ∧ start.second < (start.addMillis n).second ∧
        (start.addMillis n).nanos = start.nanos - 1000000000 + n * 1000000) := by
  have hsum : 1000 * n.tdiv 1000 + n.tmod 1000 = n := Int.mul_tdiv_add_tmod n 1000
  have hseconds : 0 ≤ n.tdiv 1000 := Int.tdiv_nonneg hn (by decide)
  have hmillis : 0 ≤ n.tmod 1000 := Int.tmod_nonneg 1000 hn
  by_cases hover : 0 < n.tdiv 1000 ∨
      0 < n.tmod 1000 * 1000000 ∧ (2000000000 : Int) ≤ start.nano + n.tmod 1000 * 1000000
  · refine .inr ?_
    have hadd : start.addMillis n = normalized (start.second + n.tdiv 1000)
        (start.nano - 1000000000 + n.tmod 1000 * 1000000) := by
      simp only [addMillis, h, if_true, Bool.or_eq_true, Bool.and_eq_true, decide_eq_true_eq, hover]
    rw [hadd]
    refine ⟨plain_normalized _ _, ?_, ?_⟩
    · simp only [normalized]
      omega
    · rw [nanos_normalized]
      simp only [nanos]
      omega
  · refine .inl ?_
    have hlt := start.nano_lt
    have hnext : ¬ n.tdiv 1000 < 0 := by omega
    simp only [addMillis, h, if_true, Bool.or_eq_true, Bool.and_eq_true, decide_eq_true_eq, hover,
      hnext, if_false, true_and]
    omega

/-- As many milliseconds have passed as were added. -/
theorem wholeMillisSince_addMillis (start : Instant) {n : Int} (hn : 0 ≤ n) :
    (start.addMillis n).wholeMillisSince start = n := by
  by_cases hleap : 1000000000 ≤ start.nano
  · simp only [wholeMillisSince, hleap, true_and]
    rcases addMillis_of_leap hleap hn with ⟨hsecond, hnano⟩ | ⟨-, hsecond, hnanos⟩
    · rw [if_neg (by omega)]
      simp only [millis]
      omega
    · rw [if_pos hsecond, millis_eq, millis_eq, hnanos]
      omega
  · have hplain : start.Plain := Nat.not_le.mp hleap
    rw [hplain.wholeMillisSince_eq, hplain.millis_addMillis]
    omega

/-- Later than an instant outside leap seconds, or in that of `start`, no fewer milliseconds have
passed. -/
theorem wholeMillisSince_mono {a b : Instant}
    (ha : a.Plain ∨ a.second = start.second ∧ 1000000000 ≤ start.nano) (h : a ≤ b) :
    a.wholeMillisSince start ≤ b.wholeMillisSince start := by
  have hnano := a.nano_lt
  simp only [Plain, le_iff, rank, wholeMillisSince, millis] at *
  split <;> split <;> omega

/-- From `n` milliseconds after `start` on, cut, at least `n` milliseconds have passed. -/
theorem le_wholeMillisSince {t : Instant} {n : Int} (hn : 0 ≤ n)
    (h : (start.addMillis n).cutToMillis ≤ t) : n ≤ t.wholeMillisSince start := by
  have hsum : (start.addMillis n).cutToMillis.Plain ∨
      (start.addMillis n).cutToMillis.second = start.second ∧ 1000000000 ≤ start.nano := by
    by_cases hleap : 1000000000 ≤ start.nano
    · rcases addMillis_of_leap hleap hn with ⟨hsecond, -⟩ | ⟨hplain, -⟩
      · exact .inr ⟨hsecond, hleap⟩
      · exact .inl hplain.cutToMillis
    · exact .inl (Plain.plain_addMillis (Nat.not_le.mp hleap) n).cutToMillis
  have hmono := wholeMillisSince_mono hsum h
  rwa [wholeMillisSince_cutToMillis, wholeMillisSince_addMillis start hn] at hmono

end DealPacing.Instant
