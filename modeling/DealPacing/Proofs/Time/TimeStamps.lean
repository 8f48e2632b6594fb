import DealPacing.Proofs.Time.Calendar
import DealPacing.Time.Rfc3339
import Mathlib.Data.List.Induction
import Mathlib.Data.List.TakeWhile

/-!
# Time stamps are read as they are written

A written time stamp is a sequence of numbers with as many digits as their fields take, and marks
between them. The reader takes it apart piece by piece, and what it finds are the fields of the
instant. Not every instant can be read: a leap second is the last second of its minute, and the year
has to be one that can be named. Whatever is read is such an instant, and is read again, to the
nanosecond, when it is written with the fewest exact digits.

## Main definitions

* `Instant.IsReadable`: the instants that can be read

## Main results

* `Instant.isReadable_of_parse?`: only readable instants are read
* `Instant.Scan.fields_format`: the fields of a written time stamp
* `Instant.parse?_formatShortest`: a readable instant is read again
-/

namespace DealPacing.Instant

namespace Scan

/-! ## Numbers -/

theorem digitsValue_eq (cs : List Char) : digitsValue cs = Nat.ofDigitChars 10 cs 0 := by
  unfold digitsValue Nat.ofDigitChars
  congr
  funext n c
  rw [Nat.mul_comm]

/-- The digits of a number with at least `width` of them. -/
theorem toList_padded (width n : Nat) : (padded width n).toList =
    List.replicate (width - (Nat.toDigits 10 n).length) '0' ++ Nat.toDigits 10 n := by
  rw [padded, String.toList_append, String.toList_ofList, ← String.length_toList, Nat.toList_repr]

theorem isDigit_padded {width n : Nat} {c : Char} (hc : c ∈ (padded width n).toList) :
    c.isDigit = true := by
  rw [toList_padded, List.mem_append] at hc
  rcases hc with hc | hc
  · rw [List.eq_of_mem_replicate hc]
    rfl
  · exact Nat.isDigit_of_mem_toDigits (by omega) (by omega) hc

theorem digitsValue_padded (width n : Nat) : digitsValue (padded width n).toList = n := by
  rw [digitsValue_eq, toList_padded, Nat.ofDigitChars_append, Nat.ofDigitChars_replicate_zero,
    Nat.mul_zero, Nat.ofDigitChars_ten_toDigits]

theorem padded_ne_nil (width n : Nat) : (padded width n).toList ≠ [] := by
  rw [toList_padded]
  exact List.append_ne_nil_of_right_ne_nil _ Nat.toDigits_ne_nil

/-- A number that fits its field fills it. -/
theorem length_padded {width n : Nat} (hwidth : 0 < width) (hn : n < 10 ^ width) :
    (padded width n).toList.length = width := by
  have hle := (Nat.length_toDigits_le_iff (by omega : 1 < 10) hwidth).mpr hn
  rw [toList_padded, List.length_append, List.length_replicate]
  omega

theorem isBlank_of_isDigit {c : Char} (hc : c.isDigit = true) : Text.isBlank c = false := by
  have hrange : 48 ≤ c.toNat ∧ c.toNat ≤ 57 := by
    simpa [Char.isDigit, UInt32.le_iff_toNat_le] using hc
  rw [Bool.eq_false_iff]
  simp only [Text.isBlank, ne_eq, Bool.or_eq_true, Bool.and_eq_true, decide_eq_true_eq, beq_iff_eq]
  omega

theorem trimStart_cons {c : Char} (hc : Text.isBlank c = false) (rest : List Char) :
    Text.trimStart (c :: rest) = c :: rest := by
  rw [Text.trimStart, List.dropWhile_cons_of_neg (Bool.eq_false_iff.mp hc)]

/-- Digits in front of a text are not blank. -/
theorem trimStart_padded (width n : Nat) (rest : List Char) :
    Text.trimStart ((padded width n).toList ++ rest) = (padded width n).toList ++ rest := by
  obtain ⟨c, cs, hdigits⟩ := List.exists_cons_of_ne_nil (padded_ne_nil width n)
  have hc := isBlank_of_isDigit (isDigit_padded (hdigits ▸ List.mem_cons_self))
  rw [hdigits, List.cons_append, trimStart_cons hc]

/-- A number that fills its field is read, and so is one that other text than digits follows. -/
theorem number_padded {field width n : Nat} {rest : List Char}
    (h : (padded width n).toList.length = field ∨ (padded width n).toList.length ≤ field ∧
      ∀ c ∈ rest.head?, c.isDigit = false) :
    number field ((padded width n).toList ++ rest) = some (n, rest) := by
  -- nothing behind the number is taken: its field is full, or no digit follows
  have hrest :
      (rest.take (field - (padded width n).toList.length)).takeWhile Char.isDigit = [] := by
    rcases h with hlength | ⟨-, hhead⟩
    · rw [hlength, Nat.sub_self, List.take_zero, List.takeWhile_nil]
    · cases rest with
      | nil => rw [List.take_nil, List.takeWhile_nil]
      | cons c rest =>
        cases field - (padded width n).toList.length with
        | zero => rfl
        | succ k =>
          have hc := hhead c rfl
          rw [List.take_succ_cons, List.takeWhile_cons_of_neg (Bool.eq_false_iff.mp hc)]
  have hle : (padded width n).toList.length ≤ field := by
    rcases h with hlength | ⟨hle, -⟩
    · exact hlength.le
    · exact hle
  have hdigits : (((padded width n).toList ++ rest).take field).takeWhile Char.isDigit =
      (padded width n).toList := by
    rw [List.take_append, List.take_of_length_le hle,
      List.takeWhile_append_of_pos fun c hc => isDigit_padded hc, hrest, List.append_nil]
  unfold number
  rw [hdigits, if_neg (by simpa using padded_ne_nil width n), digitsValue_padded, List.drop_left]

theorem field_padded {n : Nat} (hn : n < 100) (rest : List Char) :
    field 2 ((padded 2 n).toList ++ rest) = some (n, rest) := by
  rw [field, trimStart_padded]
  exact number_padded (.inl (length_padded (by omega) hn))

theorem mark_cons {c : Char} (hc : Text.isBlank c = false) (rest : List Char) :
    mark c (c :: rest) = some rest := by
  simp only [mark, trimStart_cons hc, beq_self_eq_true, if_true]

theorem year_minus (rest : List Char) : year ('-' :: rest) =
    (number rest.length rest).map fun (n, rest) => (-n, rest) := by
  rw [year, trimStart_cons (by decide)]
  rfl

theorem year_plus (rest : List Char) : year ('+' :: rest) =
    (number rest.length rest).map fun (n, rest) => (n, rest) := by
  rw [year, trimStart_cons (by decide)]
  rfl

/-- A year without a sign has up to four digits. -/
theorem year_padded (width n : Nat) (rest : List Char) :
    year ((padded width n).toList ++ rest) =
      (number 4 ((padded width n).toList ++ rest)).map fun (n, rest) => (n, rest) := by
  obtain ⟨c, cs, hdigits⟩ := List.exists_cons_of_ne_nil (padded_ne_nil width n)
  have hc : c.isDigit = true := isDigit_padded (hdigits ▸ List.mem_cons_self)
  rw [year, trimStart_padded, hdigits, List.cons_append]
  -- a digit is no sign
  split
  · next h =>
    obtain ⟨rfl, -⟩ := List.cons.inj h
    cases hc
  · next h =>
    obtain ⟨rfl, -⟩ := List.cons.inj h
    cases hc
  · rfl

/-- A year is read up to the mark behind it, with or without a sign. -/
theorem year_yearText (y : Int) (rest : List Char) :
    year ((yearText y).toList ++ '-' :: rest) = some (y, '-' :: rest) := by
  -- the digits of a year with a sign go up to the mark
  have hsigned : number ((padded 4 y.natAbs).toList ++ '-' :: rest).length
      ((padded 4 y.natAbs).toList ++ '-' :: rest) = some (y.natAbs, '-' :: rest) := by
    refine number_padded (.inr ⟨?_, fun c hc => ?_⟩)
    · rw [List.length_append]
      omega
    · obtain rfl := Option.some.inj hc
      rfl
  unfold yearText
  by_cases hplain : (0 ≤ y && y ≤ 9999) = true
  · rw [if_pos hplain, year_padded]
    simp only [Bool.and_eq_true, decide_eq_true_eq] at hplain
    have hfour : number 4 ((padded 4 y.toNat).toList ++ '-' :: rest) =
        some (y.toNat, '-' :: rest) :=
      number_padded (.inl (length_padded (by omega) (by omega)))
    simp only [hfour, Option.map_some, Int.toNat_of_nonneg hplain.1]
  · rw [if_neg hplain, String.toList_append, List.append_assoc]
    simp only [Bool.and_eq_true, decide_eq_true_eq] at hplain
    by_cases hsign : y < 0
    · have hminus : ("-" : String).toList = ['-'] := rfl
      rw [if_pos hsign, hminus, List.singleton_append, year_minus, hsigned, Option.map_some,
        Option.some.injEq, Prod.mk.injEq]
      exact ⟨by omega, rfl⟩
    · have hplus : ("+" : String).toList = ['+'] := rfl
      rw [if_neg hsign, hplus, List.singleton_append, year_plus, hsigned, Option.map_some,
        Option.some.injEq, Prod.mk.injEq]
      exact ⟨by omega, rfl⟩

/-- A fraction of up to nine digits is read as nanoseconds. -/
theorem fraction_padded {places n : Nat} (hplaces : 0 < places ∧ places ≤ 9) (hn : n < 10 ^ places)
    (rest : List Char) (hrest : ∀ c ∈ rest.head?, c.isDigit = false) :
    fraction ('.' :: ((padded places n).toList ++ rest)) =
      some (n * 10 ^ (9 - places), rest) := by
  have hlength := length_padded hplaces.1 hn
  have hdigits : ((padded places n).toList ++ rest).takeWhile Char.isDigit =
      (padded places n).toList := by
    rw [List.takeWhile_append_of_pos fun c hc => isDigit_padded hc]
    cases rest with
    | nil => rw [List.takeWhile_nil, List.append_nil]
    | cons c rest =>
      rw [List.takeWhile_cons_of_neg (Bool.eq_false_iff.mp (hrest c rfl)), List.append_nil]
  unfold fraction
  simp only [hdigits]
  rw [if_neg (by simpa using padded_ne_nil places n), List.take_of_length_le (by omega),
    digitsValue_padded, List.drop_left, hlength]
  rfl

/-! ## Written time stamps -/

/-- The fraction of a written time stamp, with its point. -/
def fractionText (places n : Nat) : List Char :=
  if places = 0 then [] else '.' :: (padded places n).toList

theorem fraction_fractionText {places n : Nat} (hplaces : places ≤ 9) (hn : n < 10 ^ places) :
    fraction (fractionText places n ++ ['Z']) = some (n * 10 ^ (9 - places), ['Z']) := by
  unfold fractionText
  by_cases hzero : places = 0
  · -- without digits there is no point, and nothing to read
    subst hzero
    have hn0 : n = 0 := by omega
    rw [if_pos rfl, hn0, Nat.zero_mul]
    rfl
  · rw [if_neg hzero, List.cons_append]
    refine fraction_padded ⟨by omega, hplaces⟩ hn ['Z'] fun c hc => ?_
    obtain rfl := Option.some.inj hc
    rfl

/-- The fields of an instant in UTC, cut to a number of fraction digits. -/
def written (places : Nat) (t : Instant) : Fields where
  date := Date.ofDayNumber (t.second / 86400)
  hour := (t.second % 86400).toNat / 3600
  minute := (t.second % 86400).toNat / 60 % 60
  second := (t.second % 86400).toNat % 60 + t.nano / 1000000000
  nano := t.nano % 1000000000 / 10 ^ (9 - places) * 10 ^ (9 - places)
  offset := 0

/-- A time stamp is written piece by piece. -/
theorem toList_format (places : Nat) (t : Instant) : (t.format places).toList =
    (yearText (written places t).date.year).toList ++ '-' ::
      ((padded 2 (written places t).date.month).toList ++ '-' ::
      ((padded 2 (written places t).date.day).toList ++ 'T' ::
      ((padded 2 (written places t).hour).toList ++ ':' ::
      ((padded 2 (written places t).minute).toList ++ ':' ::
      ((padded 2 (written places t).second).toList ++
      (fractionText places (t.nano % 1000000000 / 10 ^ (9 - places)) ++ ['Z'])))))) := by
  have hfraction : (if places = 0 then "" else
      "." ++ padded places (t.nano % 1000000000 / Nat.pow 10 (9 - places))).toList =
        fractionText places (t.nano % 1000000000 / 10 ^ (9 - places)) := by
    unfold fractionText
    split
    · rfl
    · rw [String.toList_append]
      rfl
  -- what stands between the numbers are single characters
  have hdash : "-".toList = ['-'] := rfl
  have hcolon : ":".toList = [':'] := rfl
  have hclock : "T".toList = ['T'] := rfl
  have hend : "Z".toList = ['Z'] := rfl
  simp only [format, String.toList_append, hfraction, hdash, hcolon, hclock, hend,
    List.append_assoc, List.cons_append, List.nil_append, written]

/-- The reader finds the fields of a written time stamp. -/
theorem fields_format {places : Nat} (hplaces : places ≤ 9) (t : Instant) :
    fields (t.format places).toList = some (written places t) := by
  have hvalid := Date.isValid_iff.mp (Date.isValid_ofDayNumber (t.second / 86400))
  have hdays := Date.daysInMonth_le (Date.ofDayNumber (t.second / 86400)).year
    (Date.ofDayNumber (t.second / 86400)).month
  have hnano := t.nano_lt
  -- all numbers but the year have two digits
  have hmonth : (written places t).date.month < 100 := by
    show (Date.ofDayNumber (t.second / 86400)).month < 100
    omega
  have hday : (written places t).date.day < 100 := by
    show (Date.ofDayNumber (t.second / 86400)).day < 100
    omega
  have hhour : (written places t).hour < 100 := by
    show (t.second % 86400).toNat / 3600 < 100
    omega
  have hminute : (written places t).minute < 100 := by
    show (t.second % 86400).toNat / 60 % 60 < 100
    omega
  have hsecond : (written places t).second < 100 := by
    show (t.second % 86400).toNat % 60 + t.nano / 1000000000 < 100
    omega
  have hfraction : t.nano % 1000000000 / 10 ^ (9 - places) < 10 ^ places := by
    rw [Nat.div_lt_iff_lt_mul (Nat.pow_pos (by omega)), ← Nat.pow_add,
      Nat.add_sub_cancel' hplaces]
    omega
  have hdash : Text.isBlank '-' = false := by decide
  have hcolon : Text.isBlank ':' = false := by decide
  rw [toList_format]
  -- each step of the reader takes the piece that is in front of it
  refine Option.bind_eq_some_iff.mpr ⟨_, year_yearText _ _, ?_⟩
  refine Option.bind_eq_some_iff.mpr ⟨_, mark_cons hdash _, ?_⟩
  refine Option.bind_eq_some_iff.mpr ⟨_, field_padded hmonth _, ?_⟩
  refine Option.bind_eq_some_iff.mpr ⟨_, mark_cons hdash _, ?_⟩
  refine Option.bind_eq_some_iff.mpr ⟨_, field_padded hday _, ?_⟩
  refine Option.bind_eq_some_iff.mpr ⟨_, rfl, ?_⟩
  refine Option.bind_eq_some_iff.mpr ⟨_, field_padded hhour _, ?_⟩
  refine Option.bind_eq_some_iff.mpr ⟨_, mark_cons hcolon _, ?_⟩
  refine Option.bind_eq_some_iff.mpr ⟨_, field_padded hminute _, ?_⟩
  refine Option.bind_eq_some_iff.mpr ⟨_, mark_cons hcolon _, ?_⟩
  refine Option.bind_eq_some_iff.mpr ⟨_, field_padded hsecond _, ?_⟩
  refine Option.bind_eq_some_iff.mpr ⟨_, fraction_fractionText hplaces hfraction, ?_⟩
  exact Option.bind_eq_some_iff.mpr ⟨_, rfl, rfl⟩

end Scan

/-! ## Instants that can be read -/

/-- The instants that can be read: the year can be named, and a leap second is the last second of
its minute. -/
structure IsReadable (t : Instant) : Prop where
  representable : isRepresentable t.second = true
  leap : 1000000000 ≤ t.nano → t.second % 60 = 59

/-- The instant of fields that are in range, when it is written down. -/
theorem ofFields?_eq {f : Fields} {t : Instant} (hvalid : f.date.isValid = true)
    (hrange : f.hour ≤ 23 ∧ f.minute ≤ 59 ∧ f.second ≤ 60 ∧ f.offset.natAbs < 86400)
    (hwall : f.date.dayNumber * 86400 + f.hour * 3600 + f.minute * 60 + min f.second 59 =
      t.second + f.offset)
    (hnano : f.nano + (if f.second = 60 then 1000000000 else 0) = t.nano)
    (hrepresentable : isRepresentable (t.second + f.offset) = true ∧
      isRepresentable t.second = true) : ofFields? f = some t := by
  obtain ⟨hhour, hminute, hsecond, hoffset⟩ := hrange
  have hback : t.second + f.offset - f.offset = t.second := by omega
  unfold ofFields?
  rw [if_pos (by simp [hvalid, hhour, hminute, hsecond, hoffset])]
  simp only [hwall, hback, hrepresentable.1, hrepresentable.2, Bool.and_self, if_true, hnano,
    t.nano_lt, dite_true]

/-- The fields of a readable instant name it, when they are exact. -/
theorem ofFields?_written {t : Instant} (h : t.IsReadable) {places : Nat}
    (hexact : t.nano % 1000000000 % 10 ^ (9 - places) = 0) :
    ofFields? (Scan.written places t) = some t := by
  have hnano := t.nano_lt
  have hleap := h.leap
  refine ofFields?_eq (Date.isValid_ofDayNumber _) ⟨?_, ?_, ?_, ?_⟩ ?_ ?_ ⟨?_, h.representable⟩
  · show (t.second % 86400).toNat / 3600 ≤ 23
    omega
  · show (t.second % 86400).toNat / 60 % 60 ≤ 59
    omega
  · show (t.second % 86400).toNat % 60 + t.nano / 1000000000 ≤ 60
    omega
  · show (0 : Int).natAbs < 86400
    omega
  · simp only [Scan.written]
    rw [Date.dayNumber_ofDayNumber]
    omega
  · -- second 60 is written for a leap second only
    have hwhole : t.nano % 1000000000 / 10 ^ (9 - places) * 10 ^ (9 - places) =
        t.nano % 1000000000 := Nat.div_mul_cancel (Nat.dvd_of_mod_eq_zero hexact)
    simp only [Scan.written, hwhole]
    split
    · omega
    · omega
  · show isRepresentable (t.second + 0) = true
    rw [Int.add_zero]
    exact h.representable

/-- **A readable instant is read again** when it is written with the fewest exact digits. -/
theorem parse?_formatShortest {t : Instant} (h : t.IsReadable) :
    parse? t.formatShortest = some t := by
  have hread {places : Nat} (hplaces : places ≤ 9)
      (hexact : t.nano % 1000000000 % 10 ^ (9 - places) = 0) :
      parse? (t.format places) = some t := by
    rw [parse?, Scan.fields_format hplaces, Option.bind_some, ofFields?_written h hexact]
  simp only [formatShortest]
  split
  · next hzero => exact hread (by omega) (by omega)
  · split
    · next hmillis => exact hread (by omega) hmillis
    · split
      · next hmicros => exact hread (by omega) hmicros
      · -- nine digits are always exact
        exact hread (by omega) (Nat.mod_one _)

/-! ## Only readable instants are read -/

namespace Scan

/-- Digits stand for a number below the power of ten of their number. -/
theorem digitsValue_lt {cs : List Char} (h : ∀ c ∈ cs, c.isDigit = true) :
    digitsValue cs < 10 ^ cs.length := by
  induction cs using List.reverseRecOn with
  | nil => exact Nat.one_pos
  | append_singleton cs c ih =>
    have hc := h c (List.mem_append_right _ List.mem_cons_self)
    have hrange : 48 ≤ c.toNat ∧ c.toNat ≤ 57 := by
      simpa [Char.isDigit, UInt32.le_iff_toNat_le] using hc
    have hlt := ih fun d hd => h d (List.mem_append_left _ hd)
    have hvalue : digitsValue (cs ++ [c]) = digitsValue cs * 10 + (c.toNat - 48) := by
      rw [digitsValue, List.foldl_append]
      rfl
    rw [hvalue, List.length_append, List.length_singleton, Nat.pow_succ]
    omega

theorem fraction_lt {text rest : List Char} {n : Nat} (h : fraction text = some (n, rest)) :
    n < 1000000000 := by
  unfold fraction at h
  split at h
  · next digits =>
    simp only at h
    split at h
    · cases h
    · obtain ⟨rfl, -⟩ := Prod.mk.inj (Option.some.inj h)
      have hkept : ∀ c ∈ (digits.takeWhile Char.isDigit).take 9, c.isDigit = true :=
        fun c hc => List.mem_takeWhile_imp (List.mem_of_mem_take hc)
      have hlength : ((digits.takeWhile Char.isDigit).take 9).length ≤ 9 := List.length_take_le _ _
      generalize (digits.takeWhile Char.isDigit).take 9 = kept at hkept hlength
      -- the digits that are kept are filled up to nine
      calc digitsValue kept * 10 ^ (9 - kept.length)
          < 10 ^ kept.length * 10 ^ (9 - kept.length) :=
            Nat.mul_lt_mul_of_pos_right (digitsValue_lt hkept) (Nat.pow_pos (by omega))
        _ = 10 ^ 9 := by rw [← Nat.pow_add, Nat.add_sub_cancel' hlength]
  · obtain ⟨rfl, -⟩ := Prod.mk.inj (Option.some.inj h)
    omega

theorem offsetClock_mod {text rest : List Char} {n : Nat} (h : offsetClock text = some (n, rest)) :
    n % 60 = 0 := by
  unfold offsetClock at h
  split at h
  · split at h
    · split at h
      · split at h
        · obtain ⟨rfl, -⟩ := Prod.mk.inj (Option.some.inj h)
          omega
        · cases h
      · cases h
    · cases h
  · cases h

/-- An offset is a number of minutes. -/
theorem offset_mod {text rest : List Char} {n : Int} (h : offset text = some (n, rest)) :
    n % 60 = 0 := by
  unfold offset at h
  split at h
  case h_1 | h_2 =>
    obtain ⟨rfl, -⟩ := Prod.mk.inj (Option.some.inj h)
    rfl
  case h_3 | h_4 | h_5 =>
    obtain ⟨⟨m, after⟩, hclock, heq⟩ := Option.map_eq_some_iff.mp h
    obtain ⟨rfl, -⟩ := Prod.mk.inj heq
    have := offsetClock_mod hclock
    omega
  case h_6 =>
    split at h
    · obtain ⟨rfl, -⟩ := Prod.mk.inj (Option.some.inj h)
      rfl
    · cases h
  case h_7 => cases h

/-- What is known of the fields of any time stamp. -/
theorem of_fields {text : List Char} {f : Fields} (h : fields text = some f) :
    f.nano < 1000000000 ∧ f.offset % 60 = 0 := by
  unfold fields at h
  obtain ⟨⟨year, text⟩, -, h⟩ := Option.bind_eq_some_iff.mp h
  obtain ⟨text, -, h⟩ := Option.bind_eq_some_iff.mp h
  obtain ⟨⟨month, text⟩, -, h⟩ := Option.bind_eq_some_iff.mp h
  obtain ⟨text, -, h⟩ := Option.bind_eq_some_iff.mp h
  obtain ⟨⟨day, text⟩, -, h⟩ := Option.bind_eq_some_iff.mp h
  dsimp only at h
  split at h
  case h_4 => cases h
  -- one case for each character that may stand between date and clock
  all_goals
    obtain ⟨text, -, h⟩ := Option.bind_eq_some_iff.mp h
    obtain ⟨⟨hour, text⟩, -, h⟩ := Option.bind_eq_some_iff.mp h
    obtain ⟨text, -, h⟩ := Option.bind_eq_some_iff.mp h
    obtain ⟨⟨minute, text⟩, -, h⟩ := Option.bind_eq_some_iff.mp h
    obtain ⟨text, -, h⟩ := Option.bind_eq_some_iff.mp h
    obtain ⟨⟨second, text⟩, -, h⟩ := Option.bind_eq_some_iff.mp h
    obtain ⟨⟨nano, text⟩, hnano, h⟩ := Option.bind_eq_some_iff.mp h
    obtain ⟨⟨offset, text⟩, hoffset, h⟩ := Option.bind_eq_some_iff.mp h
    obtain ⟨-, h⟩ := Option.ite_none_right_eq_some.mp h
    obtain rfl := Option.some.inj h
    exact ⟨fraction_lt hnano, offset_mod hoffset⟩

end Scan

/-- The instant of fields lies their offset before the wall clock; both are representable. -/
theorem of_ofFields? {f : Fields} {t : Instant} (h : ofFields? f = some t) :
    t.second = f.date.dayNumber * 86400 + f.hour * 3600 + f.minute * 60 + min f.second 59 -
        f.offset ∧
      t.nano = f.nano + (if f.second = 60 then 1000000000 else 0) ∧
      isRepresentable t.second = true := by
  unfold ofFields? at h
  obtain ⟨-, h⟩ := Option.ite_none_right_eq_some.mp h
  obtain ⟨hrepresentable, h⟩ := Option.ite_none_right_eq_some.mp h
  obtain ⟨hnano, h⟩ := Option.dite_none_right_eq_some.mp h
  obtain rfl := Option.some.inj h
  exact ⟨rfl, rfl, (Bool.and_eq_true_iff.mp hrepresentable).2⟩

/-- **Only readable instants are read.** -/
theorem isReadable_of_parse? {text : String} {t : Instant} (h : parse? text = some t) :
    t.IsReadable := by
  obtain ⟨f, hfields, hinstant⟩ := Option.bind_eq_some_iff.mp h
  obtain ⟨hnano, hoffset⟩ := Scan.of_fields hfields
  obtain ⟨hsecond, hnanos, hrepresentable⟩ := of_ofFields? hinstant
  refine ⟨hrepresentable, fun hleap => ?_⟩
  -- only second 60 reaches a thousand million, and an offset keeps the second of the minute
  have hsixty : f.second = 60 := by
    by_contra hne
    rw [if_neg hne] at hnanos
    omega
  omega

end DealPacing.Instant
