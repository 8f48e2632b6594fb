import DealPacing.Text.Casing
import Mathlib.Data.List.Basic

/-!
# Lower case inside a text

The lower case of a text is made character by character, and of all characters only the capital
sigma depends on what stands around it. So the lower case of a part of a text is that of the part by
itself, as long as no sigma of the part is at the end of a word in the one place and inside a word
in the other.

## Main definitions

* `lowerIn before cs after`: the lower case of `cs` between two texts
* `EndsOnSigma`, `StartsOnSigma`: a sigma at the end, or at the start, of a text depends on what is
  joined to it there

## Main results

* `lowerChars_append`: the lower case of a joined text, part by part
* `lowerIn_eq_iff`: two places give the same lower case if they treat every sigma alike
* `count_lowerIn`: a form of the sigma that only gets lost shows in its number
* `lowerIn_eq`, `not_endsOnSigma`, `not_startsOnSigma`: what joining a text changes
-/

namespace DealPacing.Text

/-- The lower case of a sigma that ends a word or does not. -/
def lowerSigma (final : Bool) : Char := if final then finalSigma else smallSigma

/-- The lower case of `cs` between the texts `before`, given last character first, and `after`. -/
def lowerIn (before : List Char) (cs after : List Char) : List Char :=
  match cs with
  | [] => []
  | c :: rest =>
    (if c = capitalSigma then [lowerSigma (endsWord before (rest ++ after))] else lowerChar c) ++
      lowerIn (c :: before) rest after

theorem lowerIn_sigma (before rest after : List Char) :
    lowerIn before (capitalSigma :: rest) after =
      lowerSigma (endsWord before (rest ++ after)) ::
        lowerIn (capitalSigma :: before) rest after := by
  rw [lowerIn, if_pos rfl]
  rfl

theorem lowerIn_of_ne {c : Char} (hc : c ≠ capitalSigma) (before rest after : List Char) :
    lowerIn before (c :: rest) after = lowerChar c ++ lowerIn (c :: before) rest after := by
  rw [lowerIn, if_neg hc]

theorem lowerChars_append (before cs after : List Char) :
    lowerChars before (cs ++ after) =
      lowerIn before cs after ++ lowerChars (cs.reverse ++ before) after := by
  induction cs generalizing before with
  | nil => rfl
  | cons c rest ih =>
    rw [List.cons_append, lowerChars, ih, lowerIn, List.append_assoc, List.reverse_cons,
      List.append_assoc]
    simp only [beq_iff_eq, lowerSigma, List.singleton_append]

theorem lowerIn_nil (before cs : List Char) : lowerIn before cs [] = lowerChars before cs := by
  have h := lowerChars_append before cs []
  rw [List.append_nil, lowerChars, List.append_nil] at h
  exact h.symm

/-- The two forms of the sigma are of one length. -/
theorem length_lowerIn (before before' cs after after' : List Char) :
    (lowerIn before cs after).length = (lowerIn before' cs after').length := by
  induction cs generalizing before before' with
  | nil => rfl
  | cons c rest ih =>
    by_cases hc : c = capitalSigma
    · subst hc
      rw [lowerIn_sigma, lowerIn_sigma, List.length_cons, List.length_cons,
        ih (capitalSigma :: before)]
    · rw [lowerIn_of_ne hc, lowerIn_of_ne hc, List.length_append, List.length_append,
        ih (c :: before)]

/-! ## The sigmas of a text in two places -/

section Places

variable {before before' cs after after' : List Char}

/-- What holds of every sigma of a text, by the character in front of the rest. -/
theorem forall_sigma_cons {c : Char} {rest : List Char} {P : List Char → List Char → Prop} :
    (∀ u v, c :: rest = u ++ capitalSigma :: v → P u v) ↔
      (c = capitalSigma → P [] rest) ∧ ∀ u v, rest = u ++ capitalSigma :: v → P (c :: u) v := by
  constructor
  · intro h
    refine ⟨fun hc => h [] rest (by rw [hc]; rfl), fun u v hrest => ?_⟩
    exact h (c :: u) v (by rw [hrest]; rfl)
  · rintro ⟨hhead, hrest⟩ u v h
    cases u with
    | nil =>
      obtain ⟨rfl, rfl⟩ := List.cons.inj h
      exact hhead rfl
    | cons d u =>
      obtain ⟨rfl, hr⟩ := List.cons.inj h
      exact hrest u v hr

theorem lowerSigma_injective {a b : Bool} (h : lowerSigma a = lowerSigma b) : a = b := by
  revert h
  cases a <;> cases b <;> decide

/-- A text has the same lower case in two places if and only if each sigma ends a word in both or in
none. -/
theorem lowerIn_eq_iff :
    lowerIn before cs after = lowerIn before' cs after' ↔
      ∀ u v, cs = u ++ capitalSigma :: v →
        endsWord (u.reverse ++ before) (v ++ after) =
          endsWord (u.reverse ++ before') (v ++ after') := by
  induction cs generalizing before before' with
  | nil => simp [lowerIn]
  | cons c rest ih =>
    rw [forall_sigma_cons]
    simp only [List.reverse_nil, List.nil_append, List.reverse_cons, List.append_assoc]
    by_cases hc : c = capitalSigma
    · subst hc
      rw [lowerIn_sigma, lowerIn_sigma, List.cons.injEq, ih]
      exact and_congr_left' ⟨fun h _ => lowerSigma_injective h, fun h => congrArg _ (h rfl)⟩
    · rw [lowerIn_of_ne hc, lowerIn_of_ne hc, List.append_right_inj, ih]
      simp [hc]

/-- Where a form of the sigma only gets lost, its number falls unless nothing changes. -/
theorem count_lowerIn (final : Bool) (h : ∀ u v, cs = u ++ capitalSigma :: v →
      endsWord (u.reverse ++ before) (v ++ after) = final →
        endsWord (u.reverse ++ before') (v ++ after') = final) :
    (lowerIn before cs after).count (lowerSigma final) ≤
        (lowerIn before' cs after').count (lowerSigma final) ∧
      ((lowerIn before' cs after').count (lowerSigma final) ≤
        (lowerIn before cs after).count (lowerSigma final) →
          lowerIn before cs after = lowerIn before' cs after') := by
  induction cs generalizing before before' with
  | nil => exact ⟨Nat.le_refl _, fun _ => rfl⟩
  | cons c rest ih =>
    rw [forall_sigma_cons] at h
    simp only [List.reverse_nil, List.nil_append, List.reverse_cons, List.append_assoc,
      List.cons_append] at h
    obtain ⟨hle, heq⟩ := ih h.2
    by_cases hc : c = capitalSigma
    · subst hc
      have hhead := h.1 rfl
      rw [lowerIn_sigma, lowerIn_sigma]
      generalize endsWord before (rest ++ after) = ends at hhead
      generalize endsWord before' (rest ++ after') = ends' at hhead
      by_cases hends : ends = ends'
      · subst hends
        rw [List.count_cons, List.count_cons]
        exact ⟨Nat.add_le_add_right hle _,
          fun hge => by rw [heq (Nat.le_of_add_le_add_right hge)]⟩
      · -- a sigma that differs has the form in the second place only
        have hne : ends ≠ final := fun he => hends (he.trans (hhead he).symm)
        have hform : ends' = final := by
          rw [Bool.eq_not.mpr (Ne.symm hends), Bool.eq_not.mpr (Ne.symm hne)]
        subst hform
        rw [List.count_cons_of_ne fun he => hne (lowerSigma_injective he), List.count_cons_self]
        exact ⟨Nat.le_succ_of_le hle, fun hge => absurd hle (Nat.not_le.mpr hge)⟩
    · rw [lowerIn_of_ne hc, lowerIn_of_ne hc, List.count_append, List.count_append]
      exact ⟨Nat.add_le_add_left hle _, fun hge => by rw [heq (Nat.le_of_add_le_add_left hge)]⟩

end Places

/-! ## What joining a text changes -/

/-- The first character that counts is in the second part if all of the first part is looked
through. -/
theorem meetsCased_append (u v : List Char) :
    meetsCased (u ++ v) = if u.all isCaseIgnorable then meetsCased v else meetsCased u := by
  unfold meetsCased
  induction u with
  | nil => rfl
  | cons c u ih =>
    rw [List.cons_append, List.all_cons]
    cases hc : isCaseIgnorable c with
    | true => rw [List.dropWhile_cons_of_pos hc, List.dropWhile_cons_of_pos hc, ih, Bool.true_and]
    | false =>
      have hnot : ¬isCaseIgnorable c = true := Bool.not_eq_true _ ▸ hc
      rw [List.dropWhile_cons_of_neg hnot, List.dropWhile_cons_of_neg hnot]
      rfl

theorem meetsCased_of_all {u : List Char} (h : u.all isCaseIgnorable = true) :
    meetsCased u = false := by
  have happend := meetsCased_append u []
  rw [List.append_nil, if_pos h] at happend
  exact happend

theorem not_meetsCased_nil : ¬meetsCased [] = true := Bool.false_ne_true

/-- A sigma at the end of the text, after a cased letter: it ends a word unless a cased letter is
joined. -/
def EndsOnSigma (cs : List Char) : Prop :=
  ∃ u v, cs = u ++ capitalSigma :: v ∧ meetsCased u.reverse = true ∧
    v.all isCaseIgnorable = true

/-- A sigma at the start of the text, before no cased letter: it ends a word as soon as a cased
letter is put in front. -/
def StartsOnSigma (cs : List Char) : Prop :=
  ∃ u v, cs = u ++ capitalSigma :: v ∧ u.reverse.all isCaseIgnorable = true ∧
    meetsCased v = false

section Joining

variable {before cs after : List Char}

/-- A text keeps its lower case behind and in front of other texts that do not touch its sigmas. -/
theorem lowerIn_eq (hends : ¬(EndsOnSigma cs ∧ meetsCased after = true))
    (hstarts : ¬(StartsOnSigma cs ∧ meetsCased before = true)) :
    lowerIn before cs after = lowerIn [] cs [] := by
  rw [lowerIn_eq_iff]
  intro u v hcs
  unfold endsWord
  rw [List.append_nil, List.append_nil, meetsCased_append, meetsCased_append]
  by_cases hu : u.reverse.all isCaseIgnorable = true
  · rw [if_pos hu, meetsCased_of_all hu, Bool.false_and]
    cases hv : meetsCased v with
    | false =>
      rw [Bool.eq_false_iff.mpr fun hbefore => hstarts ⟨⟨u, v, hcs, hu, hv⟩, hbefore⟩,
        Bool.false_and]
    | true =>
      rw [if_neg fun hall => absurd hv (by rw [meetsCased_of_all hall]; exact Bool.false_ne_true)]
      exact Bool.and_false _
  · rw [if_neg hu]
    by_cases hv : v.all isCaseIgnorable = true
    · rw [if_pos hv, meetsCased_of_all hv]
      cases hmeets : meetsCased u.reverse with
      | false => rfl
      | true =>
        rw [Bool.eq_false_iff.mpr fun hafter => hends ⟨⟨u, v, hcs, hmeets, hv⟩, hafter⟩]
    · rw [if_neg hv]

/-- A text that a cased letter is joined to keeps its lower case only if it does not end on a
sigma. -/
theorem not_endsOnSigma (h : lowerIn [] cs after = lowerIn [] cs [])
    (hafter : meetsCased after = true) : ¬EndsOnSigma cs := by
  rintro ⟨u, v, hcs, hmeets, hv⟩
  have hsame := lowerIn_eq_iff.mp h u v hcs
  unfold endsWord at hsame
  rw [List.append_nil, List.append_nil, meetsCased_append, if_pos hv, meetsCased_of_all hv, hmeets,
    hafter] at hsame
  cases hsame

/-- A text that a cased letter is put in front of keeps its lower case only if it does not start on
a sigma. -/
theorem not_startsOnSigma (h : lowerIn before cs [] = lowerIn [] cs [])
    (hbefore : meetsCased before = true) : ¬StartsOnSigma cs := by
  rintro ⟨u, v, hcs, hu, hmeets⟩
  have hsame := lowerIn_eq_iff.mp h u v hcs
  unfold endsWord at hsame
  rw [List.append_nil, List.append_nil, meetsCased_append, if_pos hu, meetsCased_of_all hu, hmeets,
    hbefore] at hsame
  cases hsame

/-- A text that loses no final sigma by what is joined keeps its lower case. -/
theorem lowerIn_after_eq
    (h : (lowerIn [] cs []).count finalSigma ≤ (lowerIn [] cs after).count finalSigma) :
    lowerIn [] cs after = lowerIn [] cs [] := by
  refine (count_lowerIn true fun u v _ hends => ?_).2 h
  unfold endsWord at hends ⊢
  rw [Bool.and_eq_true, Bool.not_eq_true', List.append_nil] at hends ⊢
  refine ⟨hends.1, ?_⟩
  by_cases hv : v.all isCaseIgnorable = true
  · rw [List.append_nil, meetsCased_of_all hv]
  · rw [meetsCased_append, if_neg hv] at hends
    rw [List.append_nil, hends.2]

/-- A text that loses no small sigma by what is put in front keeps its lower case. -/
theorem lowerIn_before_eq
    (h : (lowerIn [] cs []).count smallSigma ≤ (lowerIn before cs []).count smallSigma) :
    lowerIn before cs [] = lowerIn [] cs [] := by
  refine (count_lowerIn false fun u v _ hends => ?_).2 h
  unfold endsWord at hends ⊢
  rw [List.append_nil] at hends ⊢
  rw [List.append_nil]
  by_cases hu : u.reverse.all isCaseIgnorable = true
  · rw [meetsCased_of_all hu, Bool.false_and]
  · rw [meetsCased_append, if_neg hu] at hends
    exact hends

end Joining

end DealPacing.Text
