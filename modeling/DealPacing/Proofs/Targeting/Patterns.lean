import DealPacing.Targeting.Expression
import Mathlib.Data.List.TakeWhile

/-!
# The spelling of wildcard patterns

A wildcard pattern is written as a constant between wildcards. How many wildcards there are does not
matter, only whether there is one in front of the constant and one behind it.

## Main definitions

* `Spelling`: a text is wildcards, a constant and wildcards
* `Pattern.ofEnds`: the pattern that is open in front, behind, on both sides or not at all

## Main results

* `exists_spelling`: every text that is not empty spells a pattern
* `Spelling.ofPattern_eq`: the leaf of a pattern has the constant and the open ends of its spelling
-/

namespace DealPacing.Targeting

/-- The pattern that is open in front, behind, on both sides or not at all. -/
def Pattern.ofEnds (front back : Bool) : Pattern :=
  match front, back with
  | true, true => .contains
  | true, false => .endsWith
  | false, true => .startsWith
  | false, false => .equals

/-- A text is `front` wildcards, a constant that neither starts nor ends with a wildcard, and `back`
wildcards. Without a constant, one wildcard stands in front. -/
structure Spelling (text : List Char) (front : Nat) (constant : List Char) (back : Nat) :
    Prop where
  text_eq : text = List.replicate front wildcard ++ constant ++ List.replicate back wildcard
  head? : constant.head? ≠ some wildcard
  getLast? : constant.getLast? ≠ some wildcard
  alone : constant = [] → front = 1

/-- The wildcards at the start of a text, and the rest of it. -/
theorem exists_replicate_append (text : List Char) : ∃ n rest,
    text = List.replicate n wildcard ++ rest ∧ rest.head? ≠ some wildcard := by
  refine ⟨(text.takeWhile (· == wildcard)).length, text.dropWhile (· == wildcard), ?_, ?_⟩
  · have hstars : text.takeWhile (· == wildcard) =
        List.replicate (text.takeWhile (· == wildcard)).length wildcard :=
      List.eq_replicate_iff.mpr ⟨rfl, fun c hc => by simpa using List.mem_takeWhile_imp hc⟩
    rw [← hstars, List.takeWhile_append_dropWhile]
  · intro hhead
    have hnot := List.head?_dropWhile_not (· == wildcard) text
    rw [hhead] at hnot
    simp at hnot

/-- Every text that is not empty spells a pattern. -/
theorem exists_spelling {text : List Char} (h : text ≠ []) :
    ∃ front constant back, Spelling text front constant back := by
  obtain ⟨front, rest, rfl, hrest⟩ := exists_replicate_append text
  obtain ⟨back, tser, hrev, htser⟩ := exists_replicate_append rest.reverse
  have hsplit : rest = tser.reverse ++ List.replicate back wildcard := by
    rw [← List.reverse_reverse rest, hrev, List.reverse_append, List.reverse_replicate]
  subst hsplit
  by_cases hempty : tser = []
  · -- wildcards only: the first one stands in front
    subst hempty
    have hback : back = 0 := by
      cases back with
      | zero => rfl
      | succ n => simp [List.replicate_succ] at hrest
    subst hback
    cases front with
    | zero => exact absurd rfl h
    | succ n =>
      refine ⟨1, [], n, ?_, by simp, by simp, fun _ => rfl⟩
      simp [List.replicate_succ]
  · refine ⟨front, tser.reverse, back, (List.append_assoc ..).symm, ?_, ?_, ?_⟩
    · intro hhead
      refine hrest ?_
      rw [List.head?_append, hhead]
      rfl
    · rwa [List.getLast?_reverse]
    · intro hnil
      exact absurd (List.reverse_eq_nil_iff.mp hnil) hempty

theorem dropWhile_replicate_append (n : Nat) {rest : List Char}
    (h : rest.head? ≠ some wildcard) :
    (List.replicate n wildcard ++ rest).dropWhile (· == wildcard) = rest := by
  induction n with
  | zero =>
    cases rest with
    | nil => rfl
    | cons c rest => exact List.dropWhile_cons_of_neg (by simpa using h)
  | succ n ih => simpa [List.replicate_succ] using ih

namespace Spelling

variable {text constant : List Char} {front back : Nat}

/-- The constant of a pattern is what is left without the wildcards around it. -/
theorem withoutWildcards_eq (h : Spelling text front constant back) :
    withoutWildcards text = constant := by
  have hback : constant.reverse.head? ≠ some wildcard := by
    rw [List.head?_reverse]
    exact h.getLast?
  unfold withoutWildcards
  by_cases hempty : constant = []
  · subst hempty
    rw [h.text_eq, List.append_nil, List.replicate_append_replicate,
      ← List.append_nil (List.replicate _ _), dropWhile_replicate_append _ (by simp)]
    rfl
  · have hfront : (constant ++ List.replicate back wildcard).head? ≠ some wildcard := by
      obtain ⟨c, cs, rfl⟩ := List.exists_cons_of_ne_nil hempty
      exact h.head?
    rw [h.text_eq, List.append_assoc, dropWhile_replicate_append _ hfront, List.reverse_append,
      List.reverse_replicate, dropWhile_replicate_append _ hback, List.reverse_reverse]

theorem opensFront_iff (h : Spelling text front constant back) :
    text.head? = some wildcard ↔ 0 < front := by
  rw [h.text_eq, List.append_assoc]
  cases front with
  | succ n => simp [List.replicate_succ]
  | zero =>
    have hne : constant ≠ [] := fun e => absurd (h.alone e) Nat.zero_ne_one
    obtain ⟨c, cs, rfl⟩ := List.exists_cons_of_ne_nil hne
    simpa using h.head?

theorem opensBack_iff (h : Spelling text front constant back) :
    1 < text.length ∧ text.getLast? = some wildcard ↔ 0 < back := by
  have hlength : text.length = front + constant.length + back := by
    simp [h.text_eq, Nat.add_assoc]
  by_cases hempty : constant = []
  · have hfront := h.alone hempty
    have hlast : text.getLast? = some wildcard := by
      rw [h.text_eq, hempty, hfront, List.append_nil, List.replicate_append_replicate,
        List.getLast?_replicate, if_neg (by omega)]
    subst hempty hfront
    simp only [hlast, and_true, hlength, List.length_nil]
    omega
  · cases back with
    | zero =>
      have hlast : text.getLast? = constant.getLast? := by
        rw [h.text_eq, List.replicate_zero, List.append_nil, List.getLast?_append]
        simp [List.getLast?_eq_some_getLast hempty]
      simpa [hlast] using fun _ => h.getLast?
    | succ n =>
      have hpos := List.length_pos_iff.mpr hempty
      have hlast : text.getLast? = some wildcard := by
        rw [h.text_eq, List.replicate_succ', ← List.append_assoc, List.getLast?_concat]
      simp only [hlast, and_true, hlength]
      omega

/-- A pattern is open where its spelling has wildcards. -/
theorem ofText_eq (h : Spelling text front constant back) :
    Pattern.ofText text = Pattern.ofEnds (0 < front) (0 < back) := by
  have hfront : (text.head? == some wildcard) = decide (0 < front) := by
    rw [Bool.eq_iff_iff, beq_iff_eq, decide_eq_true_iff]
    exact h.opensFront_iff
  have hback : (decide (1 < text.length) && text.getLast? == some wildcard) =
      decide (0 < back) := by
    rw [Bool.eq_iff_iff, Bool.and_eq_true, beq_iff_eq, decide_eq_true_iff, decide_eq_true_iff]
    exact h.opensBack_iff
  exact congrArg₂ Pattern.ofEnds hfront hback

/-- **The leaf of a pattern** has the constant of the spelling in lower case, and is open where the
spelling has wildcards. -/
theorem ofPattern_eq {raw : String} (h : Spelling raw.toList front constant back) (c : Category) :
    Leaf.ofPattern c raw = .pattern c (Pattern.ofEnds (0 < front) (0 < back))
      (Text.lowercase (String.ofList constant)) := by
  unfold Leaf.ofPattern
  rw [h.ofText_eq, h.withoutWildcards_eq]

end Spelling

end DealPacing.Targeting
