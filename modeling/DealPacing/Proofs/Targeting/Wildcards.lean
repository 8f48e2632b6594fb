import DealPacing.Proofs.Targeting.NestedLists
import DealPacing.Proofs.Text.Casing

/-!
# What wildcards stand for

A wildcard in front of a constant or behind it stands for any text. The constant of a pattern and
the value it is compared with are brought to lower case apart from each other, and there a capital
sigma at the end of a word has a form of its own. So a wildcard does not stand for a text that
changes whether a sigma of the constant ends a word; it stands for all others.

## Main definitions

* `Matches`: the values that a pattern accepts
* `Category.TestsBy`: the test of a pattern holds if some value of the category is accepted
* `IsConstant`: what stands between the wildcards

## Main results

* `Spelling.matches_iff`: the values that a pattern accepts, by its spelling
* `IsConstant.matches_behind_iff`, `IsConstant.matches_front_iff`: what one wildcard stands for
* `IsConstant.forall_matches_between_iff`: the constants that are found between any two texts
* `wildcards_iff`: the tests of patterns, and what wildcards stand for
-/

namespace DealPacing.Targeting

open Text

/-- A value fits the pattern that is written as `raw`. -/
def Matches (raw x : String) : Prop :=
  (Pattern.ofText raw.toList).fits (lowercase (String.ofList (withoutWildcards raw.toList)))
    (lowercase x) = true

/-- The category has a test of the pattern, which holds if some value of the category is
accepted. -/
def Category.TestsBy (c : Category) (raw : String) (accepts : String → Prop) : Prop :=
  ∀ owner, ∃ e, Expression.parse (c.definition .pattern (.str raw)) owner = .ok e ∧
    ∀ o log, (e.evaluate o log).1 = true ↔ ∃ x ∈ o.string c, accepts x

/-- A text that is not empty and neither starts nor ends with a wildcard. -/
structure IsConstant (p : String) : Prop where
  ne_empty : p ≠ ""
  head? : p.toList.head? ≠ some wildcard
  getLast? : p.toList.getLast? ≠ some wildcard

/-! ## Tests of patterns -/

/-- A pattern that is not empty is tested by its matches. -/
theorem Category.testsBy_matches {c : Category} (hc : .pattern ∈ c.kind.functions)
    (hproper : c.Proper) {raw : String} (hraw : raw ≠ "") : c.TestsBy raw (Matches raw) := by
  intro owner
  have hkind : c.kind = .text ∨ c.kind = .typed := by
    cases hk : c.kind <;> simp_all [CategoryKind.functions]
  have hne : raw.toList ≠ [] := fun hnil => hraw (String.toList_eq_nil_iff.mp hnil)
  obtain ⟨front, constant, back, hspelling⟩ := exists_spelling hne
  have hreads := Leaf.Reads.pattern hkind ⟨rfl, hraw⟩ hspelling
  rw [← hspelling.ofPattern_eq] at hreads
  have hholds (o : Opportunity) :
      (Leaf.ofPattern c raw).holds o = true ↔ ∃ x ∈ o.string c, Matches raw x := List.any_eq_true
  by_cases hdomain : c = .domain ∨ c = .publisherDomain
  · refine ⟨_, (Expression.parse_reads _ _).1 _ |>.mpr (.domainLeaf hreads hdomain),
      fun o log => ?_⟩
    rw [Expression.fst_evaluate, Expression.holds, hholds]
  · refine ⟨_, (Expression.parse_reads _ _).1 _ |>.mpr (.leaf hproper hreads (not_or.mp hdomain)),
      fun o log => ?_⟩
    rw [Expression.fst_evaluate, Expression.holds, hholds]

/-- The values that a pattern accepts: their lower case is described by that of the constant. -/
theorem Spelling.matches_iff {raw x : String} {front back : Nat} {constant : List Char}
    (h : Spelling raw.toList front constant back) :
    Matches raw x ↔ (Pattern.ofEnds (0 < front) (0 < back)).Describes (lowerChars [] constant)
      (lowerChars [] x.toList) := by
  unfold Matches lowercase
  rw [Pattern.fits_iff, h.ofText_eq, h.withoutWildcards_eq, String.toList_ofList,
    String.toList_ofList, String.toList_ofList]

/-- Wildcards without a constant stand for any text. -/
theorem matches_of_forall_eq {raw : String} (hraw : raw ≠ "")
    (hstars : ∀ c ∈ raw.toList, c = wildcard) (x : String) : Matches raw x := by
  have hreplicate := List.eq_replicate_iff.mpr ⟨rfl, hstars⟩
  have hne : raw.toList ≠ [] := fun hnil => hraw (String.toList_eq_nil_iff.mp hnil)
  obtain ⟨n, hlength⟩ := Nat.exists_eq_succ_of_ne_zero (List.length_pos_iff.mpr hne).ne'
  have hspelling : Spelling raw.toList 1 [] n := by
    refine ⟨?_, by simp, by simp, fun _ => rfl⟩
    rw [hreplicate, hlength, List.append_nil, List.replicate_append_replicate, Nat.add_comm]
  rw [hspelling.matches_iff]
  cases n with
  | zero => exact List.nil_suffix
  | succ n => exact List.nil_infix

/-! ## Wildcards around a constant -/

theorem meetsCased_letter : meetsCased ['A'] = true := by decide +kernel

namespace IsConstant

variable {p : String} (hp : IsConstant p)
include hp

theorem spelling (front back : Nat) :
    Spelling (List.replicate front wildcard ++ p.toList ++ List.replicate back wildcard) front
      p.toList back :=
  ⟨rfl, hp.head?, hp.getLast?, fun hnil => absurd (String.toList_eq_nil_iff.mp hnil) hp.ne_empty⟩

/-- A constant without wildcards accepts the texts that differ from it in case only. -/
theorem matches_iff (x : String) : Matches p x ↔ lowercase x = lowercase p := by
  have hspelling : Spelling p.toList 0 p.toList 0 := by simpa using hp.spelling 0 0
  rw [hspelling.matches_iff]
  unfold lowercase
  rw [String.ofList_inj]
  exact Iff.rfl

/-- A wildcard behind a constant stands for a text if and only if the text does not continue a word
that ends on a sigma. -/
theorem matches_behind_iff (b : String) : Matches (p ++ "*") (p ++ b) ↔
    ¬(EndsOnSigma p.toList ∧ meetsCased b.toList = true) := by
  have hspelling : Spelling (p ++ "*").toList 0 p.toList 1 := by
    simpa [wildcard] using hp.spelling 0 1
  rw [hspelling.matches_iff, String.toList_append, lowerChars_append, ← lowerIn_nil]
  show _ <+: _ ↔ _
  constructor
  · rintro hprefix ⟨hends, hcased⟩
    -- both are of one length, so the constant has the same lower case in its place
    have hlength := length_lowerIn [] [] p.toList [] b.toList
    have hin := List.prefix_of_prefix_length_le hprefix (List.prefix_append _ _) hlength.le
    exact not_endsOnSigma (hin.eq_of_length hlength).symm hcased hends
  · intro hbehind
    rw [lowerIn_eq hbehind fun hfront => not_meetsCased_nil hfront.2]
    exact List.prefix_append _ _

/-- A wildcard in front of a constant stands for a text if and only if the text does not start a
word that the constant continues with a sigma at its end. -/
theorem matches_front_iff (a : String) : Matches ("*" ++ p) (a ++ p) ↔
    ¬(StartsOnSigma p.toList ∧ meetsCased a.toList.reverse = true) := by
  have hspelling : Spelling ("*" ++ p).toList 1 p.toList 0 := by
    simpa [wildcard] using hp.spelling 1 0
  rw [hspelling.matches_iff, String.toList_append, lowerChars_append, List.append_nil,
    ← lowerIn_nil _ p.toList, ← lowerIn_nil _ p.toList]
  show _ <:+ _ ↔ _
  constructor
  · rintro hsuffix ⟨hstarts, hcased⟩
    have hlength := length_lowerIn [] a.toList.reverse p.toList [] []
    have hin := List.suffix_of_suffix_length_le hsuffix (List.suffix_append _ _) hlength.le
    exact not_startsOnSigma (hin.eq_of_length hlength).symm hcased hstarts
  · intro hfront
    rw [lowerIn_eq (fun hbehind => not_meetsCased_nil hbehind.2) hfront]
    exact List.suffix_append _ _

/-- The values that a constant between wildcards accepts. -/
theorem matches_between_iff (x : String) : Matches ("*" ++ p ++ "*") x ↔
    lowerIn [] p.toList [] <:+: lowerChars [] x.toList := by
  have hspelling : Spelling ("*" ++ p ++ "*").toList 1 p.toList 1 := by
    simpa [wildcard] using hp.spelling 1 1
  rw [hspelling.matches_iff, lowerIn_nil]
  exact Iff.rfl

/-- Wildcards around a constant stand for texts that neither continue a word of it nor start one in
a way that touches a sigma. -/
theorem matches_between {a b : String}
    (hbehind : ¬(EndsOnSigma p.toList ∧ meetsCased b.toList = true))
    (hfront : ¬(StartsOnSigma p.toList ∧ meetsCased a.toList.reverse = true)) :
    Matches ("*" ++ p ++ "*") (a ++ p ++ b) := by
  rw [hp.matches_between_iff, String.toList_append, String.toList_append, List.append_assoc,
    lowerChars_append, lowerChars_append, List.append_nil, lowerIn_eq hbehind hfront,
    ← List.append_assoc]
  exact List.infix_append _ _ _

/-- A constant between wildcards is found between any two texts if and only if it neither ends nor
starts on a sigma. -/
theorem forall_matches_between_iff : (∀ a b, Matches ("*" ++ p ++ "*") (a ++ p ++ b)) ↔
    ¬EndsOnSigma p.toList ∧ ¬StartsOnSigma p.toList := by
  constructor
  · intro hall
    constructor
    · -- a letter behind the constant takes final sigmas from it and brings none
      have hin := (hp.matches_between_iff _).mp (hall "" "A")
      have hcount := hin.sublist.count_le finalSigma
      rw [String.empty_append, String.toList_append, lowerChars_append, List.count_append] at hcount
      exact not_endsOnSigma (lowerIn_after_eq hcount) meetsCased_letter
    · -- a letter in front of it takes small sigmas from it and brings none
      have hin := (hp.matches_between_iff _).mp (hall "A" "")
      have hcount := hin.sublist.count_le smallSigma
      rw [String.append_empty, String.toList_append, lowerChars_append, List.count_append,
        ← lowerIn_nil _ p.toList, List.append_nil] at hcount
      exact not_startsOnSigma (lowerIn_before_eq (hcount.trans_eq (Nat.zero_add _)))
        meetsCased_letter
  · rintro ⟨hends, hstarts⟩ a b
    exact hp.matches_between (fun h => hends h.1) fun h => hstarts h.1

end IsConstant

/-- **What wildcards stand for.** The test of a pattern holds if some value of the category fits the
pattern. Wildcards alone fit every value, and a constant alone those that differ from it in case
only. A wildcard behind a constant, or in front of it, stands for a text if and only if the text
does not touch a sigma at that end of the constant; so the constant is found between any two texts
if and only if it neither ends nor starts on a sigma. -/
theorem wildcards_iff {c : Category} (hc : .pattern ∈ c.kind.functions) (hproper : c.Proper) :
    (∀ raw, raw ≠ "" → c.TestsBy raw (Matches raw)) ∧
    (∀ raw, raw ≠ "" → (∀ d ∈ raw.toList, d = wildcard) → ∀ x, Matches raw x) ∧
    ∀ p, IsConstant p →
      (∀ x, Matches p x ↔ lowercase x = lowercase p) ∧
      (∀ b, Matches (p ++ "*") (p ++ b) ↔
        ¬(EndsOnSigma p.toList ∧ meetsCased b.toList = true)) ∧
      (∀ a, Matches ("*" ++ p) (a ++ p) ↔
        ¬(StartsOnSigma p.toList ∧ meetsCased a.toList.reverse = true)) ∧
      (∀ a b, ¬(EndsOnSigma p.toList ∧ meetsCased b.toList = true) →
        ¬(StartsOnSigma p.toList ∧ meetsCased a.toList.reverse = true) →
          Matches ("*" ++ p ++ "*") (a ++ p ++ b)) ∧
      ((∀ a b, Matches ("*" ++ p ++ "*") (a ++ p ++ b)) ↔
        ¬EndsOnSigma p.toList ∧ ¬StartsOnSigma p.toList) := by
  refine ⟨fun raw hraw => c.testsBy_matches hc hproper hraw,
    fun raw hraw hstars x => matches_of_forall_eq hraw hstars x, fun p hp => ?_⟩
  exact ⟨hp.matches_iff, hp.matches_behind_iff, hp.matches_front_iff,
    fun _ _ => hp.matches_between, hp.forall_matches_between_iff⟩

/-- The constant `ΑΣ` ends on a sigma. -/
theorem isConstant_alphaSigma : IsConstant "ΑΣ" := ⟨by decide, by decide, by decide⟩

/-- A wildcard behind `ΑΣ` stands for a blank and a letter: the sigma is at the end of its word. -/
theorem wildcards_iff_blank :
    (.pattern ∈ Category.referrer.kind.functions ∧ Category.referrer.Proper) ∧
      Matches ("ΑΣ" ++ "*") ("ΑΣ" ++ " Α") := by
  have hc : .pattern ∈ Category.referrer.kind.functions := List.mem_cons_self
  have hproper : Category.referrer.Proper := fun path hpath => nomatch hpath
  refine ⟨⟨hc, hproper⟩, ?_⟩
  have hblank : meetsCased " Α".toList = false := by decide +kernel
  rw [((wildcards_iff hc hproper).2.2 "ΑΣ" isConstant_alphaSigma).2.1 " Α", hblank]
  exact fun h => Bool.false_ne_true h.2

/-- It does not stand for the letter alone. -/
theorem not_forall_matches_behind : ¬∀ (c : Category) (p b : String), .pattern ∈ c.kind.functions →
    c.Proper → IsConstant p → ∀ owner e o log,
      Expression.parse (c.definition .pattern (.str (p ++ "*"))) owner = .ok e →
        p ++ b ∈ o.string c → (e.evaluate o log).1 = true := by
  intro hall
  have hc : .pattern ∈ Category.referrer.kind.functions := List.mem_cons_self
  have hproper : Category.referrer.Proper := fun path hpath => nomatch hpath
  have htests : Category.referrer.TestsBy ("ΑΣ" ++ "*") _ :=
    Category.testsBy_matches hc hproper (by decide)
  obtain ⟨e, hparse, htest⟩ := htests none
  let o : Opportunity := {
    request := { (default : BidRequest) with site := some ⟨none, some "ΑΣΑ", none, none⟩ }
    imp := default }
  have htrue := hall .referrer "ΑΣ" "Α" hc hproper isConstant_alphaSigma none e o .empty hparse
    (List.mem_singleton_self _)
  obtain ⟨x, hx, hmatches⟩ := (htest o .empty).mp htrue
  obtain rfl : x = "ΑΣ" ++ "Α" := List.mem_singleton.mp hx
  -- the sigma of the value is followed by a letter, that of the constant is not
  refine (isConstant_alphaSigma.matches_behind_iff "Α").mp hmatches ⟨⟨['Α'], [], rfl, ?_, rfl⟩, ?_⟩
  · decide +kernel
  · decide +kernel

end DealPacing.Targeting
