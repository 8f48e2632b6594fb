import DealPacing.Proofs.Targeting.Logic

/-!
# Lists of constants for nested attributes

A nested attribute is compared with a list of constants in two ways: `$in` accepts one of its values
as scalars, and `$intersects` one of its values as lists, in which a scalar counts as a list of one.
What lies at a path of a JSON value is found by both. But the user object has values of its own,
which are looked up as scalars and not as lists, so that the first test can hold without the second.

## Main definitions

* `Category.definition`: the definition of a test
* `Opportunity.ownValues`, `userFields`: the values of the user object, and their names
* `Leaf.asSet`: the test of lists that has the constants of a test of scalars

## Main results

* `mem_string`, `mem_integer`: a scalar is a value of the user object or in a list
* `Leaf.Reads.isTrue_or_of_asSet`: where the two tests differ
* `intersects_accepts_iff`: `$intersects` accepts what `$in` accepts if and only if the category
  names no value of the user object
-/

namespace DealPacing.Targeting

/-- The definition that tests a category by a function and its operand. -/
def Category.definition (c : Category) (f : MatchFunction) (operand : Json) : Json :=
  .obj [(c.key, .obj [(f.key, operand)])]

/-- The names of the values that the user object has of its own. -/
def userFields : List String := ["id", "buyeruid", "gender", "keywords", "customdata", "yob"]

namespace Opportunity

/-- The text of the user object that a category names. -/
def ownText (o : Opportunity) : Category → Option String
  | .userData path => do userAttribute (← o.request.user) path
  | _ => none

/-- The number of the user object that a category names. -/
def ownNumber (o : Opportunity) : Category → Option Int
  | .userData path => do userNumber (← o.request.user) path
  | _ => none

/-- The values of the user object that a category names. -/
def ownValues (o : Opportunity) (c : Category) : List Value :=
  (o.ownText c).toList.map .text ++ (o.ownNumber c).toList.map .integer

/-- The JSON values that a nested attribute is read from. -/
def nodes (o : Opportunity) : Category → List Json
  | .bidderParam path => (o.bidderParam path).toList
  | .userData path => (atPath o.userData path).toList
  | .siteData path => o.siteData path
  | _ => []

end Opportunity

/-- The test of lists that has the constants of a test of scalars. -/
def Leaf.asSet : Leaf → Leaf
  | .inStrings c constants => .intersectsStrings c constants
  | .inIntegers c constants => .intersectsIntegers c constants
  | test => test

/-! ## Scalars and lists -/

theorem toList_bind_eq {α β : Type} (x : Option α) (f : α → Option β) :
    (x.bind f).toList = x.toList.filterMap f := by
  cases x with
  | none => rfl
  | some a => cases h : f a <;> simp [h]

theorem mem_stringsOf_of_asString? {v : Json} {s : String} (h : v.asString? = some s) :
    s ∈ stringsOf v := by
  cases v <;> simp_all [Json.asString?, stringsOf]

theorem mem_integersOf_of_asInt? {v : Json} {n : Int} (h : v.asInt? = some n) :
    n ∈ integersOf v := by
  cases v with
  | arr items => cases h
  | _ => simp [integersOf, h]

section Nodes

variable {c : Category} (hc : c.kind = .typed) (o : Opportunity)
include hc

theorem string_eq :
    o.string c = (o.ownText c).toList ++ (o.nodes c).filterMap Json.asString? := by
  cases c with
  | bidderParam path => exact toList_bind_eq _ _
  | userData path => exact congrArg (_ ++ ·) (toList_bind_eq _ _)
  | siteData path => rfl
  | _ => cases hc

theorem integer_eq :
    o.integer c = (o.ownNumber c).toList ++ (o.nodes c).filterMap Json.asInt? := by
  cases c with
  | bidderParam path => exact toList_bind_eq _ _
  | userData path => exact congrArg (_ ++ ·) (toList_bind_eq _ _)
  | siteData path => rfl
  | _ => cases hc

theorem strings_eq : o.strings c = (o.nodes c).flatMap stringsOf := by
  cases c with
  | bidderParam path | userData path | siteData path => rfl
  | _ => cases hc

theorem integers_eq : o.integers c = (o.nodes c).flatMap integersOf := by
  cases c with
  | bidderParam path | userData path | siteData path => rfl
  | _ => cases hc

/-- A string of a nested attribute is one of the user object or in a list. -/
theorem mem_string {s : String} (h : s ∈ o.string c) :
    .text s ∈ o.ownValues c ∨ s ∈ o.strings c := by
  rw [string_eq hc, List.mem_append, List.mem_filterMap] at h
  rcases h with h | ⟨v, hv, hs⟩
  · left
    exact List.mem_append_left _ (List.mem_map_of_mem h)
  · right
    rw [strings_eq hc]
    exact List.mem_flatMap.mpr ⟨v, hv, mem_stringsOf_of_asString? hs⟩

/-- An integer of a nested attribute is one of the user object or in a list. -/
theorem mem_integer {n : Int} (h : n ∈ o.integer c) :
    .integer n ∈ o.ownValues c ∨ n ∈ o.integers c := by
  rw [integer_eq hc, List.mem_append, List.mem_filterMap] at h
  rcases h with h | ⟨v, hv, hn⟩
  · left
    exact List.mem_append_right _ (List.mem_map_of_mem h)
  · right
    rw [integers_eq hc]
    exact List.mem_flatMap.mpr ⟨v, hv, mem_integersOf_of_asInt? hn⟩

theorem mem_string_of_ownValues {s : String} (h : .text s ∈ o.ownValues c) : s ∈ o.string c := by
  rw [string_eq hc]
  simp only [Opportunity.ownValues, List.mem_append, List.mem_map] at h
  rcases h with ⟨_, hmem, ⟨⟩⟩ | ⟨_, -, ⟨⟩⟩
  exact List.mem_append_left _ hmem

theorem mem_integer_of_ownValues {n : Int} (h : .integer n ∈ o.ownValues c) :
    n ∈ o.integer c := by
  rw [integer_eq hc]
  simp only [Opportunity.ownValues, List.mem_append, List.mem_map] at h
  rcases h with ⟨_, -, ⟨⟩⟩ | ⟨_, hmem, ⟨⟩⟩
  exact List.mem_append_left _ hmem

end Nodes

/-! ## The two tests -/

section Tests

variable {c : Category} {v : Json} {test : Leaf} {o : Opportunity}

/-- A list that `$in` takes is taken by `$intersects`, and the other way round. -/
theorem Leaf.Reads.asSet (hc : c.kind = .typed) (h : Leaf.Reads c .member v test) :
    Leaf.Reads c .intersects v test.asSet := by
  cases h with
  | texts _ h => exact .textSet (.inr hc) h
  | typedIntegers _ h => exact .typedIntegerSet hc h
  | integers hk _ => exact absurd (hc.symm.trans hk) (by decide)

/-- Where `$in` accepts, `$intersects` accepts, or a value of the user object is accepted. -/
theorem Leaf.Reads.isTrue_or_of_asSet (hc : c.kind = .typed) (h : Leaf.Reads c .member v test)
    (htrue : test.IsTrue o) :
    test.asSet.IsTrue o ∨ ∃ value ∈ o.ownValues c, test.Accepts value := by
  obtain ⟨value, hmem, haccepts⟩ := htrue
  cases h with
  | texts _ h =>
    obtain ⟨s, hs, rfl⟩ := List.mem_map.mp hmem
    rcases mem_string hc o hs with hown | hlist
    · exact .inr ⟨_, hown, haccepts⟩
    · exact .inl ⟨_, List.mem_map_of_mem hlist, haccepts⟩
  | integers _ h | typedIntegers _ h =>
    obtain ⟨n, hn, rfl⟩ := List.mem_map.mp hmem
    rcases mem_integer hc o hn with hown | hlist
    · exact .inr ⟨_, hown, haccepts⟩
    · exact .inl ⟨_, List.mem_map_of_mem hlist, haccepts⟩

/-- `$in` accepts every value of the user object that is among the constants. -/
theorem Leaf.Reads.isTrue_of_ownValues (hc : c.kind = .typed) (h : Leaf.Reads c .member v test)
    {value : Value} (hmem : value ∈ o.ownValues c) (haccepts : test.Accepts value) :
    test.IsTrue o := by
  cases h with
  | texts _ h =>
    cases value with
    | text s => exact ⟨_, List.mem_map_of_mem (mem_string_of_ownValues hc o hmem), haccepts⟩
    | _ => cases haccepts
  | integers _ h | typedIntegers _ h =>
    cases value with
    | integer n => exact ⟨_, List.mem_map_of_mem (mem_integer_of_ownValues hc o hmem), haccepts⟩
    | _ => cases haccepts

/-- A key names a nested attribute with a path or nothing. -/
theorem Category.proper_of_ofKey? {c c' : Category} (hc : c.kind = .typed)
    (h : ofKey? c.key = some c') : c.Proper := by
  intro path hpath hempty
  subst hempty
  cases c with
  | bidderParam path | userData path | siteData path =>
    cases hpath
    exact nomatch h.symm.trans (rfl : _ = none)
  | _ => cases hc

/-- What is read of a definition that tests a nested attribute. -/
theorem Expression.parse_definition (hc : c.kind = .typed) {f : MatchFunction}
    {owner : Option String} {e : Expression} :
    Expression.parse (c.definition f v) owner = .ok e ↔
      c.Proper ∧ ∃ test, Leaf.Reads c f v test ∧ .leaf test = e := by
  have hdomain : c ≠ .domain ∧ c ≠ .publisherDomain := by
    constructor <;> rintro rfl <;> cases hc
  rw [(parse_reads _ _).1]
  constructor
  · intro h
    unfold Category.definition at h
    rcases reads_single_iff.mp h with ⟨hkey, -⟩ | ⟨hkey, -⟩ | ⟨hkey, -⟩ | h
    · exact absurd hkey.symm (ne_key_of_operator .and c)
    · exact absurd hkey.symm (ne_key_of_operator .or c)
    · exact absurd hkey.symm (ne_key_of_operator .not c)
    obtain ⟨c', f', w, test, hkey, hobj, htest, rfl⟩ := h
    have hread := Category.ofKey?_eq_some_iff.mpr hkey
    have hproper := Category.proper_of_ofKey? hc hread
    have hself := Category.ofKey?_eq_some_iff.mpr ⟨rfl, hproper⟩
    obtain rfl : c' = c := Option.some.inj (hread.symm.trans hself)
    simp only [Json.obj.injEq, List.cons.injEq, Prod.mk.injEq, and_true] at hobj
    obtain ⟨hf, rfl⟩ := hobj
    have hff : some f' = some f := by
      rw [← MatchFunction.ofKey?_key f', ← hf, MatchFunction.ofKey?_key]
    obtain rfl := Option.some.inj hff
    refine ⟨hproper, test, htest, (if_neg fun his => ?_).symm⟩
    exact not_or.mpr hdomain (Category.isDomain_iff.mp his)
  · rintro ⟨hproper, test, htest, rfl⟩
    exact .leaf hproper htest hdomain

end Tests

/-! ## Where the tests differ -/

/-- Whatever a list accepts as scalars it accepts as lists: a definition of the category by `$in`
has its counterpart by `$intersects`, which is true whenever the first one is. -/
def Category.ListsScalars (c : Category) : Prop :=
  ∀ (v : Json) (owner : Option String) (e : Expression),
    Expression.parse (c.definition .member v) owner = .ok e →
    ∃ e', Expression.parse (c.definition .intersects v) owner = .ok e' ∧
      ∀ (o : Opportunity) (log log' : AuctionLog),
        (e.evaluate o log).1 = true → (e'.evaluate o log').1 = true

/-- The user object has no value for other names. -/
theorem ownValues_eq_nil {c : Category} (h : ∀ name ∈ userFields, c ≠ .userData name)
    (o : Opportunity) : o.ownValues c = [] := by
  cases c with
  | userData path =>
    have hne : path ∉ userFields := fun hmem => h path hmem rfl
    simp only [userFields, List.mem_cons, List.not_mem_nil, or_false, not_or] at hne
    cases huser : o.request.user <;>
      simp [Opportunity.ownValues, Opportunity.ownText, Opportunity.ownNumber, huser,
        Opportunity.userAttribute, Opportunity.userNumber, hne]
  | _ => rfl

/-- An opportunity whose user object has the text `"a"` in every field, and the number one. -/
def plainUser : Opportunity where
  request := { (default : BidRequest) with
    user := some ⟨some "a", some "a", some 1, some "a", some "a", some "a", [], none⟩ }
  imp := default

/-- Every name of the user object has a value that is found as a scalar and not in a list. -/
theorem exists_not_isTrue_asSet {name : String} (h : name ∈ userFields) :
    ∃ v test, Leaf.Reads (.userData name) .member v test ∧ test.IsTrue plainUser ∧
      ¬test.asSet.IsTrue plainUser := by
  have htext : IsArray IsText (.arr [.str "a"]) ["a"] := ⟨_, rfl, .cons ⟨rfl, by decide⟩ .nil⟩
  have hnumber : IsArray IsInteger (.arr [.int 1]) [1] :=
    ⟨_, rfl, .cons ⟨rfl, by decide, by decide⟩ .nil⟩
  -- the user has no extension, so no list has an element
  have hlists : ∀ test : Leaf, plainUser.lookup test = [] → ¬test.IsTrue plainUser := by
    rintro test hnil ⟨value, hmem, -⟩
    rw [hnil] at hmem
    cases hmem
  by_cases hyob : name = "yob"
  · subst hyob
    have hown : .integer 1 ∈ plainUser.ownValues (.userData "yob") := List.mem_singleton_self _
    have hreads : Leaf.Reads (.userData "yob") .member _ _ := .typedIntegers rfl hnumber
    exact ⟨_, _, hreads, hreads.isTrue_of_ownValues rfl hown (List.mem_singleton_self _),
      hlists _ rfl⟩
  · have hown : .text "a" ∈ plainUser.ownValues (.userData name) := by
      simp only [userFields, List.mem_cons, List.not_mem_nil, or_false] at h
      rcases h with rfl | rfl | rfl | rfl | rfl | rfl
      case inr.inr.inr.inr.inr => exact absurd rfl hyob
      all_goals exact List.mem_singleton_self _
    have hreads : Leaf.Reads (.userData name) .member _ _ := .texts (.inr (.inr rfl)) htext
    exact ⟨_, _, hreads, hreads.isTrue_of_ownValues rfl hown (List.mem_singleton_self _),
      hlists _ rfl⟩

section Expressions

variable {c : Category} {v : Json} {owner : Option String} {test : Leaf}

theorem evaluate_leaf_iff (o : Opportunity) (log : AuctionLog) :
    ((Expression.leaf test).evaluate o log).1 = true ↔ test.IsTrue o := by
  rw [Expression.fst_evaluate, Expression.holds, Leaf.holds_iff]

/-- The definition by `$intersects` with the list of one by `$in`. -/
theorem parse_definition_asSet (hc : c.kind = .typed) (hproper : c.Proper)
    (h : Leaf.Reads c .member v test) :
    Expression.parse (c.definition .intersects v) owner = .ok (.leaf test.asSet) :=
  (Expression.parse_definition hc).mpr ⟨hproper, _, h.asSet hc, rfl⟩

/-- The values of the user object are not listed. -/
theorem not_listsScalars {name : String} (hname : name ∈ userFields) :
    ¬(Category.userData name).ListsScalars := by
  intro hlists
  obtain ⟨v, test, h, htrue, hfalse⟩ := exists_not_isTrue_asSet hname
  have hproper : (Category.userData name).Proper := by
    rintro path ⟨⟩ rfl
    exact absurd hname (by decide)
  obtain ⟨e', hparse, himp⟩ :=
    hlists v none _ ((Expression.parse_definition rfl).mpr ⟨hproper, test, h, rfl⟩)
  obtain rfl := Except.ok.inj ((parse_definition_asSet rfl hproper h).symm.trans hparse)
  have hset := himp plainUser .empty .empty ((evaluate_leaf_iff _ _).mpr htrue)
  exact hfalse ((evaluate_leaf_iff _ _).mp hset)

end Expressions

/-- **A list accepts as lists what it accepts as scalars, values of the user object apart.** A list
of constants that `$in` takes is taken by `$intersects`. Where the first test is true, so is the
second, if and only if it is whenever a value of the user object is accepted. So a nested attribute
lists its scalars if and only if it names no value of the user object. -/
theorem intersects_accepts_iff (c : Category) (hc : c.kind = .typed) :
    (∀ v owner e, Expression.parse (c.definition .member v) owner = .ok e → ∃ test e',
      e = .leaf test ∧ Expression.parse (c.definition .intersects v) owner = .ok e' ∧
      ∀ o log log', ((e.evaluate o log).1 = true → (e'.evaluate o log').1 = true) ↔
        ((∃ value ∈ o.ownValues c, test.Accepts value) → (e'.evaluate o log').1 = true)) ∧
    (c.ListsScalars ↔ ∀ name ∈ userFields, c ≠ .userData name) := by
  refine ⟨?_, ?_, ?_⟩
  · intro v owner e hparse
    obtain ⟨hproper, test, h, rfl⟩ := (Expression.parse_definition hc).mp hparse
    refine ⟨test, _, rfl, parse_definition_asSet hc hproper h, fun o log log' => ?_⟩
    rw [evaluate_leaf_iff, evaluate_leaf_iff]
    constructor
    · rintro himp ⟨value, hmem, haccepts⟩
      exact himp (h.isTrue_of_ownValues hc hmem haccepts)
    · intro himp htrue
      exact (h.isTrue_or_of_asSet hc htrue).elim id himp
  · rintro hlists name hname rfl
    exact not_listsScalars hname hlists
  · intro hne v owner e hparse
    obtain ⟨hproper, test, h, rfl⟩ := (Expression.parse_definition hc).mp hparse
    refine ⟨_, parse_definition_asSet hc hproper h, fun o log log' htrue => ?_⟩
    rw [evaluate_leaf_iff] at htrue ⊢
    refine (h.isTrue_or_of_asSet hc htrue).resolve_right ?_
    rintro ⟨value, hmem, -⟩
    rw [ownValues_eq_nil hne] at hmem
    cases hmem

/-- The user's favourite sport is accepted as a list wherever it is accepted as a scalar. -/
theorem intersects_accepts_iff_sport : (Category.userData "sport").kind = .typed ∧
    (Category.userData "sport").ListsScalars := by
  refine ⟨rfl, (intersects_accepts_iff (.userData "sport") rfl).2.mpr ?_⟩
  rintro name hname ⟨⟩
  exact absurd hname (by decide)

/-- The user's gender is accepted as a scalar and not as a list. -/
theorem not_forall_listsScalars : ¬∀ c : Category, c.kind = .typed → c.ListsScalars := by
  intro hall
  have hgender : "gender" ∈ userFields := by decide
  exact not_listsScalars hgender (hall (.userData "gender") rfl)

end DealPacing.Targeting
