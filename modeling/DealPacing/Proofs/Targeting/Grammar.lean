import DealPacing.Proofs.Targeting.Keys
import DealPacing.Proofs.Targeting.Patterns
import DealPacing.Targeting.Definition
import Mathlib.Data.List.Forall2

/-!
# The grammar of targeting definitions

A targeting definition is an object with one member: an operator over definitions, or the key of a
category over an object with one member, a function of the category over an operand of its shape.
The grammar is stated as a relation between values and expressions, without regard to how values are
read, and definitions are read exactly as the grammar has it.

## Main definitions

* `IsText`, `IsInteger`, `IsNumber`, `IsSize`, `IsRegion`, `IsArray`: the shapes of operands
* `Leaf.Reads`: the tests that a category, a function and an operand define
* `Expression.Reads`: the expressions that definitions define

## Main results

* `Leaf.ofJson_eq_ok_iff`, `Expression.ofJson_eq_ok_iff`: reading agrees with the grammar
* `Expression.parse_reads`: what is read, and what is refused
-/

namespace DealPacing.Targeting

/-! ## The grammar -/

section Operands

variable {α : Type} (R : Json → α → Prop)

/-- A string that is not empty. -/
def IsText (v : Json) (s : String) : Prop := v = .str s ∧ s ≠ ""

/-- A signed 64-bit integer. -/
def IsInteger (v : Json) (n : Int) : Prop := v = .int n ∧ int64Min ≤ n ∧ n ≤ int64Max

/-- A number, whatever its form. -/
def IsNumber (v : Json) (x : Float) : Prop := ∃ n, v = .num n ∧ n.toFloat = x

/-- An object with a member under `name`. -/
def HasMember (name : String) (v : Json) (a : α) : Prop := ∃ w, v.get? name = some w ∧ R w a

/-- An object with the width and the height of a creative. -/
def IsSize (v : Json) (size : Size) : Prop :=
  HasMember IsInteger "w" v size.w ∧ HasMember IsInteger "h" v size.h

/-- An object with a centre and a radius. -/
def IsRegion (v : Json) (r : Region) : Prop :=
  HasMember IsNumber "lat" v r.lat ∧ HasMember IsNumber "lon" v r.lon ∧
    HasMember IsNumber "radiusMiles" v r.radius

/-- An array of values, in order. -/
def IsArray (v : Json) (as : List α) : Prop := ∃ items, v = .arr items ∧ List.Forall₂ R items as

end Operands

/-- The tests of a category that a function and its operand define. -/
inductive Leaf.Reads (c : Category) : MatchFunction → Json → Leaf → Prop
  | sizes {v sizes} (hkind : c.kind = .sizes) (h : IsArray IsSize v sizes) :
    Reads c .intersects v (.intersectsSizes c sizes)
  | textSet {v texts} (hkind : c.kind = .stringSet ∨ c.kind = .typed) (h : IsArray IsText v texts) :
    Reads c .intersects v (.intersectsStrings c (texts.map Text.lowercase))
  | texts {v texts} (hkind : c.kind = .text ∨ c.kind = .extText ∨ c.kind = .typed)
    (h : IsArray IsText v texts) : Reads c .member v (.inStrings c (texts.map Text.lowercase))
  | integers {v ns} (hkind : c.kind = .integer) (h : IsArray IsInteger v ns) :
    Reads c .member v (.inIntegers c ns)
  | typedIntegers {v n ns} (hkind : c.kind = .typed) (h : IsArray IsInteger v (n :: ns)) :
    Reads c .member v (.inIntegers c (n :: ns))
  | typedIntegerSet {v n ns} (hkind : c.kind = .typed) (h : IsArray IsInteger v (n :: ns)) :
    Reads c .intersects v (.intersectsIntegers c (n :: ns))
  | region {v r} (hkind : c.kind = .geo) (h : IsRegion v r) : Reads c .within v (.within c r)
  | pattern {v raw front constant back} (hkind : c.kind = .text ∨ c.kind = .typed)
    (h : IsText v raw) (hspelling : Spelling raw.toList front constant back) :
    Reads c .pattern v (.pattern c (Pattern.ofEnds (0 < front) (0 < back))
      (Text.lowercase (String.ofList constant)))

/-- The expressions that definitions define for an owner, under which tests of domains are reported.
-/
inductive Expression.Reads (owner : Option String) : Json → Expression → Prop
  | and {items es} (h : List.Forall₂ (Reads owner) items es) :
    Reads owner (.obj [("$and", .arr items)]) (.and es)
  | or {items es} (h : List.Forall₂ (Reads owner) items es) :
    Reads owner (.obj [("$or", .arr items)]) (.or es)
  | not {v e} (h : Reads owner v e) : Reads owner (.obj [("$not", v)]) (.not e)
  | leaf {c f v test} (hc : c.Proper) (h : Leaf.Reads c f v test)
    (hdomain : c ≠ .domain ∧ c ≠ .publisherDomain) :
    Reads owner (.obj [(c.key, .obj [(f.key, v)])]) (.leaf test)
  | domainLeaf {c f v test} (h : Leaf.Reads c f v test)
    (hdomain : c = .domain ∨ c = .publisherDomain) :
    Reads owner (.obj [(c.key, .obj [(f.key, v)])]) (.domainLeaf owner test)

/-! ## Reading operands -/

section Results

variable {α β ε : Type}

theorem bind_eq_ok_iff {x : Except ε α} {f : α → Except ε β} {b : β} :
    x >>= f = .ok b ↔ ∃ a, x = .ok a ∧ f a = .ok b := by
  cases x with
  | error e => exact ⟨nofun, nofun⟩
  | ok a => exact ⟨fun h => ⟨a, rfl, h⟩, by rintro ⟨_, ⟨⟩, h⟩; exact h⟩

theorem map_eq_ok_iff {x : Except ε α} {f : α → β} {b : β} :
    x.map f = .ok b ↔ ∃ a, x = .ok a ∧ f a = b := by
  cases x with
  | error e => exact ⟨nofun, nofun⟩
  | ok a => simp [Except.map]

theorem mapM_eq_ok_iff {f : α → Except ε β} {as : List α} {bs : List β} :
    as.mapM f = .ok bs ↔ List.Forall₂ (fun a b => f a = .ok b) as bs := by
  induction as generalizing bs with
  | nil =>
    rw [List.mapM_nil, List.forall₂_nil_left_iff]
    exact ⟨fun h => by cases h; rfl, fun h => h ▸ rfl⟩
  | cons a as ih =>
    simp only [List.mapM_cons, bind_eq_ok_iff, ih, List.forall₂_cons_left_iff]
    constructor
    · rintro ⟨b, hb, bs, hbs, ⟨⟩⟩
      exact ⟨b, bs, hb, hbs, rfl⟩
    · rintro ⟨b, bs, hb, hbs, rfl⟩
      exact ⟨b, hb, bs, hbs, rfl⟩

end Results

theorem arrayOf_eq_ok_iff {α : Type} {element : Json → Except SyntaxError α}
    {R : Json → α → Prop} (h : ∀ v a, element v = .ok a ↔ R v a) {v : Json} {as : List α} :
    arrayOf element v = .ok as ↔ IsArray R v as := by
  have hR : (fun v a => element v = .ok a) = R := funext₂ fun v a => propext (h v a)
  unfold arrayOf IsArray
  cases v with
  | arr items => simp [mapM_eq_ok_iff, hR]
  | _ => simp

theorem stringOperand_eq_ok_iff (v : Json) (s : String) :
    stringOperand v = .ok s ↔ IsText v s := by
  unfold IsText
  cases v with
  | str t =>
    simp only [stringOperand, String.isEmpty_iff, Json.str.injEq]
    split
    · next hempty => simp [hempty]
    · next hne =>
      rw [Except.ok.injEq]
      exact ⟨by rintro rfl; exact ⟨rfl, hne⟩, And.left⟩
  | _ => simp [stringOperand]

theorem asInt?_eq_some_iff {v : Json} {n : Int} : v.asInt? = some n ↔ IsInteger v n := by
  unfold Json.asInt? IsInteger Json.int fitsInt64
  split <;> simp_all
  omega

theorem integerOperand_eq_ok_iff (v : Json) (n : Int) :
    integerOperand v = .ok n ↔ IsInteger v n := by
  rw [← asInt?_eq_some_iff]
  unfold integerOperand
  cases v.asInt? <;> simp

theorem asFloat?_eq_some_iff {v : Json} {x : Float} : v.asFloat? = some x ↔ IsNumber v x := by
  unfold Json.asFloat? IsNumber
  cases v <;> simp

/-- A member read by a partial function that agrees with `R`. -/
theorem bind_get?_eq_some_iff {α : Type} {R : Json → α → Prop} {read : Json → Option α}
    (h : ∀ v a, read v = some a ↔ R v a) (name : String) (v : Json) (a : α) :
    (v.get? name).bind read = some a ↔ HasMember R name v a := by
  simp [Option.bind_eq_some_iff, h, HasMember]

theorem sizeOperand_eq_ok_iff (v : Json) (size : Size) :
    sizeOperand v = .ok size ↔ IsSize v size := by
  simp only [IsSize, ← bind_get?_eq_some_iff fun _ _ => asInt?_eq_some_iff]
  cases v with
  | obj entries =>
    simp only [sizeOperand, Json.get?]
    obtain ⟨w, h⟩ := size
    split
    · next hw hh => simp [hw, hh]
    · next hnot => simpa using hnot w h
  | _ => simp [sizeOperand, Json.get?]

theorem regionOperand_eq_ok_iff (v : Json) (r : Region) :
    regionOperand v = .ok r ↔ IsRegion v r := by
  simp only [IsRegion, ← bind_get?_eq_some_iff fun _ _ => asFloat?_eq_some_iff]
  cases v with
  | obj entries =>
    simp only [regionOperand, Json.get?]
    obtain ⟨lat, lon, radius⟩ := r
    split
    · next hlat hlon hradius => simp [hlat, hlon, hradius]
    · next hnot => simpa using hnot lat lon radius
  | _ => simp [regionOperand, Json.get?]

theorem singleMember_eq_ok_iff {v : Json} {entry : String × Json} :
    singleMember v = .ok entry ↔ v = .obj [entry] := by
  unfold singleMember
  split
  · simp
  · next entries hnot =>
    have hne : entries ≠ [entry] := hnot entry
    simpa using hne
  · next hnot =>
    have hne : v ≠ .obj [entry] := hnot [entry]
    simpa using hne

/-- The function of a category's test, and its operand. -/
theorem functionOf_eq_ok_iff {accepted : List MatchFunction} {v operand : Json}
    {f : MatchFunction} :
    functionOf accepted v = .ok (f, operand) ↔ v = .obj [(f.key, operand)] ∧ f ∈ accepted := by
  simp only [functionOf, bind_eq_ok_iff, singleMember_eq_ok_iff]
  constructor
  · rintro ⟨⟨key, operand'⟩, rfl, h⟩
    split at h
    · cases h
    · next g hg =>
      rw [MatchFunction.ofKey?_eq_some_iff] at hg
      split at h
      · next hmem =>
        cases h
        exact ⟨by rw [← hg], hmem⟩
      · cases h
  · rintro ⟨rfl, hmem⟩
    refine ⟨_, rfl, ?_⟩
    simp [MatchFunction.ofKey?_key, hmem]

/-! ## Reading tests -/

/-- Integers that are not none are known by the first one. -/
theorem holdsIntegers_of_isInteger {v : Json} {n : Int} {ns : List Int}
    (h : IsArray IsInteger v (n :: ns)) : holdsIntegers v = .ok true := by
  obtain ⟨items, rfl, hitems⟩ := h
  obtain ⟨w, rest, ⟨rfl, -⟩, -, rfl⟩ := List.forall₂_cons_right_iff.mp hitems
  rfl

theorem holdsIntegers_of_isText {v : Json} {texts : List String} (h : IsArray IsText v texts) :
    holdsIntegers v = .ok false := by
  obtain ⟨items, rfl, hitems⟩ := h
  cases hitems with
  | nil => rfl
  | cons htext _ =>
    obtain ⟨rfl, -⟩ := htext
    rfl

theorem exists_cons_of_holdsIntegers {v : Json} {ns : List Int} (h : holdsIntegers v = .ok true)
    (hns : IsArray IsInteger v ns) : ∃ n ms, ns = n :: ms := by
  obtain ⟨items, rfl, hitems⟩ := hns
  cases hitems with
  | nil => cases h
  | cons _ _ => exact ⟨_, _, rfl⟩

variable {c : Category} {f : MatchFunction} {v : Json} {test : Leaf}

/-- What is made of an array that is read. -/
theorem arrayOf_bind_eq_ok_iff {α β : Type} {element : Json → Except SyntaxError α}
    {R : Json → α → Prop} (h : ∀ v a, element v = .ok a ↔ R v a) {build : List α → β} {b : β} :
    (do return build (← arrayOf element v)) = .ok b ↔ ∃ as, IsArray R v as ∧ build as = b := by
  simp only [bind_eq_ok_iff, arrayOf_eq_ok_iff h]
  exact exists_congr fun as => and_congr_right fun _ => ⟨Except.ok.inj, congrArg _⟩

theorem textArray_eq_ok_iff {α : Type} {build : List String → α} {a : α} :
    (do return build (← arrayOf stringOperand v)) = .ok a ↔
      ∃ texts, IsArray IsText v texts ∧ build texts = a :=
  arrayOf_bind_eq_ok_iff stringOperand_eq_ok_iff

theorem integerArray_eq_ok_iff {α : Type} {build : List Int → α} {a : α} :
    (do return build (← arrayOf integerOperand v)) = .ok a ↔
      ∃ ns, IsArray IsInteger v ns ∧ build ns = a :=
  arrayOf_bind_eq_ok_iff integerOperand_eq_ok_iff

theorem Leaf.Reads.typedLeaf_eq_ok (h : Leaf.Reads c f v test) (hkind : c.kind = .typed)
    (hf : f ≠ .pattern) : typedLeaf c f v = .ok test := by
  cases h with
  | sizes hk _ | integers hk _ | region hk _ => simp [hkind] at hk
  | pattern _ _ _ => exact absurd rfl hf
  | texts _ h =>
    rw [typedLeaf, holdsIntegers_of_isText h]
    exact textArray_eq_ok_iff.mpr ⟨_, h, rfl⟩
  | textSet _ h =>
    rw [typedLeaf, holdsIntegers_of_isText h]
    exact textArray_eq_ok_iff.mpr ⟨_, h, rfl⟩
  | typedIntegers _ h =>
    rw [typedLeaf, holdsIntegers_of_isInteger h]
    exact integerArray_eq_ok_iff.mpr ⟨_, h, rfl⟩
  | typedIntegerSet _ h =>
    rw [typedLeaf, holdsIntegers_of_isInteger h]
    exact integerArray_eq_ok_iff.mpr ⟨_, h, rfl⟩

theorem reads_of_typedLeaf (h : typedLeaf c f v = .ok test) (hkind : c.kind = .typed)
    (hf : f = .member ∨ f = .intersects) : Leaf.Reads c f v test := by
  obtain ⟨integers, hfirst, h⟩ := bind_eq_ok_iff.mp h
  -- integers are read only if there is one, so the array of integers is not empty
  cases integers with
  | false =>
    rcases hf with rfl | rfl
    · obtain ⟨texts, htexts, rfl⟩ := textArray_eq_ok_iff.mp h
      exact .texts (.inr (.inr hkind)) htexts
    · obtain ⟨texts, htexts, rfl⟩ := textArray_eq_ok_iff.mp h
      exact .textSet (.inr hkind) htexts
  | true =>
    rcases hf with rfl | rfl
    · obtain ⟨ns, hns, rfl⟩ := integerArray_eq_ok_iff.mp h
      obtain ⟨n, ns, rfl⟩ := exists_cons_of_holdsIntegers hfirst hns
      exact .typedIntegers hkind hns
    · obtain ⟨ns, hns, rfl⟩ := integerArray_eq_ok_iff.mp h
      obtain ⟨n, ns, rfl⟩ := exists_cons_of_holdsIntegers hfirst hns
      exact .typedIntegerSet hkind hns

theorem reads_of_ofPattern (h : (do return Leaf.ofPattern c (← stringOperand v)) = .ok test)
    (hkind : c.kind = .text ∨ c.kind = .typed) : Leaf.Reads c .pattern v test := by
  obtain ⟨raw, hraw, ⟨⟩⟩ := bind_eq_ok_iff.mp h
  have htext := (stringOperand_eq_ok_iff _ _).mp hraw
  have hne : raw.toList ≠ [] := fun e => htext.2 (String.toList_eq_nil_iff.mp e)
  obtain ⟨front, constant, back, hspelling⟩ := exists_spelling hne
  rw [hspelling.ofPattern_eq]
  exact .pattern hkind htext hspelling

theorem Leaf.Reads.mem_functions (h : Leaf.Reads c f v test) : f ∈ c.kind.functions := by
  cases h with
  | sizes hk _ | integers hk _ | typedIntegers hk _ | typedIntegerSet hk _ | region hk _ =>
    rw [hk]
    decide
  | textSet hk _ | pattern hk _ _ => rcases hk with hk | hk <;> rw [hk] <;> decide
  | texts hk _ => rcases hk with hk | hk | hk <;> rw [hk] <;> decide

/-- A test of the grammar is read. -/
theorem Leaf.Reads.ofJson_eq_ok (h : Leaf.Reads c f v test) :
    Leaf.ofJson c (.obj [(f.key, v)]) = .ok test := by
  refine bind_eq_ok_iff.mpr ⟨(f, v), functionOf_eq_ok_iff.mpr ⟨rfl, h.mem_functions⟩, ?_⟩
  -- lists for nested attributes are read by their first element, all else by the kind alone
  by_cases htyped : c.kind = .typed ∧ f ≠ .pattern
  · have hleaf := h.typedLeaf_eq_ok htyped.1 htyped.2
    simp only [htyped.1]
    cases f with
    | pattern => exact absurd rfl htyped.2
    | _ => exact hleaf
  · cases h with
    | sizes hk h =>
      simp only [hk]
      exact (arrayOf_bind_eq_ok_iff sizeOperand_eq_ok_iff).mpr ⟨_, h, rfl⟩
    | textSet hk h =>
      have hk := hk.resolve_right fun hk => htyped ⟨hk, nofun⟩
      simp only [hk]
      exact textArray_eq_ok_iff.mpr ⟨_, h, rfl⟩
    | texts hk h =>
      rcases hk with hk | hk | hk
      · simp only [hk]
        exact textArray_eq_ok_iff.mpr ⟨_, h, rfl⟩
      · simp only [hk]
        exact textArray_eq_ok_iff.mpr ⟨_, h, rfl⟩
      · exact absurd ⟨hk, nofun⟩ htyped
    | integers hk h =>
      simp only [hk]
      exact integerArray_eq_ok_iff.mpr ⟨_, h, rfl⟩
    | typedIntegers hk _ | typedIntegerSet hk _ => exact absurd ⟨hk, nofun⟩ htyped
    | region hk h =>
      simp only [hk, (regionOperand_eq_ok_iff _ _).mpr h]
      rfl
    | pattern hk h hspelling =>
      rw [← hspelling.ofPattern_eq]
      rcases hk with hk | hk <;> simp only [hk, (stringOperand_eq_ok_iff _ _).mpr h] <;> rfl

/-- What is read as a test is one of the grammar. -/
theorem Leaf.reads_of_ofJson {w : Json} (h : Leaf.ofJson c w = .ok test) :
    ∃ f v, w = .obj [(f.key, v)] ∧ Leaf.Reads c f v test := by
  obtain ⟨⟨f, v⟩, hfunction, hread⟩ := bind_eq_ok_iff.mp h
  obtain ⟨rfl, hf⟩ := functionOf_eq_ok_iff.mp hfunction
  refine ⟨f, v, rfl, ?_⟩
  cases hk : c.kind <;> simp only [hk, CategoryKind.functions, List.mem_cons, List.not_mem_nil,
    or_false] at hf hread
  case sizes =>
    subst hf
    obtain ⟨sizes, hsizes, rfl⟩ := (arrayOf_bind_eq_ok_iff sizeOperand_eq_ok_iff).mp hread
    exact .sizes hk hsizes
  case stringSet =>
    subst hf
    obtain ⟨texts, htexts, rfl⟩ := textArray_eq_ok_iff.mp hread
    exact .textSet (.inl hk) htexts
  case text =>
    rcases hf with rfl | rfl
    · exact reads_of_ofPattern hread (.inl hk)
    · obtain ⟨texts, htexts, rfl⟩ := textArray_eq_ok_iff.mp hread
      exact .texts (.inl hk) htexts
  case integer =>
    subst hf
    obtain ⟨ns, hns, rfl⟩ := integerArray_eq_ok_iff.mp hread
    exact .integers hk hns
  case extText =>
    subst hf
    obtain ⟨texts, htexts, rfl⟩ := textArray_eq_ok_iff.mp hread
    exact .texts (.inr (.inl hk)) htexts
  case geo =>
    subst hf
    obtain ⟨r, hr, ⟨⟩⟩ := bind_eq_ok_iff.mp hread
    exact .region hk ((regionOperand_eq_ok_iff _ _).mp hr)
  case typed =>
    rcases hf with rfl | rfl | rfl
    · exact reads_of_ofPattern hread (.inr hk)
    · exact reads_of_typedLeaf hread hk (.inl rfl)
    · exact reads_of_typedLeaf hread hk (.inr rfl)

/-! ## Reading definitions -/

theorem Category.isDomain_iff {c : Category} :
    c.isDomain = true ↔ c = .domain ∨ c = .publisherDomain := by
  cases c <;> simp [isDomain]

namespace Expression

variable {owner : Option String} {e : Expression}

theorem ne_key_of_operator (op : Operator) (c : Category) : op.key ≠ c.key := fun h => by
  have hnone := Operator.ofKey?_key c
  rw [Operator.ofKey?_eq_some_iff.mpr h.symm] at hnone
  cases hnone

/-- What an object with one member defines depends on its key. -/
theorem reads_single_iff {key : String} :
    Reads owner (.obj [(key, v)]) e ↔
      (key = "$and" ∧ ∃ es, IsArray (Reads owner) v es ∧ .and es = e) ∨
      (key = "$or" ∧ ∃ es, IsArray (Reads owner) v es ∧ .or es = e) ∨
      (key = "$not" ∧ ∃ child, Reads owner v child ∧ .not child = e) ∨
      ∃ c f w test, (key = c.key ∧ c.Proper) ∧ v = .obj [(f.key, w)] ∧ Leaf.Reads c f w test ∧
        ofLeaf owner c test = e := by
  constructor
  · intro h
    -- the key of the member is that of the production that was used
    generalize hw : Json.obj [(key, v)] = w at h
    cases h with
    | and h =>
      cases hw
      exact .inl ⟨rfl, _, ⟨_, rfl, h⟩, rfl⟩
    | or h =>
      cases hw
      exact .inr (.inl ⟨rfl, _, ⟨_, rfl, h⟩, rfl⟩)
    | not h =>
      cases hw
      exact .inr (.inr (.inl ⟨rfl, _, h, rfl⟩))
    | @leaf c _ _ _ hc h hdomain =>
      cases hw
      have hnot : ¬c.isDomain = true := fun hc => not_or.mpr hdomain (Category.isDomain_iff.mp hc)
      exact .inr (.inr (.inr ⟨_, _, _, _, ⟨rfl, hc⟩, rfl, h, if_neg hnot⟩))
    | @domainLeaf c _ _ _ h hdomain =>
      cases hw
      have hc : c.Proper := by rcases hdomain with rfl | rfl <;> decide
      have his := Category.isDomain_iff.mpr hdomain
      exact .inr (.inr (.inr ⟨_, _, _, _, ⟨rfl, hc⟩, rfl, h, if_pos his⟩))
  · rintro (⟨rfl, es, ⟨items, rfl, h⟩, rfl⟩ | ⟨rfl, es, ⟨items, rfl, h⟩, rfl⟩ |
      ⟨rfl, child, h, rfl⟩ | ⟨c, f, w, test, ⟨rfl, hc⟩, rfl, h, rfl⟩)
    · exact .and h
    · exact .or h
    · exact .not h
    · unfold ofLeaf
      split
      · next hdomain => exact .domainLeaf h (Category.isDomain_iff.mp hdomain)
      · next hdomain =>
        rw [Category.isDomain_iff, not_or] at hdomain
        exact .leaf hc h hdomain

mutual

/-- **Definitions are read as the grammar has them.** -/
theorem ofJson_eq_ok_iff : ∀ (v : Json) (e : Expression), ofJson owner v = .ok e ↔ Reads owner v e
  | .obj [(key, v)], e => by
    have harray := ofArray_eq_ok_iff v
    have hchild := ofJson_eq_ok_iff v
    rw [ofJson, reads_single_iff]
    cases hop : Operator.ofKey? key with
    | some op =>
      -- the key is an operator, and no category has the same one
      rw [Operator.ofKey?_eq_some_iff] at hop
      subst hop
      have hcategory := ne_key_of_operator op
      cases op <;> simp_all [map_eq_ok_iff, Operator.key]
    | none =>
      -- the key is that of a category or of nothing
      have hne (op : Operator) : key ≠ op.key := fun h => by
        rw [Operator.ofKey?_eq_some_iff.mpr h] at hop
        cases hop
      have hand := hne .and
      have hor := hne .or
      have hnot := hne .not
      simp only [Operator.key] at hand hor hnot
      simp only [hand, hor, hnot, false_and, false_or, ← Category.ofKey?_eq_some_iff]
      cases hc : Category.ofKey? key with
      | none => simp
      | some c =>
        simp only [map_eq_ok_iff, Option.some.injEq]
        constructor
        · rintro ⟨test, h, rfl⟩
          obtain ⟨f, w, rfl, hreads⟩ := Leaf.reads_of_ofJson h
          exact ⟨c, f, w, test, rfl, rfl, hreads, rfl⟩
        · rintro ⟨_, f, w, test, rfl, rfl, hreads, rfl⟩
          exact ⟨test, hreads.ofJson_eq_ok, rfl⟩
  | .obj [], e | .obj (_ :: _ :: _), e | .null, e | .bool _, e | .num _, e | .str _, e
  | .arr _, e => ⟨fun h => by simp [ofJson] at h, nofun⟩

theorem ofArray_eq_ok_iff : ∀ (v : Json) (es : List Expression),
    ofArray owner v = .ok es ↔ IsArray (Reads owner) v es
  | .arr items, es => by
    simpa [ofArray, IsArray] using ofItems_eq_ok_iff items es
  | .null, es | .bool _, es | .num _, es | .str _, es | .obj _, es => by simp [ofArray, IsArray]

theorem ofItems_eq_ok_iff : ∀ (items : List Json) (es : List Expression),
    ofItems owner items = .ok es ↔ List.Forall₂ (Reads owner) items es
  | [], es => by
    rw [ofItems, List.forall₂_nil_left_iff, Except.ok.injEq, eq_comm]
  | v :: rest, es => by
    have hhead := ofJson_eq_ok_iff v
    have htail := ofItems_eq_ok_iff rest
    simp only [ofItems, bind_eq_ok_iff, hhead, htail, List.forall₂_cons_left_iff]
    constructor
    · rintro ⟨e, he, es, hes, ⟨⟩⟩
      exact ⟨e, es, he, hes, rfl⟩
    · rintro ⟨e, es, he, hes, rfl⟩
      exact ⟨e, he, es, hes, rfl⟩

end

theorem parse_eq_ok_iff : parse v owner = .ok e ↔ ofJson owner v = .ok e := by
  unfold parse
  cases ofJson owner v <;> simp [Except.mapError]

/-- **Parsing accepts exactly the grammar**: a value is read as an expression if and only if it
defines the expression for its owner, and a value that defines no expression is refused with an
error that carries the owner. -/
theorem parse_reads (v : Json) (owner : Option String) :
    (∀ e, parse v owner = .ok e ↔ Reads owner v e) ∧
      ((¬∃ e, Reads owner v e) ↔ ∃ cause, parse v owner = .error ⟨owner, cause⟩) := by
  have hreads (e) : parse v owner = .ok e ↔ Reads owner v e :=
    parse_eq_ok_iff.trans (ofJson_eq_ok_iff v e)
  refine ⟨hreads, ?_⟩
  simp only [← hreads]
  unfold parse
  cases ofJson owner v with
  | ok e => simp [Except.mapError]
  | error cause => simp [Except.mapError]

end Expression

end DealPacing.Targeting
