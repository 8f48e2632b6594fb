import DealPacing.Targeting.Category
import Mathlib.Data.List.Pairwise
import Mathlib.Data.Set.Function

/-!
# The keys of targeting definitions

A key names at most one category. No start of a key that carries a path is the start of another one
or of a fixed key, so the path is what follows the only start that the key has. No key of a category
is an operator.

## Main definitions

* `Category.Proper`: the path of a category, if it has one, is not empty

## Main results

* `Category.ofPathKey?_eq_some_iff`: the keys that carry a path
* `Category.ofKey?_eq_some_iff`: a key names a proper category exactly if it is the key of it
* `Operator.ofKey?_key`: the key of a category is not an operator
* `Category.key_injective`, `Category.keys_correspond`: keys and categories correspond
-/

namespace DealPacing.Targeting

/-- The key of an operator. -/
def Operator.key : Operator → String
  | .and => "$and"
  | .or => "$or"
  | .not => "$not"

theorem Operator.ofKey?_eq_some_iff {key : String} {op : Operator} :
    ofKey? key = some op ↔ key = op.key := by
  constructor
  · unfold ofKey?
    split <;> intro h <;> cases h <;> rfl
  · rintro rfl
    cases op <;> rfl

theorem MatchFunction.ofKey?_eq_some_iff {key : String} {f : MatchFunction} :
    ofKey? key = some f ↔ key = f.key := by
  constructor
  · unfold ofKey?
    split <;> intro h <;> cases h <;> rfl
  · rintro rfl
    exact ofKey?_key f

namespace Category

/-- The path of a category, if it has one, is not empty. -/
def Proper (c : Category) : Prop := ∀ path ∈ c.path?, path ≠ ""

instance : DecidablePred Proper := fun c =>
  inferInstanceAs (Decidable (∀ path ∈ c.path?, path ≠ ""))

theorem after?_eq_some_iff {start text rest : List Char} :
    after? start text = some rest ↔ text = start ++ rest := by
  induction start generalizing text with
  | nil => simp [after?]
  | cons c start ih =>
    cases text with
    | nil => simp [after?]
    | cons d text =>
      by_cases h : c = d
      · simp [after?, h, ih]
      · simp [after?, h, Ne.symm h]

/-! ## Keys with a path -/

/-- The key of a category with a path is the start of its kind, followed by the path. -/
theorem key_of_mem_openings {opening : String × (String → Category)} (h : opening ∈ openings)
    (path : String) : (opening.2 path).key = opening.1 ++ path := by
  simp only [openings, List.mem_cons, List.not_mem_nil, or_false] at h
  rcases h with rfl | rfl | rfl | rfl | rfl | rfl <;> rfl

theorem path?_of_mem_openings {opening : String × (String → Category)} (h : opening ∈ openings)
    (path : String) : (opening.2 path).path? = some path := by
  simp only [openings, List.mem_cons, List.not_mem_nil, or_false] at h
  rcases h with rfl | rfl | rfl | rfl | rfl | rfl <;> rfl

theorem exists_opening {c : Category} {path : String} (h : c.path? = some path) :
    ∃ opening ∈ openings, c = opening.2 path := by
  cases c <;> simp_all [path?, openings]

/-- The start of neither key is the start of the other one. -/
def Diverge (p q : String × (String → Category)) : Prop :=
  ¬p.1.toList <+: q.1.toList ∧ ¬q.1.toList <+: p.1.toList

instance : Std.Symm Diverge := ⟨fun _ _ => And.symm⟩

theorem openings_pairwise_diverge : openings.Pairwise Diverge := by
  unfold Diverge
  decide

/-- A text has one start at most. -/
theorem eq_of_opening_prefix {p q : String × (String → Category)} (hp : p ∈ openings)
    (hq : q ∈ openings) {text : List Char} (hpt : p.1.toList <+: text)
    (hqt : q.1.toList <+: text) : p = q := by
  by_contra hne
  have hdiverge := openings_pairwise_diverge.forall hp hq hne
  rcases List.prefix_or_prefix_of_prefix hpt hqt with h | h
  · exact hdiverge.1 h
  · exact hdiverge.2 h

theorem after?_toList_eq_some_iff {start key : String} {path : List Char} :
    after? start.toList key.toList = some path ↔ key = start ++ String.ofList path := by
  rw [after?_eq_some_iff, ← String.toList_inj, String.toList_append, String.toList_ofList]

/-- What a key with a path names is built from the path. -/
theorem exists_of_ofPathKey? {key : String} {c : Category} (h : ofPathKey? key = some c) :
    ∃ opening ∈ openings, ∃ path, path ≠ "" ∧ key = opening.1 ++ path ∧ c = opening.2 path := by
  obtain ⟨⟨start, build⟩, hmem, hfound⟩ := List.exists_of_findSome?_eq_some h
  dsimp only at hfound
  split at hfound
  · cases hfound
  · cases hfound
  · next path hne hafter =>
    refine ⟨(start, build), hmem, String.ofList path, ?_, after?_toList_eq_some_iff.mp hafter,
      (Option.some.inj hfound).symm⟩
    exact fun hempty => hne (String.ofList_eq_empty_iff.mp hempty)

/-- **The keys with a path** are a start and a path that is not empty. -/
theorem ofPathKey?_eq_some_iff {key : String} {c : Category} :
    ofPathKey? key = some c ↔
      ∃ opening ∈ openings, ∃ path, path ≠ "" ∧ key = opening.1 ++ path ∧ c = opening.2 path := by
  refine ⟨exists_of_ofPathKey?, ?_⟩
  rintro ⟨⟨start, build⟩, hmem, path, hne, rfl, rfl⟩
  have hafter : after? start.toList (start ++ path).toList = some path.toList :=
    after?_toList_eq_some_iff.mpr (by rw [String.ofList_toList])
  -- some start is found, and the key has no other start than this one
  have hsome : (ofPathKey? (start ++ path)).isSome := by
    refine List.findSome?_isSome_iff.mpr ⟨(start, build), hmem, ?_⟩
    dsimp only
    rw [hafter]
    split <;> simp_all
  obtain ⟨c', hc'⟩ := Option.isSome_iff_exists.mp hsome
  obtain ⟨⟨start', build'⟩, hmem', path', -, hkey, rfl⟩ := exists_of_ofPathKey? hc'
  have hstart' : start'.toList <+: (start ++ path).toList :=
    ⟨path'.toList, by rw [hkey, String.toList_append]⟩
  have hstart : start.toList <+: (start ++ path).toList :=
    ⟨path.toList, String.toList_append.symm⟩
  cases eq_of_opening_prefix hmem' hmem hstart' hstart
  rw [← String.toList_inj, String.toList_append, String.toList_append, List.append_right_inj,
    String.toList_inj] at hkey
  rw [hc', hkey]

/-! ## All keys -/

theorem proper_of_mem_openings {opening : String × (String → Category)} (h : opening ∈ openings)
    {path : String} : (opening.2 path).Proper ↔ path ≠ "" := by
  simp [Proper, path?_of_mem_openings h]

/-- **A key names a proper category** exactly if it is the key of the category. -/
theorem ofKey?_eq_some_iff {key : String} {c : Category} :
    ofKey? key = some c ↔ key = c.key ∧ c.Proper := by
  constructor
  · intro h
    unfold ofKey? at h
    split at h
    case h_12 =>
      obtain ⟨opening, hmem, path, hne, rfl, rfl⟩ := ofPathKey?_eq_some_iff.mp h
      exact ⟨(key_of_mem_openings hmem path).symm, (proper_of_mem_openings hmem).mpr hne⟩
    all_goals
      cases h
      exact ⟨rfl, by decide⟩
  · rintro ⟨rfl, hproper⟩
    cases hpath : c.path? with
    | none => cases c <;> first | rfl | cases hpath
    | some path =>
      obtain ⟨opening, hmem, rfl⟩ := exists_opening hpath
      have hfound : ofPathKey? (opening.2 path).key = some (opening.2 path) :=
        ofPathKey?_eq_some_iff.mpr ⟨opening, hmem, path, (proper_of_mem_openings hmem).mp hproper,
          key_of_mem_openings hmem path, rfl⟩
      -- no fixed key has a path behind a start
      generalize (opening.2 path).key = key at hfound ⊢
      unfold ofKey?
      split
      case h_12 => exact hfound
      all_goals exact nomatch hfound.symm.trans (rfl : _ = none)

/-! ## Keys and categories correspond -/

/-- No fixed key begins with the start of a key that carries a path. -/
theorem not_opening_prefix_key {c : Category} (hc : c.path? = none) :
    ∀ opening ∈ openings, ¬ opening.1.toList <+: c.key.toList := by
  cases c
  case deviceGeoExt | deviceExt | bidderParam | userSegment | userData | siteData => cases hc
  all_goals decide

theorem proper_of_path?_eq_none {c : Category} (hc : c.path? = none) : c.Proper := by
  intro path hpath
  rw [hc] at hpath
  cases hpath

/-- A start is the start of the keys that it opens. -/
theorem opening_prefix_key {opening : String × (String → Category)} (h : opening ∈ openings)
    (path : String) : opening.1.toList <+: (opening.2 path).key.toList := by
  rw [key_of_mem_openings h, String.toList_append]
  exact List.prefix_append _ _

/-- **No two categories have one key**, not even those with an empty path. -/
theorem key_injective : Function.Injective key := by
  intro c d hkey
  cases hc : c.path? with
  | none =>
    cases hd : d.path? with
    | none =>
      have hfirst : ofKey? c.key = some c :=
        ofKey?_eq_some_iff.mpr ⟨rfl, proper_of_path?_eq_none hc⟩
      have hsecond : ofKey? c.key = some d :=
        ofKey?_eq_some_iff.mpr ⟨hkey, proper_of_path?_eq_none hd⟩
      exact Option.some.inj (hfirst.symm.trans hsecond)
    | some path =>
      obtain ⟨opening, hmem, rfl⟩ := exists_opening hd
      exact absurd (hkey ▸ opening_prefix_key hmem path) (not_opening_prefix_key hc opening hmem)
  | some path =>
    obtain ⟨opening, hmem, rfl⟩ := exists_opening hc
    have hprefix := opening_prefix_key hmem path
    cases hd : d.path? with
    | none => exact absurd (hkey ▸ hprefix) (not_opening_prefix_key hd opening hmem)
    | some path' =>
      -- both keys have the start of either, and the start is cut off
      obtain ⟨opening', hmem', rfl⟩ := exists_opening hd
      cases eq_of_opening_prefix hmem hmem' (hkey ▸ hprefix) (opening_prefix_key hmem' path')
      rw [key_of_mem_openings hmem, key_of_mem_openings hmem, String.append_right_inj] at hkey
      rw [hkey]

/-- **Keys and categories correspond.** A key that names a category is the key of that category.
The key of a category whose path, if it has one, is not empty names that category, whatever is in
the path, so that no path is cut or read as another kind of key. Hence the keys that name a category
and these categories are in bijection, and no two categories have one key. -/
theorem keys_correspond :
    (∀ k c, ofKey? k = some c → c.key = k) ∧
      (∀ c : Category, c.Proper → ofKey? c.key = some c) ∧
      Set.BijOn key {c | c.Proper} {k | (ofKey? k).isSome} ∧ Function.Injective key := by
  have hnamed (k : String) (c : Category) (h : ofKey? k = some c) : c.key = k :=
    (ofKey?_eq_some_iff.mp h).1.symm
  have hfound (c : Category) (h : c.Proper) : ofKey? c.key = some c :=
    ofKey?_eq_some_iff.mpr ⟨rfl, h⟩
  refine ⟨hnamed, hfound, ⟨?_, key_injective.injOn, ?_⟩, key_injective⟩
  · intro c hc
    exact Option.isSome_iff_exists.mpr ⟨c, hfound c hc⟩
  · intro k hk
    obtain ⟨c, hc⟩ := Option.isSome_iff_exists.mp hk
    exact ⟨c, (ofKey?_eq_some_iff.mp hc).2, hnamed k c hc⟩

/-- A path that looks like a key, and one that looks like the start of another kind of key. -/
theorem keys_correspond_lookAlikes :
    let ext : Category := .deviceExt "geo.ext.pos"
    let data : Category := .userData "ufpd.pos"
    (ofKey? "device.ext.geo.ext.pos" = some ext ∧ ext.Proper ∧ data.Proper) ∧
      ext.key = "device.ext.geo.ext.pos" ∧ ofKey? ext.key = some ext ∧
      ofKey? data.key = some data := by
  intro ext data
  have hext : ext.Proper := by decide
  have hdata : data.Proper := by decide
  have hkey : ofKey? "device.ext.geo.ext.pos" = some ext :=
    ofKey?_eq_some_iff.mpr ⟨by decide, hext⟩
  obtain ⟨hnamed, hfound, -, -⟩ := keys_correspond
  exact ⟨⟨hkey, hext, hdata⟩, hnamed _ _ hkey, hfound ext hext, hfound data hdata⟩

end Category

theorem Category.head?_of_mem_openings : ∀ opening ∈ openings,
    opening.1.toList.head?.isSome ∧ opening.1.toList.head? ≠ some '$' := by
  decide

/-- The key of a category is not an operator. -/
theorem Operator.ofKey?_key (c : Category) : ofKey? c.key = none := by
  rw [Option.eq_none_iff_forall_ne_some]
  intro op h
  have hkey := ofKey?_eq_some_iff.mp h
  cases hpath : c.path? with
  | none =>
    cases c
    case deviceGeoExt | deviceExt | bidderParam | userSegment | userData | siteData => cases hpath
    all_goals cases op <;> exact absurd hkey (by decide)
  | some path =>
    -- operators start with a dollar sign, and no key with a path does
    obtain ⟨opening, hmem, rfl⟩ := Category.exists_opening hpath
    obtain ⟨hsome, hne⟩ := Category.head?_of_mem_openings opening hmem
    rw [Category.key_of_mem_openings hmem] at hkey
    have hdollar : op.key.toList.head? = some '$' := by cases op <;> rfl
    rw [← hkey, String.toList_append, List.head?_append, Option.or_of_isSome hsome] at hdollar
    exact hne hdollar

end DealPacing.Targeting
