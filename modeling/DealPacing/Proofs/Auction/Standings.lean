import DealPacing.Proofs.Auction.Ranking
import DealPacing.Proofs.Delivery.Histories

/-!
# Standings

Three values decide where a line item ranks: the class that it would spend next, its relative
priority, and the bits of its price. They are its standing. Any word can be the bits of a price, be
it an infinity, a zero of either sign, or a number that is none, with any payload. Standings are
compared in a total preorder in which only equal standings are equal, so line items are compared in
a total preorder, and sorting brings them into one order but for those of equal standing.

## Main definitions

* `TotalPreorder`: the laws of a comparison that sorting relies on
* `wordRank`: the place of the bits of a price among all words
* `Standing`, `LineItem.standing`: what a line item is ranked by

## Main results

* `wordRank_injective`: different words have different places
* `compareLineItems_eq_standing`: line items are compared by their standings
* `map_standing_eq_of_perm`: there is one order of standings
* `lineItems_ranked_consistently`: the comparison can be sorted by, and what sorting yields
-/

namespace DealPacing

open Std

/-- The laws of a comparison by which lists can be sorted: every element is equal to itself, swapped
elements compare the other way round, and what is at or before another element that is at or before
a third one is at or before the third one. -/
structure TotalPreorder {α : Type} (cmp : α → α → Ordering) : Prop where
  refl : ∀ x, cmp x x = .eq
  swap : ∀ x y, cmp y x = (cmp x y).swap
  trans : ∀ x y z, cmp x y ≠ .gt → cmp y z ≠ .gt → cmp x z ≠ .gt

theorem TotalPreorder.of_transCmp {α : Type} (cmp : α → α → Ordering) [TransCmp cmp] :
    TotalPreorder cmp where
  refl _ := ReflCmp.compare_self
  swap _ _ := OrientedCmp.eq_swap
  trans x y z hxy hyz := by
    have hxz : (cmp x z).isLE :=
      TransCmp.isLE_trans (Ordering.isLE_iff_ne_gt.mpr hxy) (Ordering.isLE_iff_ne_gt.mpr hyz)
    exact Ordering.isLE_iff_ne_gt.mp hxz

/-! ## Prices -/

/-- The place of the bits of a price among all words: those with the sign bit come first, and among
them the greater ones. -/
def wordRank (word : UInt64) : Int :=
  if word.toNat < 1 <<< 63 then word.toNat else int64Max - word.toNat

theorem floatRank_eq (x : Float) : floatRank x = wordRank x.toBits := rfl

/-- Different words have different places. -/
theorem wordRank_injective : Function.Injective wordRank := by
  intro v w hrank
  have hv := v.toNat_lt
  have hw := w.toNat_lt
  rw [← UInt64.toNat_inj]
  unfold wordRank int64Max at hrank
  -- words without the sign bit have the places from zero on
  split at hrank <;> split at hrank <;> omega

/-! ## Standings -/

/-- Values are told apart by the comparison with missing ones if they are told apart. -/
instance instLawfulEqCmpCompareAbsentLast {κ : Type} {cmp : κ → κ → Ordering}
    [hcmp : LawfulEqCmp cmp] : LawfulEqCmp (compareAbsentLast cmp) where
  compare_self := by
    rintro (_ | a)
    · rfl
    · exact hcmp.compare_self
  eq_of_compare := by
    rintro (_ | a) (_ | b) h
    · rfl
    · cases h
    · cases h
    · exact congrArg some (hcmp.eq_of_compare h)

/-- What a line item is ranked by. -/
structure Standing where
  priorityClass : Option Int
  relativePriority : Option Int
  /-- The bits of the price. -/
  price : Option UInt64
deriving DecidableEq, Repr

namespace Standing

/-- Compare the bits of two prices, the higher price first. -/
def comparePrices (v w : UInt64) : Ordering := compare (wordRank w) (wordRank v)

/-- Compare two standings, the better one first. -/
def compare (a b : Standing) : Ordering :=
  (compareAbsentLast Ord.compare a.priorityClass b.priorityClass).then <|
  (compareAbsentLast Ord.compare a.relativePriority b.relativePriority).then <|
  compareAbsentLast comparePrices a.price b.price

instance instTransCmpComparePrices : TransCmp comparePrices :=
  have : TransCmp fun m n : Int => Ord.compare n m := TransCmp.opposite
  transCmp_key (fun m n : Int => Ord.compare n m) wordRank

instance instLawfulEqCmpComparePrices : LawfulEqCmp comparePrices where
  compare_self := ReflCmp.compare_self
  eq_of_compare h := (wordRank_injective (LawfulEqCmp.eq_of_compare h)).symm

instance instTransCmpCompare : TransCmp compare := by
  have hclass : TransCmp fun a b : Standing =>
      compareAbsentLast Ord.compare a.priorityClass b.priorityClass :=
    transCmp_key _ Standing.priorityClass
  have hpriority : TransCmp fun a b : Standing =>
      compareAbsentLast Ord.compare a.relativePriority b.relativePriority :=
    transCmp_key _ Standing.relativePriority
  have hprice : TransCmp fun a b : Standing => compareAbsentLast comparePrices a.price b.price :=
    transCmp_key _ Standing.price
  exact inferInstanceAs (TransCmp (compareLex _ (compareLex _ _)))

/-- Only equal standings are equal in the comparison. -/
theorem compare_eq_iff {a b : Standing} : a.compare b = .eq ↔ a = b := by
  constructor
  · intro h
    obtain ⟨hclass, hrest⟩ := Ordering.then_eq_eq.mp h
    obtain ⟨hpriority, hprice⟩ := Ordering.then_eq_eq.mp hrest
    cases a
    cases b
    cases LawfulEqCmp.eq_of_compare hclass
    cases LawfulEqCmp.eq_of_compare hpriority
    cases LawfulEqCmp.eq_of_compare hprice
    rfl
  · rintro rfl
    exact ReflCmp.compare_self

/-- Of two different standings one is better. -/
theorem eq_of_ne_gt {a b : Standing} (hab : a.compare b ≠ .gt) (hba : b.compare a ≠ .gt) :
    a = b := by
  rw [← compare_eq_iff]
  have hswap : b.compare a = (a.compare b).swap := OrientedCmp.eq_swap
  cases h : a.compare b with
  | eq => rfl
  | gt => exact absurd h hab
  | lt => exact absurd (by rw [hswap, h]; rfl) hba

end Standing

/-! ## Line items -/

/-- What the line item is ranked by. -/
def LineItem.standing (x : LineItem) (s : Spending) : Standing :=
  ⟨x.highestUnspentClass s, x.record.relativePriority, x.cpm.map Float.toBits⟩

/-- **Line items are compared by their standings**. -/
theorem compareLineItems_eq_standing (s : Spending) (x y : LineItem) :
    compareLineItems s x y = (x.standing s).compare (y.standing s) := by
  have hprice : compareAbsentLast (fun a b => compare (floatRank b) (floatRank a)) x.cpm y.cpm =
      compareAbsentLast Standing.comparePrices (x.cpm.map Float.toBits)
        (y.cpm.map Float.toBits) := by
    simp only [floatRank_eq]
    cases x.cpm <;> cases y.cpm <;> rfl
  unfold compareLineItems
  rw [hprice]
  rfl

/-- **There is one order of standings**: however line items are sorted, the same standings follow
each other. -/
theorem map_standing_eq_of_perm {s : Spending} {xs ys : List LineItem} (hperm : xs.Perm ys)
    (hxs : xs.Pairwise fun x y => compareLineItems s x y ≠ .gt)
    (hys : ys.Pairwise fun x y => compareLineItems s x y ≠ .gt) :
    xs.map (·.standing s) = ys.map (·.standing s) := by
  simp only [compareLineItems_eq_standing] at hxs hys
  exact List.Perm.eq_of_pairwise (fun a b _ _ => Standing.eq_of_ne_gt) (List.pairwise_map.mpr hxs)
    (List.pairwise_map.mpr hys) (hperm.map _)

/-- **Line items are ranked consistently.** For every store, line items are compared in a total
preorder. They are compared by their standings, which are compared in a total preorder themselves,
whatever word the bits of a price are, and of which only equal ones are equal. So sorting is well
defined: a ranking has the line items that it was made from, in an order in which none is better
than one ahead of it, and whatever brings the same line items into such an order, the same standings
follow each other. -/
theorem lineItems_ranked_consistently (s : Spending) :
    TotalPreorder (compareLineItems s) ∧
      (∀ x y, compareLineItems s x y = (x.standing s).compare (y.standing s)) ∧
      TotalPreorder Standing.compare ∧ (∀ a b : Standing, a.compare b = .eq ↔ a = b) ∧
      ∀ (settings : MatchSettings) (ready : List LineItem),
        (ranking settings s ready).Perm ready ∧
          ((ranking settings s ready).Pairwise fun x y => compareLineItems s x y ≠ .gt) ∧
          ∀ sorted : List LineItem, sorted.Perm ready →
            (sorted.Pairwise fun x y => compareLineItems s x y ≠ .gt) →
            sorted.map (·.standing s) = (ranking settings s ready).map (·.standing s) := by
  refine ⟨.of_transCmp _, compareLineItems_eq_standing s, .of_transCmp _,
    fun a b => Standing.compare_eq_iff, fun settings ready => ?_⟩
  have hperm := ranking_perm settings s ready
  have hordered := ranking_pairwise settings s ready
  refine ⟨hperm, hordered, fun sorted hsorted hpairwise => ?_⟩
  exact map_standing_eq_of_perm (hsorted.trans hperm.symm) hpairwise hordered

/-- Prices that are no number, infinite, and zero of either sign, and no price. -/
theorem lineItems_ranked_consistently_oddPrices :
    let item (price : Option Float) : LineItem :=
      ⟨twoHours [] [] (hour 0), price, none, none, none⟩
    let settings : MatchSettings := { maxDealsPerBidder := 1, catalog := ⟨∅, ∅⟩ }
    let sorted := [item (some (0 / 0)), item (some (1 / 0)), item (some 0), item (some (-0)),
      item (some (-1 / 0)), item none]
    (sorted.Perm sorted.reverse ∧
        sorted.Pairwise fun x y => compareLineItems .empty x y ≠ .gt) ∧
      (ranking settings .empty sorted.reverse).map (·.standing .empty) =
        sorted.map (·.standing .empty) := by
  intro item settings sorted
  have hperm : sorted.Perm sorted.reverse := (List.reverse_perm sorted).symm
  have hsorted : sorted.Pairwise fun x y => compareLineItems .empty x y ≠ .gt := by decide
  obtain ⟨-, -, -, -, hsorting⟩ := lineItems_ranked_consistently .empty
  obtain ⟨-, -, hunique⟩ := hsorting settings sorted.reverse
  exact ⟨⟨hperm, hsorted⟩, (hunique sorted hperm hsorted).symm⟩

end DealPacing
