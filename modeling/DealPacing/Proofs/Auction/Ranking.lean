import DealPacing.Auction.Matching

/-!
# The ranking is an order

Line items are compared by keys, one after the other, and each key has an order in which a missing
value comes last. So the comparison of line items is a total preorder, whatever their prices are,
and the line items of a source can be ranked by it.

## Main definitions

* `ranking`: the ready line items of a source, ranked

## Main results

* `instTransCmpCompareLineItems`: line items are compared in a total preorder
* `ranking_perm`, `ranking_pairwise`: a ranking has the line items it was made from, in order
-/

namespace DealPacing

open Std

section Keys

variable {α κ : Type} {cmp : κ → κ → Ordering}

/-- Missing values behind all others leave an order. -/
instance instTransCmpCompareAbsentLast [hcmp : TransCmp cmp] :
    TransCmp (compareAbsentLast cmp) where
  eq_swap := by
    rintro (_ | a) (_ | b)
    · rfl
    · rfl
    · rfl
    · exact hcmp.eq_swap
  isLE_trans := by
    intro a b c hab hbc
    cases c with
    | none => cases a <;> rfl
    | some c =>
      cases b with
      | none => exact absurd hbc Bool.false_ne_true
      | some b =>
        cases a with
        | none => exact absurd hab Bool.false_ne_true
        | some a => exact hcmp.isLE_trans hab hbc

/-- Values are ordered as their keys are. -/
theorem transCmp_key (cmp : κ → κ → Ordering) [hcmp : TransCmp cmp] (key : α → κ) :
    TransCmp fun x y => cmp (key x) (key y) where
  eq_swap := hcmp.eq_swap
  isLE_trans := hcmp.isLE_trans

end Keys

/-- **Line items are compared in a total preorder**. -/
instance instTransCmpCompareLineItems (s : Spending) : TransCmp (compareLineItems s) := by
  have hrank : TransCmp fun m n : Int => compare n m := TransCmp.opposite
  have hfloat : TransCmp fun a b : Float => compare (floatRank b) (floatRank a) :=
    transCmp_key (fun m n : Int => compare n m) floatRank
  have hclass : TransCmp fun x y : LineItem =>
      compareAbsentLast compare (x.highestUnspentClass s) (y.highestUnspentClass s) :=
    transCmp_key _ fun x : LineItem => x.highestUnspentClass s
  have hpriority : TransCmp fun x y : LineItem =>
      compareAbsentLast compare x.record.relativePriority y.record.relativePriority :=
    transCmp_key _ fun x : LineItem => x.record.relativePriority
  have hprice : TransCmp fun x y : LineItem =>
      compareAbsentLast (fun a b => compare (floatRank b) (floatRank a)) x.cpm y.cpm :=
    transCmp_key _ LineItem.cpm
  exact inferInstanceAs (TransCmp (compareLex _ (compareLex _ _)))

theorem ranksBefore_iff {s : Spending} {x y : LineItem} :
    ranksBefore s x y = true ↔ (compareLineItems s x y).isLE := by
  unfold ranksBefore
  cases compareLineItems s x y <;> decide

theorem ranksBefore_trans {s : Spending} {x y z : LineItem} (hxy : ranksBefore s x y = true)
    (hyz : ranksBefore s y z = true) : ranksBefore s x z = true := by
  rw [ranksBefore_iff] at *
  exact TransCmp.isLE_trans hxy hyz

theorem ranksBefore_total (s : Spending) (x y : LineItem) :
    (ranksBefore s x y || ranksBefore s y x) = true := by
  have hswap : compareLineItems s y x = (compareLineItems s x y).swap := OrientedCmp.eq_swap
  rw [Bool.or_eq_true, ranksBefore_iff, ranksBefore_iff, hswap]
  cases compareLineItems s x y <;> decide

/-! ## Rankings -/

/-- The ready line items of a source, ranked. -/
def ranking (settings : MatchSettings) (s : Spending) (ready : List LineItem) : List LineItem :=
  (settings.arrange ready).mergeSort (ranksBefore s)

variable (settings : MatchSettings) (s : Spending) (ready : List LineItem)

theorem ranking_perm : (ranking settings s ready).Perm ready :=
  (List.mergeSort_perm _ _).trans (settings.arrange_perm ready)

/-- A better line item never comes after a worse one. -/
theorem ranking_pairwise :
    (ranking settings s ready).Pairwise fun x y => compareLineItems s x y ≠ .gt := by
  have htrans : ∀ x y z, ranksBefore s x y = true → ranksBefore s y z = true →
      ranksBefore s x z = true := fun _ _ _ => ranksBefore_trans
  have hsorted := List.pairwise_mergeSort htrans (ranksBefore_total s) (settings.arrange ready)
  refine hsorted.imp fun hxy hgt => ?_
  rw [ranksBefore, hgt] at hxy
  cases hxy

variable {settings s ready}

/-- A line item that is better stands ahead in the ranking. -/
theorem mem_ahead_of_compare_lt {x y : LineItem} {ahead behind : List LineItem}
    (hranked : ranking settings s ready = ahead ++ x :: behind) (hy : y ∈ ready)
    (hbetter : compareLineItems s y x = .lt) : y ∈ ahead := by
  have hsorted := ranking_pairwise settings s ready
  have hmem := (ranking_perm settings s ready).mem_iff.mpr hy
  rw [hranked, List.pairwise_append, List.pairwise_cons] at hsorted
  rw [hranked, List.mem_append, List.mem_cons] at hmem
  rcases hmem with hahead | rfl | hbehind
  · exact hahead
  · have hself : compareLineItems s y y = .eq := ReflCmp.compare_self
    rw [hself] at hbetter
    cases hbetter
  · exact absurd (OrientedCmp.gt_iff_lt.mpr hbetter) (hsorted.2.1.1 y hbehind)

end DealPacing
