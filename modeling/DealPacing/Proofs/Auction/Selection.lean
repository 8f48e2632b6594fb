import DealPacing.Proofs.Auction.Ranking
import Mathlib.Data.List.TakeWhile

/-!
# Why a line item is passed over

The line items of one source are ranked, the leading run of those that were top match before is
dropped, later line items of a deal are dropped, and the rest is cut. A ready line item that is not
offered was passed over by exactly one of these steps, and each of them leaves a reason that can be
read off the ranking and the offer.

## Main definitions

* `InLeadingRun`: a place in a ranking up to which every line item was top match before
* `PassedOver`: why a line item at a place of a ranking is not offered
* `Justified`: an offer whose order, deals and length are right, and that passes over no line item
  without a reason

## Main results

* `rankedSelection_justified`: the offer of one source is justified
-/

namespace DealPacing

/-! ## The first of each deal -/

section Deals

variable {seen : List (Option String)} {xs : List LineItem}

theorem firstOfEachDeal_cons_of_mem {x : LineItem} (h : x.dealId ∈ seen) :
    firstOfEachDeal seen (x :: xs) = firstOfEachDeal seen xs := by
  rw [firstOfEachDeal, if_pos (by simpa using h)]

theorem firstOfEachDeal_cons_of_not_mem {x : LineItem} (h : x.dealId ∉ seen) :
    firstOfEachDeal seen (x :: xs) = x :: firstOfEachDeal (x.dealId :: seen) xs := by
  rw [firstOfEachDeal, if_neg (by simpa using h)]

theorem firstOfEachDeal_sublist (seen : List (Option String)) (xs : List LineItem) :
    (firstOfEachDeal seen xs).Sublist xs := by
  induction xs generalizing seen with
  | nil => exact .refl _
  | cons x rest ih =>
    by_cases hx : x.dealId ∈ seen
    · rw [firstOfEachDeal_cons_of_mem hx]
      exact (ih seen).cons x
    · rw [firstOfEachDeal_cons_of_not_mem hx]
      exact (ih _).cons_cons x

theorem dealId_not_mem_of_mem_firstOfEachDeal {x : LineItem}
    (hx : x ∈ firstOfEachDeal seen xs) : x.dealId ∉ seen := by
  induction xs generalizing seen with
  | nil => cases hx
  | cons y rest ih =>
    by_cases hy : y.dealId ∈ seen
    · rw [firstOfEachDeal_cons_of_mem hy] at hx
      exact ih hx
    · rw [firstOfEachDeal_cons_of_not_mem hy] at hx
      rcases List.mem_cons.mp hx with rfl | hx
      · exact hy
      · exact fun hmem => ih hx (List.mem_cons_of_mem _ hmem)

theorem nodup_dealId_firstOfEachDeal (seen : List (Option String)) (xs : List LineItem) :
    ((firstOfEachDeal seen xs).map (·.dealId)).Nodup := by
  induction xs generalizing seen with
  | nil => exact List.nodup_nil
  | cons x rest ih =>
    by_cases hx : x.dealId ∈ seen
    · rw [firstOfEachDeal_cons_of_mem hx]
      exact ih seen
    · rw [firstOfEachDeal_cons_of_not_mem hx, List.map_cons, List.nodup_cons]
      refine ⟨fun hmem => ?_, ih _⟩
      obtain ⟨y, hy, hdeal⟩ := List.mem_map.mp hmem
      exact dealId_not_mem_of_mem_firstOfEachDeal hy (hdeal ▸ List.mem_cons_self)

/-- A line item whose deal is new is kept, behind those that are kept ahead of it. -/
theorem firstOfEachDeal_append_cons {ahead : List LineItem} (behind : List LineItem) {x : LineItem}
    (hseen : x.dealId ∉ seen) (hahead : ∀ y ∈ ahead, y.dealId ≠ x.dealId) :
    ∃ rest, firstOfEachDeal seen (ahead ++ x :: behind) =
      firstOfEachDeal seen ahead ++ x :: rest := by
  induction ahead generalizing seen with
  | nil => exact ⟨_, firstOfEachDeal_cons_of_not_mem hseen⟩
  | cons y ahead ih =>
    rw [List.forall_mem_cons] at hahead
    rw [List.cons_append]
    by_cases hy : y.dealId ∈ seen
    · rw [firstOfEachDeal_cons_of_mem hy, firstOfEachDeal_cons_of_mem hy]
      exact ih hseen hahead.2
    · rw [firstOfEachDeal_cons_of_not_mem hy, firstOfEachDeal_cons_of_not_mem hy]
      have hnew : x.dealId ∉ y.dealId :: seen := by simp [hseen, hahead.1.symm]
      obtain ⟨rest, hrest⟩ := ih hnew hahead.2
      exact ⟨rest, by rw [hrest, List.cons_append]⟩

/-- The best line item is offered first, if any is. -/
theorem head?_take_firstOfEachDeal {xs : List LineItem} {n : Nat} {x : LineItem}
    (h : ((firstOfEachDeal [] xs).take n).head? = some x) : xs.head? = some x := by
  cases n with
  | zero => cases h
  | succ n =>
    cases xs with
    | nil => cases h
    | cons y rest =>
      rw [firstOfEachDeal_cons_of_not_mem (List.not_mem_nil (a := y.dealId))] at h
      exact h

end Deals

/-! ## The reasons -/

/-- A line item and all line items ranked ahead of it were top match before. -/
def InLeadingRun (recorded : String → Prop) (ahead : List LineItem) (x : LineItem) : Prop :=
  ∀ y ∈ ahead ++ [x], recorded y.id

/-- Why a line item is not offered that has the line items `ahead` ranked ahead of it. -/
inductive PassedOver (recorded : String → Prop) (limit : Nat) (offered ahead : List LineItem)
    (x : LineItem) : Prop where
  /-- The line item belongs to the leading run of line items that were top match before. -/
  | repeated (h : InLeadingRun recorded ahead x)
  /-- A line item beyond the leading run has the same deal and ranks ahead. -/
  | sameDeal (front back : List LineItem) (y : LineItem) (h : ahead = front ++ y :: back)
      (hrun : ¬ InLeadingRun recorded front y) (hdeal : y.dealId = x.dealId)
  /-- As many line items are offered as the limit admits, and all of them rank ahead. -/
  | beyondLimit (h : offered.Sublist ahead) (hlength : offered.length = limit)

/-- An offer of the line items of one source, ranked as they are in `ranked`. -/
structure Justified (s : Spending) (recorded : String → Prop) (limit : Nat)
    (ready ranked offered : List LineItem) : Prop where
  ranked_perm : ranked.Perm ready
  ranked_order : ranked.Pairwise fun x y => compareLineItems s x y ≠ .gt
  offered_sublist : offered.Sublist ranked
  length_le : offered.length ≤ limit
  nodup_dealId : (offered.map (·.dealId)).Nodup
  first_new : ∀ x ∈ offered.head?, ¬ recorded x.id
  passedOver : ∀ {ahead x behind}, ranked = ahead ++ x :: behind → x ∉ offered →
    PassedOver recorded limit offered ahead x

namespace Justified

variable {s : Spending} {recorded : String → Prop} {limit : Nat}
  {ready ranked offered : List LineItem}

theorem offered_order (h : Justified s recorded limit ready ranked offered) :
    offered.Pairwise fun x y => compareLineItems s x y ≠ .gt :=
  h.ranked_order.sublist h.offered_sublist

theorem mem_ready (h : Justified s recorded limit ready ranked offered) {x : LineItem}
    (hx : x ∈ offered) : x ∈ ready :=
  h.ranked_perm.mem_iff.mp (h.offered_sublist.mem hx)

/-- Every ready line item has a place in the ranking, which tells why it is not offered. -/
theorem exists_passedOver (h : Justified s recorded limit ready ranked offered) {x : LineItem}
    (hx : x ∈ ready) (hnot : x ∉ offered) :
    ∃ ahead behind, ranked = ahead ++ x :: behind ∧
      PassedOver recorded limit offered ahead x := by
  obtain ⟨ahead, behind, hsplit⟩ := List.append_of_mem (h.ranked_perm.mem_iff.mpr hx)
  exact ⟨ahead, behind, hsplit, h.passedOver hsplit hnot⟩

end Justified

/-! ## The offer of one source -/

theorem dropWhile_append_cons_of_not_forall {α : Type} {p : α → Bool} {front back : List α} {a : α}
    (h : ¬ ∀ b ∈ front ++ [a], p b = true) :
    (front ++ a :: back).dropWhile p = front.dropWhile p ++ a :: back := by
  rw [List.dropWhile_append]
  split
  · next hall =>
    rw [List.isEmpty_iff] at hall
    have ha : ¬ p a = true := fun ha => h fun b hb => by
      rcases List.mem_append.mp hb with hb | hb
      · exact List.dropWhile_eq_nil_iff.mp hall b hb
      · exact (List.mem_singleton.mp hb) ▸ ha
    rw [hall, List.nil_append, List.dropWhile_cons_of_neg ha]
  · rfl

theorem drop_length_takeWhile {α : Type} (p : α → Bool) (xs : List α) :
    xs.drop (xs.takeWhile p).length = xs.dropWhile p := by
  calc
    _ = (xs.takeWhile p ++ xs.dropWhile p).drop (xs.takeWhile p).length := by
      rw [List.takeWhile_append_dropWhile]
    _ = _ := List.drop_left

/-- The head of what is left of a list without its leading run ends that run. -/
theorem not_of_head?_dropWhile {α : Type} {p : α → Bool} {xs : List α} {a : α}
    (h : (xs.dropWhile p).head? = some a) : p a ≠ true := by
  have hfails := List.head?_dropWhile_not p xs
  rw [h] at hfails
  exact Bool.eq_false_iff.mp hfails

/-- A place beyond the leading run of a list is a place of the list, with the same elements between
the run and it. -/
theorem exists_append_of_dropWhile_eq {α : Type} {p : α → Bool} {xs front back : List α} {a : α}
    (h : xs.dropWhile p = front ++ a :: back) :
    ∃ ahead, xs = ahead ++ a :: back ∧ ahead.dropWhile p = front ∧
      ∃ b ∈ ahead ++ [a], p b = false := by
  refine ⟨xs.takeWhile p ++ front, ?_, ?_, ?_⟩
  · rw [List.append_assoc, ← h, List.takeWhile_append_dropWhile]
  · have hrun : (xs.takeWhile p).dropWhile p = [] := by
      rw [List.dropWhile_eq_nil_iff]
      exact fun b hb => List.mem_takeWhile_imp hb
    rw [List.dropWhile_append, hrun]
    cases front with
    | nil => rfl
    | cons b front =>
      have hb : (xs.dropWhile p).head? = some b := by rw [h]; rfl
      exact List.dropWhile_cons_of_neg (not_of_head?_dropWhile hb)
  · obtain ⟨b, hb, hmem⟩ : ∃ b, (xs.dropWhile p).head? = some b ∧ b ∈ front ++ [a] := by
      rw [h]
      cases front <;> simp
    refine ⟨b, ?_, Bool.eq_false_iff.mpr (not_of_head?_dropWhile hb)⟩
    rw [List.append_assoc]
    exact List.mem_append_right _ hmem

theorem exists_append_of_mem_dropWhile {α : Type} {p : α → Bool} {xs : List α} {a : α}
    (h : a ∈ xs.dropWhile p) :
    ∃ front back, xs = front ++ a :: back ∧ ¬ ∀ b ∈ front ++ [a], p b = true := by
  obtain ⟨front, back, hsplit⟩ := List.append_of_mem h
  obtain ⟨ahead, hxs, -, b, hb, hends⟩ := exists_append_of_dropWhile_eq hsplit
  refine ⟨ahead, back, hxs, fun hall => ?_⟩
  rw [hall b hb] at hends
  cases hends

/-- A cut that drops an element leaves elements ahead of it only. -/
theorem le_length_of_not_mem_take {α : Type} {front back : List α} {a : α} {n : Nat}
    (h : a ∉ (front ++ a :: back).take n) : n ≤ front.length := by
  by_contra hlt
  have hget : ((front ++ a :: back).take n)[front.length]? = some a := by
    rw [List.getElem?_take_of_lt (by omega), List.getElem?_append_right (Nat.le_refl _),
      Nat.sub_self, List.getElem?_cons_zero]
  exact h (List.mem_of_getElem? hget)

section RankedSelection

variable (settings : MatchSettings) (s : Spending) (imp : Impression) (log : AuctionLog)
  (ready : List LineItem)

theorem offered_rankedSelection :
    (rankedSelection settings s imp log ready).offered =
      (firstOfEachDeal [] ((ranking settings s ready).dropWhile fun x => log.isTopMatch x.id)).take
        settings.maxDealsPerBidder := by
  rw [← drop_length_takeWhile]
  rfl

/-- What is left behind the leading run is recorded as lost to all that rank ahead of it. -/
theorem log_rankedSelection :
    (rankedSelection settings s imp log ready).log =
      recordLosses log []
        ((ranking settings s ready).dropWhile fun x => log.isTopMatch x.id) := by
  rw [← drop_length_takeWhile]
  rfl

/-- **The offer of one source is justified**. -/
theorem rankedSelection_justified {recorded : String → Prop}
    (hrecorded : ∀ id, log.isTopMatch id = true ↔ recorded id) :
    Justified s recorded settings.maxDealsPerBidder ready (ranking settings s ready)
      (rankedSelection settings s imp log ready).offered where
  ranked_perm := ranking_perm settings s ready
  ranked_order := ranking_pairwise settings s ready
  offered_sublist := by
    rw [offered_rankedSelection]
    exact (List.take_sublist _ _).trans
      ((firstOfEachDeal_sublist _ _).trans (List.dropWhile_sublist _))
  length_le := by
    rw [offered_rankedSelection]
    exact List.length_take_le _ _
  nodup_dealId := by
    rw [offered_rankedSelection, List.map_take]
    exact (nodup_dealId_firstOfEachDeal _ _).sublist (List.take_sublist _ _)
  first_new := by
    intro x hx
    rw [offered_rankedSelection] at hx
    rw [← hrecorded]
    exact not_of_head?_dropWhile (p := fun x => log.isTopMatch x.id)
      (head?_take_firstOfEachDeal hx)
  passedOver := by
    intro ahead x behind hsplit hx
    obtain rfl : recorded = fun id => log.isTopMatch id = true :=
      funext fun id => propext (hrecorded id).symm
    by_cases hrun : InLeadingRun (fun id => log.isTopMatch id = true) ahead x
    · exact .repeated hrun
    rw [offered_rankedSelection, hsplit, dropWhile_append_cons_of_not_forall hrun] at *
    by_cases hdeal : ∃ y ∈ ahead.dropWhile fun x => log.isTopMatch x.id, y.dealId = x.dealId
    · obtain ⟨y, hy, hdeal⟩ := hdeal
      obtain ⟨front, back, hahead, hfront⟩ := exists_append_of_mem_dropWhile hy
      exact .sameDeal front back y hahead hfront hdeal
    · -- the line item is the first of its deal, so only the cut can have dropped it
      obtain ⟨rest, hrest⟩ := firstOfEachDeal_append_cons behind
        (List.not_mem_nil (a := x.dealId)) fun y hy e => hdeal ⟨y, hy, e⟩
      simp only [hrest] at hx ⊢
      have hcut := le_length_of_not_mem_take hx
      rw [List.take_append_of_le_length hcut]
      refine .beyondLimit ?_ (List.length_take_of_le hcut)
      exact (List.take_sublist _ _).trans
        ((firstOfEachDeal_sublist _ _).trans (List.dropWhile_sublist _))

end RankedSelection

end DealPacing
