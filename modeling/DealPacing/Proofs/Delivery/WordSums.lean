import DealPacing.Delivery.Plan
import Mathlib.Algebra.GroupWithZero.Nat

/-!
# Sums over the tokens of a plan

A plan sums up what its tokens grant, show as spent and have left. The sums are 64-bit words, which
start over when they are full: such a sum is the true one exactly if the true one fits a word.

## Main definitions

* `Plan.grantedSum`, `Plan.spentSum`, `Plan.leftSum`: the true sums

## Main results

* `Token.wordSum_eq`, `Token.wordAdd_eq_iff`: sums in a word
* `Plan.totalTokens_eq`, `Plan.spentTokens_eq`, `Plan.unspentTokens_eq`: a plan answers with the
  true sums in a word
* `Plan.grantedSum_le`: what is granted is spent or left
-/

namespace DealPacing

namespace Token

/-- A sum in a word is the true sum, less as many full words as there are in it. -/
theorem wordSum_eq (counts : List Nat) : wordSum counts = counts.sum % wordSize := by
  have hfrom (k : Nat) :
      counts.foldl wordAdd (k % wordSize) = (k + counts.sum) % wordSize := by
    induction counts generalizing k with
    | nil => rfl
    | cons n counts ih =>
      have hstep : wordAdd (k % wordSize) n = (k + n) % wordSize := Nat.mod_add_mod k wordSize n
      rw [List.foldl_cons, hstep, ih, List.sum_cons, Nat.add_assoc]
  exact (hfrom 0).trans (by rw [Nat.zero_add])

/-- A sum in a word is the true one exactly if that fits. -/
theorem wordAdd_eq_iff {m n : Nat} : wordAdd m n = m + n ↔ m + n < wordSize :=
  Nat.mod_eq_iff_lt (by decide)

theorem wordAdd_le (m n : Nat) : wordAdd m n ≤ m + n := Nat.mod_le _ _

end Token

namespace Plan

/-- The serves that the tokens of the plan grant. -/
def grantedSum (p : Plan) : Nat := (p.tokens.map (·.total)).sum

/-- The serves that the counters of the plan show. -/
def spentSum (p : Plan) (s : Spending) : Nat := (p.tokens.map (·.spent s)).sum

/-- The serves that the tokens of the plan have left. -/
def leftSum (p : Plan) (s : Spending) : Nat := (p.tokens.map (·.unspent s)).sum

theorem totalTokens_eq (p : Plan) : p.totalTokens = p.grantedSum % Token.wordSize :=
  Token.wordSum_eq _

theorem spentTokens_eq (p : Plan) (s : Spending) :
    p.spentTokens s = p.spentSum s % Token.wordSize :=
  Token.wordSum_eq _

theorem unspentTokens_eq (p : Plan) (s : Spending) :
    p.unspentTokens s = p.leftSum s % Token.wordSize :=
  Token.wordSum_eq _

variable {p : Plan} {s : Spending}

theorem totalTokens_of_lt (h : p.grantedSum < Token.wordSize) : p.totalTokens = p.grantedSum :=
  p.totalTokens_eq.trans (Nat.mod_eq_of_lt h)

theorem spentTokens_of_lt (h : p.spentSum s < Token.wordSize) : p.spentTokens s = p.spentSum s :=
  (p.spentTokens_eq s).trans (Nat.mod_eq_of_lt h)

theorem unspentTokens_of_lt (h : p.leftSum s < Token.wordSize) : p.unspentTokens s = p.leftSum s :=
  (p.unspentTokens_eq s).trans (Nat.mod_eq_of_lt h)

theorem spentSum_eq_zero_iff :
    p.spentSum s = 0 ↔ ∀ t ∈ p.tokens, t.spent s = 0 := by
  rw [spentSum, List.sum_eq_zero_iff_forall_eq_nat, List.forall_mem_map]

/-- Every serve that is granted is spent or left. -/
theorem grantedSum_le (p : Plan) (s : Spending) : p.grantedSum ≤ p.spentSum s + p.leftSum s := by
  unfold grantedSum spentSum leftSum
  induction p.tokens with
  | nil => exact Nat.le_refl 0
  | cons t ts ih =>
    have hsplit : t.total ≤ t.spent s + t.unspent s := by
      rw [Token.unspent]
      omega
    simp only [List.map_cons, List.sum_cons]
    omega

theorem leftSum_le_grantedSum (p : Plan) (s : Spending) : p.leftSum s ≤ p.grantedSum := by
  unfold grantedSum leftSum
  induction p.tokens with
  | nil => exact Nat.le_refl 0
  | cons t ts ih =>
    have hsub : t.unspent s ≤ t.total := Nat.sub_le t.total (t.spent s)
    simp only [List.map_cons, List.sum_cons]
    omega

end Plan

end DealPacing
