import DealPacing.Proofs.Delivery.Histories
import DealPacing.Proofs.Delivery.WordSums

/-!
# What is left of an allotment

The serves of a class that the active plan has left are what the plan holds of the class, less the
serves that the counter of the class shows. A plan starts with what its schedule allots, and a plan
that carries on another one adds what that held, in a 64-bit word. An account follows these numbers
through a history. The counter also shows serves of plans that were carried on, while a newer
revision of the schedule replaces the total and with it everything that was brought along. Then the
plan can have less left than its own allotment, and so it can when a sum of totals starts over.

## Main definitions

* `Account`, `account`: what a history makes of a class of the active plan
* `scheduled`: what all schedules of a history allot together

## Main results

* `Pacing.Changes.accounts`: one change moves a class of the plan as it moves its account
* `History.unspentInClass_eq`: what is left of a class is told by its account
* `History.allotment_kept_iff`: when the active plan still has its own allotment
* `History.allotment_kept_of_forall_ne_revised`, `History.allotment_kept_of_forall_ne_carriedOn`: it
  always has it when no revision is accepted and no sum of totals starts over, and when no plan is
  carried on
-/

namespace DealPacing

/-- The account of a class of the active plan. -/
structure Account where
  /-- The total in the newest revision of the schedule of the plan. -/
  allotted : Nat
  /-- The serves granted since the plan started. -/
  granted : Nat
  /-- The total that the plan holds, with what it brought along; none when it lacks the class. -/
  held : Option Nat
  /-- The serves that the counter of the class shows. -/
  charged : Nat
deriving DecidableEq, Repr

namespace Account

/-- The account without a plan. -/
def empty : Account := ⟨0, 0, none, 0⟩

/-- The total that the plan holds. -/
def total (a : Account) : Nat := a.held.getD 0

/-- The account of class `c` after one more change. -/
def after (c : Int) (a : Account) : Change → Account
  | .kept => a
  | .activated x _ => ⟨(x.total? c).getD 0, 0, x.total? c, 0⟩
  | .carriedOn x _ =>
    ⟨(x.total? c).getD 0, 0, a.held.merge Token.wordAdd (x.total? c), a.charged⟩
  | .revised x =>
    ⟨(x.total? c).getD 0, a.granted, x.total? c, if (x.total? c).isSome then a.charged else 0⟩
  | .served d => if d = c then { a with granted := a.granted + 1, charged := a.charged + 1 } else a
  | .ended => empty

end Account

/-- The account of class `c` after some changes. -/
def account (c : Int) (changes : List Change) : Account :=
  changes.foldl (Account.after c) .empty

theorem account_concat (c : Int) (changes : List Change) (change : Change) :
    account c (changes ++ [change]) = (account c changes).after c change := by
  simp [account]

/-- The schedule that the change brings in lists each class at most once. -/
def Change.Distinct (change : Change) : Prop := ∀ x ∈ change.schedule?, x.Distinct

instance (change : Change) : Decidable change.Distinct :=
  inferInstanceAs (Decidable (∀ x ∈ change.schedule?, x.Distinct))

namespace Plan

theorem unspentInClass_eq_sub (p : Plan) (c : Int) (s : Spending) :
    p.unspentInClass c s = (p.total? c).getD 0 - p.spentInClass c s := by
  unfold unspentInClass total? spentInClass
  cases p.token? c <;> rfl

theorem spentInClass_ofSchedule {x : Schedule} (hx : x.Distinct) (c : Int) (s : Spending) :
    ((ofSchedule x).run s).1.spentInClass c ((ofSchedule x).run s).2 = 0 := by
  rw [spentInClass_eq, balance?_ofSchedule hx]
  cases x.total? c <;> rfl

theorem total?_withUpdatedSchedule {p : Plan} {s : Spending} (hp : p.IsOpen s)
    {x : Schedule} (hx : x.Distinct) (c : Int) :
    ((p.withUpdatedSchedule x).run s).1.total? c = x.total? c := by
  rw [total?_eq _ c ((p.withUpdatedSchedule x).run s).2, balance?_withUpdatedSchedule hp hx]
  simp [Function.comp_def]

theorem spentInClass_withUpdatedSchedule {p : Plan} {s : Spending} (hp : p.IsOpen s)
    {x : Schedule} (hx : x.Distinct) (c : Int) :
    ((p.withUpdatedSchedule x).run s).1.spentInClass c ((p.withUpdatedSchedule x).run s).2 =
      if (x.total? c).isSome then p.spentInClass c s else 0 := by
  rw [spentInClass_eq, balance?_withUpdatedSchedule hp hx]
  cases x.total? c <;> rfl

theorem spentInClass_raised {κ : Type} {label : Counter → κ} {kind : Int → κ}
    (hkind : Function.Injective kind) {p : Plan} {s : Spending}
    (hl : Labelled label kind s p.tokens) {t : Token} (ht : t ∈ p.tokens) (hd : p.Distinct)
    (c : Int) :
    p.spentInClass c (s.raised t.counter 1) =
      if t.priorityClass = c then p.spentInClass c s + 1 else p.spentInClass c s := by
  rw [spentInClass_eq, balance?_raised hkind hl ht hd, spentInClass_eq]
  by_cases hc : t.priorityClass = c
  · have htoken := (token?_eq_some_iff hd).mpr ⟨ht, hc⟩
    simp [balance?, htoken, hc]
  · cases p.balance? c s <;> simp [hc]

end Plan

namespace Pacing

/-- The active plan has each class once, and class `c` of it is as the account tells. -/
def Accounts (c : Int) (a : Account) (s : Spending) (b : Pacing) : Prop :=
  ∀ p, b.plan = some p → p.Distinct ∧ p.total? c = a.held ∧ p.spentInClass c s = a.charged

/-- One change moves a class of the plan as it moves its account. -/
theorem Changes.accounts {b b' : Pacing} {s s' : Spending} {change : Change}
    (h : b.Changes s change b' s') (hdistinct : change.Distinct) {label : Counter → Int}
    (hl : b.LabelledBy label id s) {c : Int} {a : Account} (ha : b.Accounts c a s) :
    b'.Accounts c (a.after c change) s' := by
  cases h with
  | kept => exact ha
  | @activated x now hx =>
    have hxd := hdistinct x rfl
    exact forall_plan.mpr ⟨Plan.distinct_ofSchedule hxd s, Plan.total?_ofSchedule hxd c s,
      Plan.spentInClass_ofSchedule hxd c s⟩
  | @carriedOn x now p hp hx =>
    have hxd := hdistinct x rfl
    have hopen := Plan.isOpen_of_labelled (hl p hp)
    obtain ⟨hd, hheld, hcharged⟩ := ha p hp
    refine forall_plan.mpr ⟨Plan.distinct_carriedInto p x s, ?_, ?_⟩
    · rw [Plan.total?_carriedInto hd hopen hxd, hheld]
      rfl
    · rw [Plan.spentInClass_carriedInto hd hopen hxd, hcharged]
      rfl
  | @revised x p now hp hid hnewer hx =>
    have hxd := hdistinct x rfl
    have hopen := Plan.isOpen_of_labelled (hl p hp)
    obtain ⟨-, -, hcharged⟩ := ha p hp
    refine forall_plan.mpr ⟨Plan.distinct_withUpdatedSchedule p hxd s,
      Plan.total?_withUpdatedSchedule hopen hxd c, ?_⟩
    rw [Plan.spentInClass_withUpdatedSchedule hopen hxd, hcharged]
    rfl
  | @served p t hp ht =>
    obtain ⟨hd, hheld, hcharged⟩ := ha p hp
    have htm := (Plan.mem_of_unspentToken? ht).1
    have hspent := Plan.spentInClass_raised Function.injective_id (hl p hp) htm hd c
    refine forall_plan.mpr ⟨hd, ?_⟩
    rw [hspent, hcharged]
    by_cases hc : t.priorityClass = c
    · simp only [Account.after, if_pos hc, hheld, and_self]
    · simp only [Account.after, if_neg hc, hheld, and_self]
  | ended => exact forall_plan_none _

/-- Along a history with distinct classes the accounts tell what the plan holds and shows. -/
theorem Reached.accounts {changes : List Change} {b : Pacing} {s : Spending}
    (h : Reached changes b s) (hdistinct : ∀ change ∈ changes, change.Distinct) :
    (∃ label : Counter → Int, b.LabelledBy label id s) ∧
      ∀ c, b.Accounts c (account c changes) s := by
  induction h with
  | start s => exact ⟨⟨fun _ => 0, forall_plan_none _⟩, fun c => forall_plan_none _⟩
  | @changed changes b b' s s' change h hc ih =>
    obtain ⟨⟨label, hl⟩, ha⟩ := ih fun d hd => hdistinct d (List.mem_append_left _ hd)
    have hchange : change.Distinct := hdistinct change (by simp)
    obtain ⟨label', -, hl'⟩ := hc.exists_label hl
    refine ⟨⟨label', hl'⟩, fun c => ?_⟩
    rw [account_concat]
    exact hc.accounts hchange hl (ha c)

end Pacing

namespace History

variable {x : LineItem} {s : Spending} {changes : List Change} {p : Plan}

/-- What is left of a class is what the plan holds of it, less what was charged. -/
theorem unspentInClass_eq (h : History x s changes) (hd : ∀ change ∈ changes, change.Distinct)
    (hp : x.plan = some p) (c : Int) :
    p.unspentInClass c s = (account c changes).total - (account c changes).charged := by
  obtain ⟨-, hheld, hcharged⟩ := (h.reached.accounts hd).2 c p hp
  rw [Plan.unspentInClass_eq_sub, hheld, hcharged]
  rfl

/-- **The active plan has its own allotment, less the serves it granted, exactly if what it holds
covers the allotment and all that is charged beyond those serves**, or it granted everything. -/
theorem allotment_kept_iff (h : History x s changes) (hd : ∀ change ∈ changes, change.Distinct)
    (hp : x.plan = some p) (c : Int) :
    (account c changes).allotted - (account c changes).granted ≤ p.unspentInClass c s ↔
      (account c changes).allotted ≤ (account c changes).granted ∨
        (account c changes).allotted + (account c changes).charged ≤
          (account c changes).total + (account c changes).granted := by
  rw [h.unspentInClass_eq hd hp]
  omega

/-- With the first hour carried on, a newer revision of the second plan leaves nothing of its total:
the serve of the first hour is charged against it. -/
theorem not_forall_allotment_kept :
    ¬ ∀ {x : LineItem} {s : Spending} {changes : List Change} {p : Plan}, History x s changes →
      (∀ change ∈ changes, change.Distinct) → x.plan = some p → ∀ c,
        (account c changes).allotted - (account c changes).granted ≤ p.unspentInClass c s := by
  intro hkept
  -- a serve in the first hour, a silent planner at its end, and then a newer revision
  have h := (((History.registered (twoHours [⟨1, 2⟩] [⟨1, 1⟩] (hour 0)) none none (hour 0)
    .empty).acted .spend).acted (.advance (hour 1) false)).acted
    (.refresh (twoHours [⟨1, 2⟩] [⟨1, 1⟩] (hour 1)) none none (hour 1))
  have hshort := @hkept _ _ _ ⟨"second", hour 1, hour 2, hour 1, [⟨1, 1, ⟨0⟩⟩]⟩ h
    (by decide +kernel) (by decide +kernel) 1
  revert hshort
  decide +kernel

/-- The same line item before the newer revision arrives. -/
theorem allotment_kept_iff_twoHours : ∃ x s changes p, History x s changes ∧
    (∀ change ∈ changes, change.Distinct) ∧ x.plan = some p ∧
      ((account 1 changes).allotted - (account 1 changes).granted ≤ p.unspentInClass 1 s ↔
        (account 1 changes).allotted ≤ (account 1 changes).granted ∨
          (account 1 changes).allotted + (account 1 changes).charged ≤
            (account 1 changes).total + (account 1 changes).granted) := by
  have h := ((History.registered (twoHours [⟨1, 2⟩] [⟨1, 1⟩] (hour 0)) none none (hour 0)
    .empty).acted .spend).acted (.advance (hour 1) false)
  exact ⟨_, _, _, ⟨"second", hour 1, hour 2, hour 0, [⟨1, 3, ⟨0⟩⟩]⟩, h, by decide +kernel,
    by decide +kernel, allotment_kept_iff h (by decide +kernel) (by decide +kernel) 1⟩

/-! ## Histories that keep every allotment -/

/-- A plan that carries nothing on holds its allotment, and is charged only with what it grants. -/
theorem account_of_forall_ne_carriedOn (hfresh : ∀ y now, .carriedOn y now ∉ changes) (c : Int) :
    (account c changes).total = (account c changes).allotted ∧
      (account c changes).charged ≤ (account c changes).granted := by
  induction changes using List.reverseRecOn with
  | nil => exact ⟨rfl, Nat.le_refl 0⟩
  | append_singleton changes change ih =>
    have hle := ih fun y now hm => hfresh y now (List.mem_append_left _ hm)
    rw [account_concat]
    cases change with
    | kept => exact hle
    | activated y now => exact ⟨rfl, Nat.le_refl 0⟩
    | carriedOn y now => exact absurd (by simp) (hfresh y now)
    | revised y =>
      refine ⟨rfl, ?_⟩
      simp only [Account.after]
      split
      · exact hle.2
      · exact Nat.zero_le _
    | served d =>
      simp only [Account.after]
      split
      · exact ⟨hle.1, Nat.succ_le_succ hle.2⟩
      · exact hle
    | ended => exact ⟨rfl, Nat.le_refl 0⟩

/-- While the planner responds every plan has its own allotment. -/
theorem allotment_kept_of_forall_ne_carriedOn (h : History x s changes)
    (hd : ∀ change ∈ changes, change.Distinct) (hfresh : ∀ y now, .carriedOn y now ∉ changes)
    (hp : x.plan = some p) (c : Int) :
    (account c changes).allotted - (account c changes).granted ≤ p.unspentInClass c s := by
  obtain ⟨htotal, hcharged⟩ := account_of_forall_ne_carriedOn hfresh c
  rw [h.unspentInClass_eq hd hp]
  omega

/-- What the schedules that changes bring in allot to a class together. -/
def scheduled (c : Int) (changes : List Change) : Nat :=
  ((changes.filterMap Change.schedule?).map fun x => (x.total? c).getD 0).sum

theorem scheduled_concat (c : Int) (changes : List Change) (change : Change) :
    scheduled c (changes ++ [change]) = scheduled c changes +
      ((change.schedule?.map fun x => (x.total? c).getD 0).getD 0) := by
  unfold scheduled
  rw [List.filterMap_append, List.map_append, List.sum_append]
  cases h : change.schedule? <;> simp [h]

theorem getD_merge_wordAdd_le (m n : Option Nat) :
    (m.merge Token.wordAdd n).getD 0 ≤ m.getD 0 + n.getD 0 := by
  cases m <;> cases n <;> simp [Token.wordAdd_le]

theorem getD_merge_wordAdd {m n : Option Nat} (h : m.getD 0 + n.getD 0 < Token.wordSize) :
    (m.merge Token.wordAdd n).getD 0 = m.getD 0 + n.getD 0 := by
  cases m with
  | none => cases n <;> simp
  | some m =>
    cases n with
    | none => simp
    | some n => simpa using Token.wordAdd_eq_iff.mpr h

/-- A plan never holds more than the schedules allotted together. -/
theorem total_account_le (c : Int) (changes : List Change) :
    (account c changes).total ≤ scheduled c changes := by
  induction changes using List.reverseRecOn with
  | nil => exact Nat.le_refl 0
  | append_singleton changes change ih =>
    rw [account_concat, scheduled_concat]
    cases change with
    | kept => exact ih
    | activated y now => exact Nat.le_add_left _ _
    | carriedOn y now =>
      exact Nat.le_trans (getD_merge_wordAdd_le _ _) (Nat.add_le_add_right ih _)
    | revised y => exact Nat.le_add_left _ _
    | served d =>
      simp only [Account.after]
      split <;> exact ih
    | ended => exact Nat.zero_le _

/-- Without newer revisions no counter shows more than the plan holds of its class, so whatever a
plan carries on has been brought along. -/
theorem charged_le_of_forall_ne_revised {b : Pacing} (h : Pacing.Reached changes b s)
    (hd : ∀ change ∈ changes, change.Distinct) (hfirst : ∀ y, .revised y ∉ changes) {c : Int}
    (hfits : scheduled c changes < Token.wordSize) :
    (account c changes).charged ≤ (account c changes).total ∧
      (account c changes).allotted + (account c changes).charged ≤
        (account c changes).total + (account c changes).granted := by
  induction h with
  | start s => exact ⟨Nat.le_refl 0, Nat.le_refl 0⟩
  | @changed changes b b' s s' change h hc ih =>
    have hd' : ∀ change ∈ changes, change.Distinct :=
      fun change hm => hd change (List.mem_append_left _ hm)
    rw [scheduled_concat] at hfits
    obtain ⟨hwithin, hcovered⟩ := ih hd' (fun y hm => hfirst y (List.mem_append_left _ hm))
      (Nat.lt_of_le_of_lt (Nat.le_add_right _ _) hfits)
    rw [account_concat]
    cases hc with
    | kept => exact ⟨hwithin, hcovered⟩
    | activated hx => exact ⟨Nat.zero_le _, Nat.le_refl _⟩
    | @carriedOn y now p hp hx =>
      -- the sum of the totals fits a word, so all of what the plan before held is brought along
      have hsum : ((account c changes).held.merge Token.wordAdd (y.total? c)).getD 0 =
          (account c changes).total + (y.total? c).getD 0 :=
        getD_merge_wordAdd
          (Nat.lt_of_le_of_lt (Nat.add_le_add_right (total_account_le c changes) _) hfits)
      simp only [Account.after, Account.total, hsum] at hwithin ⊢
      omega
    | @revised y p now hp hid hnewer hx => exact absurd (by simp) (hfirst y)
    | @served p t hp ht =>
      by_cases htc : t.priorityClass = c
      · -- the class has a serve left, so the counter stays within the total
        obtain ⟨htm, hleft⟩ := Plan.mem_of_unspentToken? ht
        obtain ⟨hdistinct, hheld, hcharged⟩ := (h.accounts hd').2 c p hp
        have htoken := (Plan.token?_eq_some_iff hdistinct).mpr ⟨htm, htc⟩
        have htotal : (account c changes).total = t.total := by
          rw [Account.total, ← hheld, Plan.total?, htoken]
          rfl
        have hspent : (account c changes).charged = t.spent s := by
          rw [← hcharged, Plan.spentInClass, htoken]
          rfl
        simp only [Account.after, if_pos htc]
        simp only [Account.total] at htotal hcovered ⊢
        omega
      · simp only [Account.after, if_neg htc]
        exact ⟨hwithin, hcovered⟩
    | ended => exact ⟨Nat.le_refl 0, Nat.le_refl 0⟩

/-- While no newer revision is accepted every plan has its own allotment, if all schedules together
allot fewer serves than a word counts. -/
theorem allotment_kept_of_forall_ne_revised (h : History x s changes)
    (hd : ∀ change ∈ changes, change.Distinct) (hfirst : ∀ y, .revised y ∉ changes)
    (hp : x.plan = some p) {c : Int} (hfits : scheduled c changes < Token.wordSize) :
    (account c changes).allotted - (account c changes).granted ≤ p.unspentInClass c s := by
  obtain ⟨-, hcovered⟩ := charged_le_of_forall_ne_revised h.reached hd hfirst hfits
  rw [h.unspentInClass_eq hd hp]
  omega

end History

end DealPacing
