import DealPacing.Proofs.Delivery.Answers
import DealPacing.Proofs.Delivery.Readiness

/-!
# Serves at their due instants

A line item names the instant at which its next serve is due: at once when it is registered, and
later on as many times the rate after the start of its plan as serves were taken. A server that
waits for these instants never runs ahead of an even delivery. The due instants are found anew after
every serve, from the number of serves, so that cutting them to milliseconds does not add up.

## Main definitions

* `LineItem.DueServes`: serves that are each taken when the next one is due
* `LineItem.OnPace`: a line item of whose first plan a number of serves was taken

## Main results

* `LineItem.OnPace.spend`: a serve at a due instant is taken, and puts the next one off
* `LineItem.OnPace.due_le`: when the next serve is due
* `LineItem.DueServes.even_delivery`: serves at due instants keep to the rate
-/

namespace DealPacing

/-- If the members of a list that are counted come no earlier than their turns, which are `r` apart,
there are no more of them than turns up to `n`. -/
theorem countP_le_turns {α : Type} {counts : α → Bool} {r n : Int} (hr : 0 < r) {times : List α}
    (h : ∀ k (hk : k < times.length), counts times[k] → k * r ≤ n) :
    times.countP counts ≤ (n / r + 1).toNat := by
  induction times using List.reverseRecOn with
  | nil => exact Nat.zero_le _
  | append_singleton times t ih =>
    have hbefore : times.countP counts ≤ (n / r + 1).toNat := by
      refine ih fun k hk hcounts => h k (by rw [List.length_append]; omega) ?_
      rwa [List.getElem_append_left hk]
    rw [List.countP_append, List.countP_singleton]
    by_cases hlast : counts t
    · -- the turn of the last member has come, so as many turns have come as there are members
      have hturn : times.length * r ≤ n :=
        h times.length (by simp) (by rwa [List.getElem_concat_length rfl])
      have hturns : (times.length : Int) ≤ n / r := (Int.le_ediv_iff_mul_le hr).mpr hturn
      have hcount := times.countP_le_length (p := counts)
      rw [if_pos hlast]
      omega
    · rw [if_neg hlast]
      exact hbefore

namespace Plan

theorem exists_unspentToken? {p : Plan} {s : Spending} (h : 0 < p.leftSum s) :
    ∃ t, p.unspentToken? s = some t := by
  cases ht : p.unspentToken? s with
  | some t => exact ⟨t, rfl⟩
  | none =>
    rw [← length_serveOrder, serveOrder_of_none ht] at h
    exact absurd h (Nat.lt_irrefl 0)

/-- Of a plan with nothing spent something is left, if it grants something. -/
theorem leftSum_pos {p : Plan} {s : Spending} (hspent : p.spentSum s = 0)
    (htotal : 0 < p.totalTokens) : 0 < p.leftSum s := by
  have hgranted : p.totalTokens ≤ p.grantedSum := p.totalTokens_eq ▸ Nat.mod_le _ _
  have hsplit := p.grantedSum_le s
  omega

end Plan

namespace LineItem

theorem isReadyAt_iff {x : LineItem} {t : Instant} :
    x.isReadyAt t ↔ ∃ due, x.readyAt = some due ∧ due ≤ t := by
  unfold isReadyAt
  cases x.readyAt <;> simp

/-- Serves that are taken of a line item, each at an instant at which the next one is due. Plans of
other line items may be served in between. -/
inductive DueServes (x₀ : LineItem) (s₀ : Spending) : List Instant → LineItem → Spending → Prop
  | start : DueServes x₀ s₀ [] x₀ s₀
  | serve {times : List Instant} {x : LineItem} {s : Spending} {t : Instant}
    (h : DueServes x₀ s₀ times x s) (hdue : x.isReadyAt t) :
    DueServes x₀ s₀ (times ++ [t]) (x.spend.run s).1.1 (x.spend.run s).2
  | elsewhere {times : List Instant} {x : LineItem} {s s' : Spending}
    (h : DueServes x₀ s₀ times x s) (hopen : ∀ {c}, s.IsOpen c → s'.IsOpen c)
    (hsame : ∀ p, x.plan = some p → p.balances s' = p.balances s) : DueServes x₀ s₀ times x s'

/-- `n` serves were taken of the plan `p`, which started at `now`. Once there are more than a signed
word counts, no further one is due. -/
structure OnPace (p : Plan) (now : Instant) (x : LineItem) (s : Spending) (n : Nat) : Prop where
  plan : x.plan = some p
  apart : p.CountsApart s
  spent : p.spentSum s = n
  bounded : (n : Int) ≤ int64Max + 1
  first : n = 0 → x.readyAt = some (dueAt now)
  later : 0 < n → x.readyAt = (p.readyAt? s).map dueAt

namespace OnPace

variable {p : Plan} {now : Instant} {x : LineItem} {s : Spending} {n : Nat}

theorem registered {record : LineItemRecord} {y : Schedule} (hy : record.scheduleAt? now = some y)
    (cpm : Option Float) (targeting : Option Targeting.Expression) (s : Spending) :
    OnPace ((Plan.ofSchedule y).run s).1 now ((register record cpm targeting now).run s).1
      ((register record cpm targeting now).run s).2 0 := by
  rw [run_register_of_some hy]
  refine ⟨rfl, Plan.countsApart_ofSchedule y s, ?_, by decide, fun _ => rfl,
    fun h => absurd h (by decide)⟩
  exact Plan.spentSum_eq_zero_iff.mpr (Plan.spent_ofSchedule y s)

/-- The serves fit a word, so the plan tells their number. -/
theorem spentTokens_eq (h : OnPace p now x s n) : p.spentTokens s = n := by
  have hword : int64Max + 1 < (Token.wordSize : Int) := by decide
  have hbounded := h.bounded
  rw [Plan.spentTokens_of_lt (by rw [h.spent]; omega), h.spent]

/-- At an instant at which the next serve is due, a serve is left, and a signed word counts those
that were taken. -/
theorem left_of_isReadyAt (h : OnPace p now x s n) (htotal : 0 < p.totalTokens) {t : Instant}
    (hdue : x.isReadyAt t) : 0 < p.leftSum s ∧ (n : Int) ≤ int64Max := by
  obtain ⟨due, hready, -⟩ := isReadyAt_iff.mp hdue
  rcases Nat.eq_zero_or_pos n with rfl | hn
  · exact ⟨Plan.leftSum_pos h.spent htotal, by decide⟩
  · obtain ⟨_, hinstant, -⟩ := Option.map_eq_some_iff.mp ((h.later hn).symm.trans hready)
    obtain ⟨hleft, -, -, hspent, -⟩ := Plan.readyAt?_eq_some_iff.mp hinstant
    rw [h.spentTokens_eq] at hspent
    rw [Plan.unspentTokens_eq] at hleft
    exact ⟨Nat.pos_of_ne_zero fun hnone => hleft (by rw [hnone, Nat.zero_mod]), hspent⟩

/-- A serve at a due instant is taken, and puts the next one off. -/
theorem spend (h : OnPace p now x s n) (htotal : 0 < p.totalTokens) {t : Instant}
    (hdue : x.isReadyAt t) : OnPace p now (x.spend.run s).1.1 (x.spend.run s).2 (n + 1) := by
  obtain ⟨hleft, hbounded⟩ := h.left_of_isReadyAt htotal hdue
  obtain ⟨u, hu⟩ := Plan.exists_unspentToken? hleft
  have hserve : p.spend.run s = (some u.priorityClass, s.raised u.counter 1) := by
    rw [Plan.run_spend, hu]
  -- the tokens count apart, so the serve is spent once
  have hspent : p.spentSum (s.raised u.counter 1) = n + 1 := by
    have honce := h.apart.spentSum_spend
    rw [hserve, h.spent] at honce
    exact honce
  have happart : p.CountsApart (s.raised u.counter 1) := by
    have hspend := h.apart.spend
    rwa [hserve] at hspend
  rw [run_spend_of_some h.plan, hu]
  exact ⟨h.plan, happart, hspent, by omega, fun h0 => absurd h0 n.succ_ne_zero, fun _ => rfl⟩

theorem elsewhere (h : OnPace p now x s n) {s' : Spending}
    (hopen : ∀ {c}, s.IsOpen c → s'.IsOpen c) (hsame : p.balances s' = p.balances s) :
    OnPace p now x s' n where
  plan := h.plan
  apart := ⟨fun t ht => hopen (h.apart.isOpen t ht), h.apart.apart⟩
  spent := by rw [Plan.spentSum_eq, hsame, ← Plan.spentSum_eq, h.spent]
  bounded := h.bounded
  first := h.first
  later := by
    intro hn
    have hvalue : p.value s' = p.value s := by rw [Plan.value, hsame, Plan.value]
    rw [h.later hn, Plan.readyAt?_eq_of_value_eq hvalue]

/-- The serve after `n` others is due `n` times the rate after the start of the plan, cut to
milliseconds, or later. -/
theorem due_le (h : OnPace p now x s n) {r : Int} (hrate : p.rate? = some r)
    (hnow : p.start ≤ now) {t : Instant} (hdue : x.isReadyAt t) :
    (p.start.addMillis (n * r)).cutToMillis ≤ t := by
  obtain ⟨due, hready, hle⟩ := isReadyAt_iff.mp hdue
  refine Instant.le_trans ?_ hle
  -- the first serve is due when the line item is registered, each later one by the number of serves
  rcases Nat.eq_zero_or_pos n with rfl | hn
  · obtain rfl := Option.some.inj ((h.first rfl).symm.trans hready)
    rw [Int.ofNat_zero, Int.zero_mul, Instant.addMillis_zero]
    exact Instant.le_trans (Instant.cutToMillis_mono hnow) now.cutToMillis_le_ofMillis
  · obtain ⟨instant, hinstant, rfl⟩ := Option.map_eq_some_iff.mp ((h.later hn).symm.trans hready)
    obtain ⟨-, -, -, -, -, rfl⟩ := Plan.readyAt?_eq_some_iff.mp hinstant
    rw [Plan.offset_eq hrate, h.spentTokens_eq]
    exact Instant.cutToMillis_le_ofMillis _

end OnPace

namespace DueServes

variable {record : LineItemRecord} {cpm : Option Float} {targeting : Option Targeting.Expression}
  {now : Instant} {s₀ s : Spending} {y : Schedule} {r : Int} {times : List Instant} {x : LineItem}

theorem onPace (hy : record.scheduleAt? now = some y)
    (htotal : 0 < ((Plan.ofSchedule y).run s₀).1.totalTokens)
    (h : DueServes ((register record cpm targeting now).run s₀).1
      ((register record cpm targeting now).run s₀).2 times x s) :
    OnPace ((Plan.ofSchedule y).run s₀).1 now x s times.length := by
  induction h with
  | start => exact .registered hy cpm targeting s₀
  | serve h hdue ih =>
    rw [List.length_append, List.length_singleton]
    exact ih.spend htotal hdue
  | elsewhere h hopen hsame ih => exact ih.elsewhere hopen (hsame _ ih.plan)

/-- Each serve comes when its turn has come. -/
theorem turn_le (hy : record.scheduleAt? now = some y)
    (hrate : ((Plan.ofSchedule y).run s₀).1.rate? = some r)
    (h : DueServes ((register record cpm targeting now).run s₀).1
      ((register record cpm targeting now).run s₀).2 times x s) :
    ∀ k (hk : k < times.length), (y.start.addMillis (k * r)).cutToMillis ≤ times[k] := by
  induction h with
  | start => exact fun k hk => absurd hk k.not_lt_zero
  | elsewhere h hopen hsame ih => exact ih
  | serve h hdue ih =>
    intro k hk
    rw [List.length_append, List.length_singleton, Nat.lt_succ_iff_lt_or_eq] at hk
    rcases hk with hk | rfl
    · rw [List.getElem_append_left hk]
      exact ih k hk
    · rw [List.getElem_concat_length rfl]
      have hstart : y.start ≤ now := by
        have hcovers := covers_of_scheduleAt? hy
        simp only [Schedule.covers, Bool.and_eq_true, decide_eq_true_eq] at hcovers
        exact hcovers.1
      exact (h.onPace hy (Plan.rate?_eq_some_iff.mp hrate).1).due_le hrate hstart hdue

/-- **Serves that are taken at due instants never run ahead of an even delivery.** Every attempt to
take one succeeds. Each serve comes no earlier than its turn: the turns are a rate apart, the first
is the start of the schedule. So up to any instant there are no more serves than turns, one at the
start and one for each full rate that has passed since. -/
theorem even_delivery (hy : record.scheduleAt? now = some y)
    (hrate : ((Plan.ofSchedule y).run s₀).1.rate? = some r) (hr : 0 < r)
    (h : DueServes ((register record cpm targeting now).run s₀).1
      ((register record cpm targeting now).run s₀).2 times x s) :
    (∃ p, x.plan = some p ∧ p.spentTokens s = times.length) ∧
      (∀ k (hk : k < times.length), (y.start.addMillis (k * r)).cutToMillis ≤ times[k]) ∧
      ∀ t : Instant, times.countP (·.cutToMillis ≤ t.cutToMillis) ≤
        (t.wholeMillisSince y.start / r + 1).toNat := by
  have hpace := h.onPace hy (Plan.rate?_eq_some_iff.mp hrate).1
  have hturns := h.turn_le hy hrate
  refine ⟨⟨_, hpace.plan, hpace.spentTokens_eq⟩, hturns, fun t => ?_⟩
  refine countP_le_turns hr fun k hk hcounts => ?_
  -- the turn of a serve up to `t` has come
  have hserve : times[k].cutToMillis ≤ t.cutToMillis := by simpa using hcounts
  have hturn := Instant.le_trans (Instant.cutToMillis_le_cutToMillis (hturns k hk)) hserve
  rw [← Instant.wholeMillisSince_cutToMillis]
  exact Instant.le_wholeMillisSince (Int.mul_nonneg (Int.natCast_nonneg k) hr.le) hturn

/-- Two serves of the first hour, at its start and half an hour later. -/
theorem even_delivery_twoHours : ∃ record now y r times x s,
    LineItemRecord.scheduleAt? record now = some y ∧
      ((Plan.ofSchedule y).run .empty).1.rate? = some r ∧ 0 < r ∧
      DueServes ((register record none none now).run .empty).1
        ((register record none none now).run .empty).2 times x s ∧ times.length = 2 ∧
      ∀ t : Instant, times.countP (·.cutToMillis ≤ t.cutToMillis) ≤
        (t.wholeMillisSince y.start / r + 1).toNat := by
  let record := twoHours [⟨1, 2⟩] [] (hour 0)
  let y : Schedule := ⟨"first", hour 0, hour 1, hour 0, [⟨1, 2⟩]⟩
  have hy : record.scheduleAt? (hour 0) = some y := by decide +kernel
  have hrate : ((Plan.ofSchedule y).run .empty).1.rate? = some 1800000 := by decide +kernel
  have hnone : DueServes ((register record none none (hour 0)).run .empty).1
      ((register record none none (hour 0)).run .empty).2 [] _ _ := .start
  have hone := hnone.serve (t := hour 0) (by decide +kernel)
  have h := hone.serve (t := .ofMillis 1800000) (by decide +kernel)
  exact ⟨_, _, _, _, _, _, _, hy, hrate, by decide, h, rfl,
    (h.even_delivery hy hrate (by decide)).2.2⟩

end DueServes

end LineItem

end DealPacing
