import DealPacing.Proofs.Delivery.Histories
import DealPacing.Proofs.Delivery.WordSums
import DealPacing.Proofs.Time.Instants
import Mathlib.Algebra.Order.Ring.Int

/-!
# When the next serve is due

The next serve is due at once when a plan starts, and is put off by every serve and every newer
revision, so that the serves of the plan are spread evenly over its window. The offset counts the
spent serves of all classes at the rate of the granted ones. It stays within the window as long as
the plan spent less than it grants. A smaller revision, with serves left in one class and too many
spent in another, puts the next serve off beyond the end. All sums over classes are taken in 64-bit
words, so that a plan that grants too much names no next serve, or any instant.

## Main definitions

* `Pace`, `paceAfter`: what set the next serve last
* `Plan.offset`: the milliseconds from the start of a plan to its next serve
* `Plan.InTime`: the next serve is due before the plan ends

## Main results

* `Pacing.Reached.inStep`: the next serve is always due as the pace says
* `Plan.inTime_of_spentSum_lt`: a plan that spent less than it grants is in time
* `Plan.InTime.isRepresentable`: a plan in time names an instant that time stamps can name
* `History.ready_before_finish_iff`: when a plan with serves left has the next one due in time
-/

namespace DealPacing

open LineItem (dueAt)

/-- What set the next serve. -/
inductive Pace where
  /-- A plan started. -/
  | atOnce (now : Instant)
  /-- A serve was taken, or a newer revision came. -/
  | evenly
deriving DecidableEq, Repr

/-- The pace after one more change. -/
def Pace.after (pace : Pace) : Change → Pace
  | .kept => pace
  | .activated _ now => .atOnce now
  | .carriedOn _ now => .atOnce now
  | .revised _ => .evenly
  | .served _ => .evenly
  | .ended => .evenly

/-- The pace after some changes. -/
def paceAfter (changes : List Change) : Pace := changes.foldl Pace.after .evenly

theorem paceAfter_concat (changes : List Change) (change : Change) :
    paceAfter (changes ++ [change]) = (paceAfter changes).after change := by
  simp [paceAfter]

/-- A window outside leap seconds, whose milliseconds fit a 64-bit word. -/
structure PlainWindow (start finish : Instant) : Prop where
  plain_start : start.Plain
  plain_finish : finish.Plain
  fits : finish.millisSince start ≤ int64Max

instance (start finish : Instant) : Decidable (PlainWindow start finish) :=
  decidable_of_iff
    (start.Plain ∧ finish.Plain ∧ finish.millisSince start ≤ int64Max)
    ⟨fun ⟨h, h', h''⟩ => ⟨h, h', h''⟩, fun ⟨h, h', h''⟩ => ⟨h, h', h''⟩⟩

/-- The instant at which the change makes the next serve due. -/
def Change.now? : Change → Option Instant
  | .activated _ now => some now
  | .carriedOn _ now => some now
  | _ => none

/-- The change involves no leap second. -/
structure Change.Plain (change : Change) : Prop where
  window : ∀ x ∈ change.schedule?, PlainWindow x.start x.finish
  now : ∀ now ∈ change.now?, now.Plain

instance (change : Change) : Decidable change.Plain :=
  decidable_of_iff
    ((∀ x ∈ change.schedule?, PlainWindow x.start x.finish) ∧ ∀ now ∈ change.now?, now.Plain)
    ⟨fun ⟨h, h'⟩ => ⟨h, h'⟩, fun ⟨h, h'⟩ => ⟨h, h'⟩⟩

theorem fitsInt64_of_nonneg {n : Int} (h : 0 ≤ n) (hmax : n ≤ int64Max) : fitsInt64 n := by
  have hmin : int64Min ≤ n := Int.le_trans (by decide) h
  simp [fitsInt64, hmin, hmax]

namespace Plan

/-- The milliseconds from the start of the plan to the next serve. -/
def offset (p : Plan) (s : Spending) : Int :=
  p.spentTokens s * (p.finish.millisSince p.start).tdiv p.totalTokens

/-- The next serve of a plan is due before the plan ends. Its sums are not zero as words, and with
their offset they fit a signed word. -/
def InTime (p : Plan) (s : Spending) : Pace → Prop
  | .atOnce now => dueAt now < p.finish
  | .evenly => p.unspentTokens s ≠ 0 ∧ 0 < p.totalTokens ∧ (p.totalTokens : Int) ≤ int64Max ∧
      (p.spentTokens s : Int) ≤ int64Max ∧ fitsInt64 (p.offset s) ∧
      dueAt (p.start.addMillis (p.offset s)) < p.finish

theorem rate?_eq_some_iff {p : Plan} {r : Int} : p.rate? = some r ↔
    0 < p.totalTokens ∧ (p.totalTokens : Int) ≤ int64Max ∧
      (p.finish.millisSince p.start).tdiv p.totalTokens = r := by
  by_cases hfits : 0 < p.totalTokens ∧ (p.totalTokens : Int) ≤ int64Max
  · simp [rate?, hfits]
  · simp only [rate?, Bool.and_eq_true, decide_eq_true_eq, if_neg hfits, reduceCtorEq, false_iff]
    exact fun h => hfits ⟨h.1, h.2.1⟩

/-- The offset of the next serve is the rate for each serve that was spent. -/
theorem offset_eq {p : Plan} {r : Int} (h : p.rate? = some r) (s : Spending) :
    p.offset s = p.spentTokens s * r := by
  rw [offset, (rate?_eq_some_iff.mp h).2.2]

/-- When a plan names the next serve. -/
theorem readyAt?_eq_some_iff {p : Plan} {s : Spending} {t : Instant} :
    p.readyAt? s = some t ↔ p.unspentTokens s ≠ 0 ∧ 0 < p.totalTokens ∧
      (p.totalTokens : Int) ≤ int64Max ∧ (p.spentTokens s : Int) ≤ int64Max ∧
      fitsInt64 (p.offset s) ∧ p.start.addMillis (p.offset s) = t := by
  by_cases hleft : p.unspentTokens s = 0
  · simp [readyAt?, hleft]
  cases hrate : p.rate? with
  | none =>
    have hunfit : ¬ (0 < p.totalTokens ∧ (p.totalTokens : Int) ≤ int64Max) := fun h => by
      rw [rate?_eq_some_iff.mpr ⟨h.1, h.2, rfl⟩] at hrate
      cases hrate
    simp only [readyAt?, if_neg hleft, hrate, Option.bind_eq_bind, Option.bind_none, reduceCtorEq,
      false_iff]
    exact fun h => hunfit ⟨h.2.1, h.2.2.1⟩
  | some r =>
    obtain ⟨hpos, hmax, -⟩ := rate?_eq_some_iff.mp hrate
    simp only [readyAt?, if_neg hleft, hrate, Option.bind_eq_bind, Option.bind_some,
      ← offset_eq hrate]
    by_cases hspent : (p.spentTokens s : Int) ≤ int64Max
    · rw [if_neg (Int.not_lt.mpr hspent)]
      by_cases hfits : fitsInt64 (p.offset s) <;> simp [hleft, hpos, hmax, hspent, hfits]
    · simp [Int.not_le.mp hspent, hspent]

/-- A plan that spent less than it grants puts the next serve off to an instant in its window. -/
theorem offset_lt {p : Plan} {s : Spending} (hwindow : 0 ≤ p.finish.millisSince p.start)
    (hspent : p.spentTokens s < p.totalTokens) :
    0 ≤ p.offset s ∧ (p.offset s = 0 ∨ p.offset s < p.finish.millisSince p.start) := by
  have htotal : (0 : Int) < p.totalTokens := by omega
  have hdiv : p.offset s =
      p.spentTokens s * (p.finish.millisSince p.start / p.totalTokens) := by
    rw [offset, Int.tdiv_eq_ediv_of_nonneg hwindow]
  have hrate : 0 ≤ p.finish.millisSince p.start / p.totalTokens :=
    Int.ediv_nonneg hwindow htotal.le
  -- the rate is rounded down, so all serves together take no longer than the window
  have hall : p.totalTokens * (p.finish.millisSince p.start / p.totalTokens) ≤
      p.finish.millisSince p.start := Int.mul_ediv_self_le htotal.ne'
  rw [hdiv]
  refine ⟨Int.mul_nonneg (by omega) hrate, ?_⟩
  -- a rate of zero never puts off, and at any other rate one serve fewer is strictly less
  rcases hrate.eq_or_lt with hzero | hpos
  · exact Or.inl (by rw [← hzero, Int.mul_zero])
  · refine Or.inr (lt_of_lt_of_le ?_ hall)
    exact Int.mul_lt_mul_of_pos_right (by omega) hpos

theorem millisSince_nonneg {p : Plan} (hplain : PlainWindow p.start p.finish)
    (hwindow : p.start < p.finish) : 0 ≤ p.finish.millisSince p.start := by
  rw [Instant.millisSince, hplain.plain_finish.nanosSince_eq hplain.plain_start]
  have := (hplain.plain_start.lt_iff hplain.plain_finish).mp hwindow
  exact Int.tdiv_nonneg (by omega) (by omega)

/-- A plan that spent less than it grants has the next serve due in time. -/
theorem inTime_of_spentSum_lt {p : Plan} {s : Spending} (hplain : PlainWindow p.start p.finish)
    (hwindow : p.start < p.finish) (hgranted : (p.grantedSum : Int) ≤ int64Max)
    (hspent : p.spentSum s < p.grantedSum) : p.InTime s .evenly := by
  -- no sum of the plan fills a word
  have hword : p.grantedSum < Token.wordSize := by
    have : int64Max < (Token.wordSize : Int) := by decide
    omega
  have hsplit := p.grantedSum_le s
  have hleft := p.leftSum_le_grantedSum s
  have htotal := totalTokens_of_lt hword
  have hcounted := spentTokens_of_lt (Nat.lt_trans hspent hword)
  have hunspent := unspentTokens_of_lt (Nat.lt_of_le_of_lt hleft hword)
  obtain ⟨hoffset, hlt⟩ := offset_lt (s := s) (millisSince_nonneg hplain hwindow)
    (by rwa [htotal, hcounted])
  have hfits := hplain.fits
  refine ⟨by omega, by omega, by omega, by omega, fitsInt64_of_nonneg hoffset (by omega), ?_⟩
  -- the instant is cut to milliseconds at last, which makes it no later
  have hdue := (hplain.plain_start.plain_addMillis (p.offset s)).ofMillis_millis_le
  exact Instant.lt_of_le_of_lt hdue
    (hplain.plain_start.addMillis_lt hplain.plain_finish hwindow hlt)

/-- A plan in time names an instant that time stamps can name, as its window is. -/
theorem InTime.isRepresentable {p : Plan} {s : Spending} (h : p.InTime s .evenly)
    (hplain : PlainWindow p.start p.finish) (hwindow : p.start < p.finish)
    (hstart : Instant.isRepresentable p.start.second)
    (hfinish : Instant.isRepresentable p.finish.second) :
    Instant.isRepresentable (p.start.addMillis (p.offset s)).second := by
  obtain ⟨-, -, -, -, -, hdue⟩ := h
  have hoffset : 0 ≤ p.offset s :=
    Int.mul_nonneg (Int.natCast_nonneg _)
      (Int.tdiv_nonneg (millisSince_nonneg hplain hwindow) (Int.natCast_nonneg _))
  have hle := hplain.plain_start.second_le_addMillis hoffset
  have hlt := (p.start.addMillis (p.offset s)).second_le_of_ofMillis_millis_le (Int.le_of_lt hdue)
  simp only [Instant.isRepresentable, Bool.and_eq_true, decide_eq_true_eq] at *
  omega

end Plan

/-- The next serve is due as the pace says. -/
def Pace.DueAt (s : Spending) (b : Pacing) (p : Plan) : Pace → Prop
  | .atOnce now => b.readyAt = some (dueAt now)
  | .evenly => b.readyAt = (p.readyAt? s).map dueAt

namespace Pacing

/-- The active plan has a window, in which it started if nothing happened since, and the next serve
is due as the pace says. -/
structure InStep (pace : Pace) (s : Spending) (b : Pacing) (p : Plan) : Prop where
  window : p.start < p.finish
  covers : ∀ now, pace = .atOnce now → p.covers now
  due : pace.DueAt s b p

theorem start_lt_finish {p : Plan} {now : Instant} (h : p.covers now) : p.start < p.finish := by
  simp only [Plan.covers, Bool.and_eq_true, decide_eq_true_eq] at h
  exact Instant.lt_of_le_of_lt h.1 h.2

theorem inStep_atOnce {p : Plan} {now : Instant} (s : Spending) (h : p.covers now) :
    InStep (.atOnce now) s ⟨some p, some (dueAt now)⟩ p where
  window := start_lt_finish h
  covers := by
    intro t ht
    obtain rfl := Pace.atOnce.inj ht
    exact h
  due := rfl

theorem inStep_evenly {p : Plan} (s : Spending) (h : p.start < p.finish) :
    InStep .evenly s ⟨some p, (p.readyAt? s).map dueAt⟩ p where
  window := h
  covers := by simp
  due := rfl

/-- A change keeps the next serve in step. -/
theorem Changes.inStep {b b' : Pacing} {s s' : Spending} {change : Change} {pace : Pace}
    (h : b.Changes s change b' s') (hb : ∀ p, b.plan = some p → b.InStep pace s p) :
    ∀ p, b'.plan = some p → b'.InStep (pace.after change) s' p := by
  cases h with
  | kept => exact hb
  | activated hx =>
    exact forall_plan.mpr (inStep_atOnce _ hx)
  | carriedOn hp hx =>
    rw [Plan.run_carriedInto]
    exact forall_plan.mpr (inStep_atOnce _ hx)
  | revised hp hid hnewer hx =>
    exact forall_plan.mpr (inStep_evenly _ (start_lt_finish hx))
  | served hp ht =>
    exact forall_plan.mpr (inStep_evenly _ (hb _ hp).window)
  | ended => exact forall_plan_none _

theorem Reached.inStep {changes : List Change} {b : Pacing} {s : Spending}
    (h : Reached changes b s) : ∀ p, b.plan = some p → b.InStep (paceAfter changes) s p := by
  induction h with
  | start s => exact forall_plan_none _
  | changed _ hc ih =>
    rw [paceAfter_concat]
    exact hc.inStep ih

/-- The active plan and the pace involve no leap second. -/
structure PlainFor (pace : Pace) (p : Plan) : Prop where
  window : PlainWindow p.start p.finish
  now : ∀ now, pace = .atOnce now → now.Plain

theorem plainFor_atOnce {p : Plan} {now : Instant} (hwindow : PlainWindow p.start p.finish)
    (hnow : now.Plain) : PlainFor (.atOnce now) p where
  window := hwindow
  now := by
    intro t ht
    obtain rfl := Pace.atOnce.inj ht
    exact hnow

theorem Changes.plain {b b' : Pacing} {s s' : Spending} {change : Change} {pace : Pace}
    (h : b.Changes s change b' s') (hplain : change.Plain)
    (hb : ∀ p, b.plan = some p → PlainFor pace p) :
    ∀ p, b'.plan = some p → PlainFor (pace.after change) p := by
  cases h with
  | kept => exact hb
  | activated hx =>
    exact forall_plan.mpr (plainFor_atOnce (hplain.window _ rfl) (hplain.now _ rfl))
  | carriedOn hp hx =>
    rw [Plan.run_carriedInto]
    exact forall_plan.mpr (plainFor_atOnce (hplain.window _ rfl) (hplain.now _ rfl))
  | revised hp hid hnewer hx =>
    exact forall_plan.mpr ⟨hplain.window _ rfl, by simp [Pace.after]⟩
  | served hp ht =>
    exact forall_plan.mpr ⟨(hb _ hp).window, by simp [Pace.after]⟩
  | ended => exact forall_plan_none _

theorem Reached.plain {changes : List Change} {b : Pacing} {s : Spending}
    (h : Reached changes b s) (hplain : ∀ change ∈ changes, change.Plain) :
    ∀ p, b.plan = some p → PlainFor (paceAfter changes) p := by
  induction h with
  | start s => exact forall_plan_none _
  | changed _ hc ih =>
    rw [paceAfter_concat]
    exact hc.plain (hplain _ (by simp)) (ih fun d hd => hplain d (List.mem_append_left _ hd))

end Pacing

namespace History

variable {x : LineItem} {s : Spending} {changes : List Change} {p : Plan}

theorem ready_iff (h : History x s changes) (hp : x.plan = some p) :
    (∃ t, x.readyAt = some t ∧ t < p.finish) ↔ p.InTime s (paceAfter changes) := by
  have hdue := (h.reached.inStep p hp).due
  cases hpace : paceAfter changes with
  | atOnce now =>
    rw [hpace] at hdue
    simp only [Pace.DueAt, LineItem.pacing] at hdue
    simp [Plan.InTime, hdue]
  | evenly =>
    rw [hpace] at hdue
    simp only [Pace.DueAt, LineItem.pacing] at hdue
    simp only [Plan.InTime, hdue, Option.map_eq_some_iff, Plan.readyAt?_eq_some_iff]
    constructor
    · rintro ⟨_, ⟨_, ⟨hleft, hpos, htotal, hspent, hfits, rfl⟩, rfl⟩, hlt⟩
      exact ⟨hleft, hpos, htotal, hspent, hfits, hlt⟩
    · rintro ⟨hleft, hpos, htotal, hspent, hfits, hlt⟩
      exact ⟨_, ⟨_, ⟨hleft, hpos, htotal, hspent, hfits, rfl⟩, rfl⟩, hlt⟩

/-- Without leap seconds a plan is in time when it starts, and as long as it spent less than it
grants. -/
theorem inTime (h : History x s changes) (hplain : ∀ change ∈ changes, change.Plain)
    (hp : x.plan = some p) (hgranted : (p.grantedSum : Int) ≤ int64Max)
    (hspent : p.spentSum s < p.grantedSum) : p.InTime s (paceAfter changes) := by
  obtain ⟨hwindow, hcovers, -⟩ := h.reached.inStep p hp
  obtain ⟨hplainWindow, hnow⟩ := h.reached.plain hplain p hp
  cases hpace : paceAfter changes with
  | atOnce now =>
    have hcover := hcovers now hpace
    simp only [Plan.covers, Bool.and_eq_true, decide_eq_true_eq] at hcover
    exact Instant.lt_of_le_of_lt (hnow now hpace).ofMillis_millis_le hcover.2
  | evenly => exact Plan.inTime_of_spentSum_lt hplainWindow hwindow hgranted hspent

/-- **A plan has the next serve due before its end exactly if it is in time**, and it is in time as
long as it spent less than it grants. -/
theorem ready_before_finish_iff (h : History x s changes) (hp : x.plan = some p) :
    ((∃ t, x.readyAt = some t ∧ t < p.finish) ↔ p.InTime s (paceAfter changes)) ∧
      ((∀ change ∈ changes, change.Plain) → (p.grantedSum : Int) ≤ int64Max →
        p.spentSum s < p.grantedSum → ∃ t, x.readyAt = some t ∧ t < p.finish) := by
  refine ⟨h.ready_iff hp, fun hplain hgranted hspent => ?_⟩
  exact (h.ready_iff hp).mpr (h.inTime hplain hp hgranted hspent)

/-- A smaller revision of both classes after two serves of the first: a serve of the second is left,
and due when the plan ends. -/
theorem not_forall_ready_before_finish :
    ¬ ∀ {x : LineItem} {s : Spending} {changes : List Change} {p : Plan}, History x s changes →
      x.plan = some p → (p.unspentToken? s).isSome → ∃ t, x.readyAt = some t ∧ t < p.finish := by
  intro hready
  let old : Schedule := ⟨"first", hour 0, hour 1, hour 0, [⟨1, 2⟩, ⟨2, 2⟩]⟩
  let newer : Schedule := ⟨"first", hour 0, hour 1, hour 1, [⟨1, 1⟩, ⟨2, 1⟩]⟩
  let record (y : Schedule) : LineItemRecord := twoHours y.tokens [] y.updated
  have hregistered := History.registered (record old) none none (hour 0) .empty
  rw [LineItem.run_register_of_some (y := old) rfl,
    Plan.ofSchedule_of_pairwise (by decide)] at hregistered
  -- both serves are of the first class, so the revision leaves one of the second
  have hserved : ∃ x s changes, History x s changes ∧ s = ⟨#[2, 0]⟩ ∧
      x.plan = some ⟨"first", hour 0, hour 1, hour 0, [⟨1, 2, ⟨0⟩⟩, ⟨2, 2, ⟨1⟩⟩]⟩ :=
    ⟨_, _, _, (hregistered.acted .spend).acted .spend, by decide +kernel, by decide +kernel⟩
  obtain ⟨x, _, changes, hserved, rfl, hp⟩ := hserved
  have hcovers : (record newer).scheduleAt? (hour 0) = some newer := rfl
  have hrefresh := LineItem.run_refreshed_of_newer hcovers hp (by decide +kernel) none none
    ⟨#[2, 0]⟩
  rw [Plan.run_withUpdatedSchedule, Plan.ofSchedule_of_pairwise (by decide)] at hrefresh
  have hrevised := hserved.acted (.refresh (record newer) none none (hour 0))
  change History ((x.refreshed (record newer) none none (hour 0)).run ⟨#[2, 0]⟩).1
    ((x.refreshed (record newer) none none (hour 0)).run ⟨#[2, 0]⟩).2 _ at hrevised
  rw [hrefresh] at hrevised
  obtain ⟨t, ht, hlt⟩ := hready hrevised rfl (by decide +kernel)
  have hend : some t = some (hour 1) := ht.symm.trans (by decide +kernel)
  obtain rfl := Option.some.inj hend
  exact Int.lt_irrefl _ hlt

/-- A line item with one class, one of whose two serves is taken. -/
theorem ready_before_finish_twoHours : ∃ x s changes p, History x s changes ∧ x.plan = some p ∧
    (∀ change ∈ changes, change.Plain) ∧ (p.grantedSum : Int) ≤ int64Max ∧
      p.spentSum s < p.grantedSum ∧ ∃ t, x.readyAt = some t ∧ t < p.finish := by
  have h := (History.registered (twoHours [⟨1, 2⟩] [] (hour 0)) none none (hour 0) .empty).acted
    .spend
  refine ⟨_, _, _, ⟨"first", hour 0, hour 1, hour 0, [⟨1, 2, ⟨0⟩⟩]⟩, h, by decide +kernel,
    by decide +kernel, by decide, by decide +kernel, ?_⟩
  exact (ready_before_finish_iff h (by decide +kernel)).2 (by decide +kernel) (by decide)
    (by decide +kernel)

end History

end DealPacing
