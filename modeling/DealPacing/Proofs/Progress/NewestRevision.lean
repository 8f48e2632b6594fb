import DealPacing.Proofs.Delivery.Histories
import DealPacing.Proofs.Progress.Copies
import Mathlib.Data.Int.ConditionallyCompleteOrder
import Mathlib.Data.List.MinMax
import Mathlib.Order.ConditionallyCompleteLattice.Basic

/-!
# Stale revisions roll nothing back

The planner sends revisions of a plan in any order, and some of them again. A line item takes a
revision by comparing a schedule with its active plan, a status by comparing a plan with the copy it
keeps. Both rules let a revision in only if it was updated later than the one in place, and what is
in place then is, but for the spend, the revision that was let in. So both places keep a running
maximum: the first revision of those that were updated last.

## Main definitions

* `Plan.schedule`: what a plan shows besides its spend
* `Turn`: what happens to a line item and to a status of it
* `Turn.taken?`, `Turn.kept?`: the revision that a turn brings to either place

## Main results

* `Plan.schedule_withUpdatedSchedule`, `Plan.schedule_withScheduleOf`: a revision that is let in
  shows nothing of the plan before
* `Turn.schedule?_item`, `Turn.schedule?_status`: one turn compares with what is in place
* `Turn.schedule?_run`: both places keep the first revision of those that were updated last
-/

namespace DealPacing

/-- The schedule as a plan lists it: lower classes first. -/
def Schedule.inClassOrder (x : Schedule) : Schedule :=
  { x with tokens := Plan.inClassOrder x.tokens }

/-- The class and the total of a token. -/
def Token.allotment (t : Token) : Allotment := ⟨t.priorityClass, t.total⟩

namespace Plan

/-- What a plan shows besides its spend: its window, when it was updated, its classes and their
totals. -/
def schedule (p : Plan) : Schedule :=
  ⟨p.id, p.start, p.finish, p.updated, p.tokens.map Token.allotment⟩

/-- Tokens made of balances have their classes and totals. -/
theorem map_allotment_ofBalances (bs : List Balance) (s : Spending) :
    ((Token.ofBalances bs).run s).1.map Token.allotment =
      bs.map fun b => ⟨b.priorityClass, b.total⟩ := by
  have h := congrArg (List.map fun b : Balance => (⟨b.priorityClass, b.total⟩ : Allotment))
    (map_balance_ofBalances bs s)
  rw [List.map_map] at h
  exact h

theorem schedule_ofSchedule (x : Schedule) (s : Spending) :
    ((ofSchedule x).run s).1.schedule = x.inClassOrder := by
  have htokens : ((ofSchedule x).run s).1.tokens.map Token.allotment = inClassOrder x.tokens := by
    refine (map_allotment_ofBalances _ s).trans ?_
    rw [List.map_map]
    exact List.map_id _
  rw [schedule, htokens]
  rfl

theorem schedule_withoutSpent (p : Plan) (s : Spending) :
    (p.withoutSpent.run s).1.schedule = p.schedule := by
  have htokens : (p.withoutSpent.run s).1.tokens.map Token.allotment =
      p.tokens.map Token.allotment := by
    refine (map_allotment_ofBalances _ s).trans ?_
    rw [List.map_map]
    rfl
  rw [schedule, htokens]
  rfl

/-- Tokens that continue a plan have the classes and totals of the given ones, whichever counters
they keep. -/
theorem map_allotment_continued (p : Plan) (ts : List Token) (s : Spending) :
    ((p.continued ts).run s).1.map Token.allotment = ts.map Token.allotment := by
  induction ts generalizing s with
  | nil => rfl
  | cons t ts ih =>
    cases h : p.token? t.priorityClass with
    | some u =>
      have hu : (u.revised t.total).allotment = t.allotment := by
        rw [Token.allotment, Token.revised, (mem_of_token? h).2]
        rfl
      rw [run_continued_of_some h, List.map_cons, ih, hu, List.map_cons]
    | none =>
      rw [run_continued_of_none h, List.map_cons, ih, List.map_cons]
      rfl

theorem schedule_withScheduleOf (p newer : Plan) (s : Spending) :
    ((p.withScheduleOf newer).run s).1.schedule = newer.schedule := by
  have htokens : ((p.withScheduleOf newer).run s).1.tokens.map Token.allotment =
      newer.tokens.map Token.allotment := map_allotment_continued p newer.tokens s
  rw [schedule, htokens]
  rfl

theorem schedule_withUpdatedSchedule (p : Plan) (x : Schedule) (s : Spending) :
    ((p.withUpdatedSchedule x).run s).1.schedule = x.inClassOrder := by
  rw [run_withUpdatedSchedule, schedule_withScheduleOf, schedule_ofSchedule]

end Plan

/-- The plan with an id as a line item shows it, if that is its active plan. -/
def LineItem.schedule? (x : LineItem) (planId : String) : Option Schedule :=
  (x.plan.map Plan.schedule).filter (·.planId == planId)

/-- The plan with an id as a status shows it. -/
def Status.schedule? (st : Status) (planId : String) : Option Schedule :=
  (st.plan? planId).map Plan.schedule

/-- The revision in place after another one arrived: the later one of the two, and the one in place
if they were updated at the same time. -/
def Schedule.later (current? : Option Schedule) (arrived : Schedule) : Option Schedule :=
  match current? with
  | none => some arrived
  | some current => if current.updated < arrived.updated then some arrived else some current

/-- The first of the schedules that were updated last is found by taking the later one of the first
among the others and the last one. -/
theorem argmax_updated_concat (l : List Schedule) (x : Schedule) :
    (l ++ [x]).argmax (·.updated.rank) = Schedule.later (l.argmax (·.updated.rank)) x := by
  rw [List.argmax_concat]
  cases l.argmax (·.updated.rank) <;> rfl

/-! ## One turn -/

/-- What happens to a line item and to a status of it. -/
inductive Turn where
  /-- The line item takes a new record. -/
  | refresh (record : LineItemRecord) (cpm : Option Float)
    (targeting : Option Targeting.Expression) (now : Instant)
  /-- The status keeps a plan. -/
  | keep (p : Plan)
  /-- A serve of the line item is taken. -/
  | serve
  /-- A serve of a plan is counted in the status. -/
  | count (planId : String) (priorityClass : Int)
  /-- A serve is counted in a counter by something else that holds it. -/
  | elsewhere (k : Counter)

namespace Turn

/-- The line item and the status after a turn. -/
def run (both : LineItem × Status) : Turn → StateM Spending (LineItem × Status)
  | refresh record cpm targeting now => do
    return (← both.1.refreshed record cpm targeting now, both.2)
  | keep p => do return (both.1, ← both.2.mergePlan p)
  | serve => do return ((← both.1.spend).1, both.2)
  | count planId priorityClass => do
    let _ ← both.2.recordSpent planId priorityClass
    return both
  | elsewhere k => do
    Spending.add k 1
    return both

/-- The revision that a turn brings to the line item. -/
def taken? : Turn → Option Schedule
  | refresh record _ _ now => (record.scheduleAt? now).map Schedule.inClassOrder
  | _ => none

/-- The revision of a plan that a turn brings to the status. -/
def kept? (planId : String) : Turn → Option Schedule
  | keep p => if p.id = planId then some p.schedule else none
  | _ => none

/-- The revision in place at the start, if any, and those that turns brought. -/
def brought (start? : Option Schedule) (bring? : Turn → Option Schedule) (turns : List Turn) :
    List Schedule := start?.toList ++ turns.filterMap bring?

theorem brought_concat (start? : Option Schedule) (bring? : Turn → Option Schedule)
    (turns : List Turn) (turn : Turn) :
    brought start? bring? (turns ++ [turn]) =
      brought start? bring? turns ++ (bring? turn).toList := by
  rw [brought, brought, List.filterMap_append, List.append_assoc]
  rcases h : bring? turn with _ | x <;> simp [h]

/-- A record that a turn brings has a revision of the plan that covers the instant. -/
def Revises (planId : String) : Turn → Prop
  | refresh record _ _ now => ∃ y, record.scheduleAt? now = some y ∧ y.planId = planId
  | _ => True

variable {planId : String} {x : LineItem} {s : Spending}

/-- A record leaves the later one of the revision in place and its own. -/
theorem schedule?_refreshed {record : LineItemRecord} {now : Instant} {y : Schedule}
    (hy : record.scheduleAt? now = some y) (hid : y.planId = planId) (cpm : Option Float)
    (targeting : Option Targeting.Expression) :
    ((x.refreshed record cpm targeting now).run s).1.schedule? planId =
      Schedule.later (x.schedule? planId) y.inClassOrder := by
  have hchange := x.changes_refreshed record cpm targeting now s
  change (((x.refreshed record cpm targeting now).run s).1.pacing.plan.map Plan.schedule).filter
    (·.planId == planId) = Schedule.later ((x.plan.map Plan.schedule).filter _) _
  -- of the line item that comes out only the change of its pacing state matters: it starts the
  -- plan, takes the revision, or leaves everything as it is
  revert hchange
  generalize ((x.refreshed record cpm targeting now).run s).1.pacing = b'
  generalize ((x.refreshed record cpm targeting now).run s).2 = s'
  have hown : ((some y.inClassOrder).filter (·.planId == planId)) = some y.inClassOrder := by
    simp [Schedule.inClassOrder, hid]
  unfold LineItem.refreshChange
  rw [hy]
  rcases hp : x.plan with _ | p
  · intro hchange
    cases hchange
    rw [Option.map_some, Plan.schedule_ofSchedule, hown]
    rfl
  · by_cases hsame : p.id = y.planId
    · have hplace : ((some p.schedule).filter (·.planId == planId)) = some p.schedule := by
        simp [Plan.schedule, hsame, hid]
      rw [Option.map_some, hplace, Schedule.later]
      by_cases hnewer : p.updated < y.updated
      · simp only [if_pos hsame, if_pos hnewer]
        intro hchange
        cases hchange
        rw [Option.map_some, Plan.schedule_withUpdatedSchedule, hown]
        exact (if_pos hnewer).symm
      · simp only [if_pos hsame, if_neg hnewer]
        intro hchange
        cases hchange
        change ((x.plan.map Plan.schedule).filter _) = _
        rw [hp, Option.map_some, hplace]
        exact (if_neg hnewer).symm
    · simp only [if_neg hsame]
      intro hchange
      cases hchange
      have hother : ((some p.schedule).filter (·.planId == planId)) = none := by
        simp [Plan.schedule, ← hid, hsame]
      rw [Option.map_some, Plan.schedule_ofSchedule, hown, Option.map_some, hother]
      rfl

/-- To take a serve leaves the revision in place. -/
theorem schedule?_spend : (x.spend.run s).1.1.schedule? planId = x.schedule? planId := by
  have hplan : (x.spend.run s).1.1.plan = x.plan := by
    rcases hp : x.plan with _ | p
    · rw [LineItem.run_spend_of_none hp, hp]
    · rw [LineItem.run_spend_of_some hp]
      rcases p.unspentToken? s with _ | t
      · exact hp
      · exact hp
  rw [LineItem.schedule?, hplan]
  rfl

/-- Tracking a plan leaves the later one of the copy in place and the plan. -/
theorem schedule_tracked {p : Plan} {q? : Option Plan} (hq : ∀ q ∈ q?, q.id = p.id) :
    some ((Status.tracked p q?).run s).1.schedule =
      Schedule.later (q?.map Plan.schedule) p.schedule := by
  rcases q? with _ | q
  · exact congrArg some (Plan.schedule_withoutSpent p s)
  · have hnewer : q.isSupersededBy p ↔ q.updated < p.updated := by
      simp [Plan.isSupersededBy, hq q rfl]
    rw [Option.map_some, Schedule.later, Status.tracked]
    by_cases hlt : q.updated < p.updated
    · rw [if_pos (hnewer.mpr hlt), Plan.schedule_withScheduleOf]
      exact (if_pos hlt).symm
    · rw [if_neg (mt hnewer.mp hlt)]
      exact (if_neg hlt).symm

/-- A plan leaves the later one of the copy in place and itself, and touches no other copies. -/
theorem schedule?_mergePlan (st : Status) (p : Plan) :
    ((st.mergePlan p).run s).1.schedule? planId =
      if p.id = planId then Schedule.later (st.schedule? planId) p.schedule
      else st.schedule? planId := by
  have hkept : ∀ q ∈ st.plan? p.id, q.id = p.id := fun q hq => by simpa using List.find?_some hq
  have hfind (q : Plan) (hq : q.id = p.id) :
      ({ st with plans := Status.upsert p.id q st.plans } : Status).plan? planId =
        if planId = p.id then some q else st.plan? planId := Status.find?_upsert hq planId
  rw [Status.run_mergePlan, Status.schedule?, Status.schedule?, hfind _ (Status.id_tracked hkept)]
  by_cases h : p.id = planId
  · subst h
    rw [if_pos rfl, if_pos rfl, Option.map_some]
    exact schedule_tracked hkept
  · rw [if_neg (Ne.symm h), if_neg h]

variable {both : LineItem × Status} {revisions : List Schedule}

/-- A turn keeps what is in place in the line item the first of the revisions that were updated
last. -/
theorem schedule?_item {turn : Turn} (hturn : turn.Revises planId)
    (h : both.1.schedule? planId = revisions.argmax (·.updated.rank)) (s : Spending) :
    ((turn.run both).run s).1.1.schedule? planId =
      (revisions ++ turn.taken?.toList).argmax (·.updated.rank) := by
  cases turn with
  | refresh record cpm targeting now =>
    obtain ⟨y, hy, hid⟩ := hturn
    have htaken : (refresh record cpm targeting now).taken? = some y.inClassOrder := by
      rw [taken?, hy, Option.map_some]
    rw [htaken, Option.toList_some, argmax_updated_concat, ← h]
    exact schedule?_refreshed hy hid cpm targeting
  | serve =>
    change _ = (revisions ++ []).argmax _
    rw [List.append_nil, ← h]
    exact schedule?_spend
  | keep | count | elsewhere =>
    change _ = (revisions ++ []).argmax _
    rw [List.append_nil, ← h]
    rfl

/-- A turn keeps what is in place in the status the first of the revisions that were updated
last. -/
theorem schedule?_status (turn : Turn)
    (h : both.2.schedule? planId = revisions.argmax (·.updated.rank)) (s : Spending) :
    ((turn.run both).run s).1.2.schedule? planId =
      (revisions ++ (turn.kept? planId).toList).argmax (·.updated.rank) := by
  cases turn with
  | keep p =>
    refine (schedule?_mergePlan both.2 p).trans ?_
    by_cases hid : p.id = planId
    · rw [if_pos hid, kept?, if_pos hid, Option.toList_some, argmax_updated_concat, ← h]
    · rw [if_neg hid, kept?, if_neg hid, Option.toList_none, List.append_nil, ← h]
  | refresh | serve | count | elsewhere =>
    change _ = (revisions ++ []).argmax _
    rw [List.append_nil, ← h]
    rfl

/-! ## All turns -/

/-- **Stale revisions never roll a plan back.** Revisions of a plan reach a line item and a status
of it in any order and any number of times, with serves in between, whether taken of the line item,
counted in the status, or counted by others that hold the counters. In the end the window, the time
of the update, the classes and their totals are, in either place, those of the first revision of
the ones that were updated last, where the one in place at the start came first. So the places
agree if they were brought the same revisions. -/
theorem schedule?_run (planId : String) (both : LineItem × Status) (turns : List Turn)
    (hturns : ∀ turn ∈ turns, turn.Revises planId) (s : Spending) :
    let out := ((turns.foldlM run both).run s).1
    let taken := brought (both.1.schedule? planId) taken? turns
    let kept := brought (both.2.schedule? planId) (kept? planId) turns
    out.1.schedule? planId = taken.argmax (·.updated.rank) ∧
      out.2.schedule? planId = kept.argmax (·.updated.rank) ∧
      (taken = kept → out.1.schedule? planId = out.2.schedule? planId) := by
  intro out taken kept
  have hstart (start? : Option Schedule) (bring? : Turn → Option Schedule) :
      start? = (brought start? bring? []).argmax (·.updated.rank) := by
    cases start? <;> rfl
  have hplaces : out.1.schedule? planId = taken.argmax (·.updated.rank) ∧
      out.2.schedule? planId = kept.argmax (·.updated.rank) := by
    refine run_foldlM_of_prefix (I := fun done (now : LineItem × Status) _ =>
      now.1.schedule? planId = (brought (both.1.schedule? planId) taken? done).argmax _ ∧
      now.2.schedule? planId = (brought (both.2.schedule? planId) (kept? planId) done).argmax _)
      ⟨hstart _ _, hstart _ _⟩ fun done turn now s hdone ih => ?_
    have hturn := hturns turn (hdone.subset (by simp))
    rw [brought_concat, brought_concat]
    exact ⟨schedule?_item hturn ih.1 s, schedule?_status turn ih.2 s⟩
  exact ⟨hplaces.1, hplaces.2, fun h => by rw [hplaces.1, hplaces.2, h]⟩

/-- Revisions that were updated at 0, 2, 1 and again 2 o'clock reach a new line item and its status,
with serves in between: the second of them is in place. -/
theorem schedule?_run_twoHours : ∃ (both : LineItem × Status) (turns : List Turn),
    (∀ turn ∈ turns, turn.Revises "first") ∧
      let out := ((turns.foldlM run both).run {}).1
      let newest : Schedule := ⟨"first", hour 0, hour 1, hour 2, [⟨1, 4⟩, ⟨2, 3⟩]⟩
      out.1.schedule? "first" = some newest ∧ out.2.schedule? "first" = some newest := by
  let revision (tokens : List Allotment) (updated : Instant) : Turn :=
    .refresh (twoHours tokens [] updated) none none (hour 0)
  let copied (tokens : List Token) (updated : Instant) : Turn :=
    .keep ⟨"first", hour 0, hour 1, updated, tokens⟩
  let turns : List Turn := [
    revision [⟨1, 5⟩] (hour 0), copied [⟨1, 5, ⟨0⟩⟩] (hour 0), .serve, .count "first" 1,
    revision [⟨2, 3⟩, ⟨1, 4⟩] (hour 2), copied [⟨1, 4, ⟨0⟩⟩, ⟨2, 3, ⟨1⟩⟩] (hour 2), .elsewhere ⟨0⟩,
    revision [⟨1, 9⟩] (hour 1), copied [⟨1, 9, ⟨0⟩⟩] (hour 1), .serve,
    revision [⟨1, 7⟩] (hour 2), copied [⟨1, 7, ⟨0⟩⟩] (hour 2)]
  have hturns : ∀ turn ∈ turns, turn.Revises "first" := by
    have hcovers (tokens : List Allotment) (updated : Instant) :
        (revision tokens updated).Revises "first" := ⟨_, rfl, rfl⟩
    simp only [turns, List.forall_mem_cons, List.not_mem_nil, false_implies, implies_true, and_true]
    exact ⟨hcovers _ _, trivial, trivial, trivial, hcovers _ _, trivial, trivial, hcovers _ _,
      trivial, trivial, hcovers _ _, trivial⟩
  let both : LineItem × Status :=
    (⟨twoHours [] [] (hour 0), none, none, none, none⟩, .new "lineItem")
  obtain ⟨hitem, hstatus, -⟩ := schedule?_run "first" both turns hturns {}
  refine ⟨both, turns, hturns, hitem.trans ?_, hstatus.trans (by decide +kernel)⟩
  have hsorted : Plan.inClassOrder [⟨2, 3⟩, ⟨1, 4⟩] = [⟨1, 4⟩, ⟨2, 3⟩] := by
    simp [Plan.inClassOrder, List.mergeSort]
  rw [← hsorted]
  rfl

end Turn

end DealPacing
