import DealPacing.Proofs.Auction.Offers
import DealPacing.Proofs.Registry.Keys
import DealPacing.Proofs.Targeting.Evaluation

/-!
# Where candidates end

A candidate competes when its source is in scope and its targeting holds. A competing candidate ends
at the first gate that it fails, or ready to serve, and the auction log has a heading for each end.
Judging the candidates one after the other files each of them under one heading.

## Main definitions

* `Outcome`: the ends of competing candidates
* `AuctionLog.ended`: the heading of an outcome
* `LineItem.Competes`, `LineItem.EndsAt`: what makes a candidate compete, and where it ends
* `Judging`: what holds while the candidates are gone through
* `Registry.candidates`: the line items of the auction's account

## Main results

* `LineItem.endsAt_iff`: a line item ends where its gate says
* `Judging.consider`, `judging_foldl`: one candidate, and all candidates
* `Registry.exists_matching`: a matching call judges the candidates and makes the offers
-/

namespace DealPacing

open Targeting

/-! ## Outcomes -/

/-- The ends of competing candidates. -/
inductive Outcome where
  | lookupFailed
  | capped
  | deferred
  | ready
deriving DecidableEq, Repr

/-- What a gate makes of a candidate. -/
def Gate.outcome : Gate → Outcome
  | .lookupFailed => .lookupFailed
  | .capped _ => .capped
  | .exhausted | .notReady => .deferred
  | .passed => .ready

theorem Gate.outcome_eq_ready {g : Gate} : g.outcome = .ready ↔ g = .passed := by
  cases g <;> simp [Gate.outcome]

namespace AuctionLog

/-- The heading of an outcome. -/
def ended (log : AuctionLog) : Outcome → IdSet
  | .lookupFailed => log.fcapLookupFailed
  | .capped => log.fcapped
  | .deferred => log.pacingDeferred
  | .ready => log.readyToServe

theorem mem_ended_recordGate {log : AuctionLog} {g : Gate} {i id : String} {o : Outcome} :
    id ∈ (log.recordGate i g).ended o ↔ id ∈ log.ended o ∨ g.outcome = o ∧ i = id := by
  cases g <;> cases o <;> simp [recordGate, ended, Gate.outcome, or_comm]

theorem matchedWhole_recordGate (log : AuctionLog) (i : String) (g : Gate) :
    (log.recordGate i g).matchedWhole = log.matchedWhole := by
  cases g <;> rfl

end AuctionLog

namespace LineItem

section Ends

variable (ctx : AuctionContext) (s : Spending) (now : Instant) (x : LineItem)

/-- The line item has frequency caps, and what the user has reached is not known. -/
def LookupFails : Prop := x.record.fcapIds ≠ [] ∧ ctx.fcapIds = none

/-- The user is known to have reached a frequency cap of the line item. -/
def IsCapped : Prop :=
  ∃ reached, ctx.fcapIds = some reached ∧ ∃ cap ∈ x.record.fcapIds, cap ∈ reached

/-- The line item has a plan without a serve left. -/
def IsExhausted : Prop := ∃ p, x.plan = some p ∧ ∀ t ∈ p.tokens, t.total ≤ t.spent s

/-- The next serve of the line item is never due, or due later. -/
def IsAhead : Prop := ∀ t, x.readyAt = some t → now < t

/-- Pacing counts and holds the line item back. -/
def IsHeldBack : Prop := ctx.ignorePacing = false ∧ (x.IsExhausted s ∨ x.IsAhead now)

/-- Where a competing line item ends. -/
def EndsAt : Outcome → Prop
  | .lookupFailed => x.LookupFails ctx
  | .capped => x.IsCapped ctx
  | .deferred => ¬ x.LookupFails ctx ∧ ¬ x.IsCapped ctx ∧ x.IsHeldBack ctx s now
  | .ready => ¬ x.LookupFails ctx ∧ ¬ x.IsCapped ctx ∧ ¬ x.IsHeldBack ctx s now

end Ends

variable {ctx : AuctionContext} {s : Spending} {now : Instant} {x : LineItem}

theorem hasUnspentTokens_eq_false : x.hasUnspentTokens s = false ↔ x.IsExhausted s := by
  unfold hasUnspentTokens IsExhausted
  cases x.plan <;> simp [Plan.highestUnspentClass, Plan.unspentToken?]

theorem isReadyAt_eq_false : x.isReadyAt now = false ↔ x.IsAhead now := by
  unfold isReadyAt IsAhead
  cases x.readyAt <;> simp [Instant.le_iff, Instant.lt_iff]

theorem outcome_pacingGate (s : Spending) (now : Instant) (x : LineItem) :
    (x.IsExhausted s ∨ x.IsAhead now) ∧ (pacingGate s now x).outcome = .deferred ∨
      ¬ (x.IsExhausted s ∨ x.IsAhead now) ∧ (pacingGate s now x).outcome = .ready := by
  rw [← hasUnspentTokens_eq_false, ← isReadyAt_eq_false, pacingGate]
  cases x.hasUnspentTokens s <;> cases x.isReadyAt now <;> simp [Gate.outcome]

theorem LookupFails.not_isCapped (h : x.LookupFails ctx) : ¬ x.IsCapped ctx := by
  rintro ⟨reached, hreached, -⟩
  rw [h.2] at hreached
  cases hreached

/-- A line item ends at one place only. -/
theorem EndsAt.unique {o o' : Outcome} (h : x.EndsAt ctx s now o) (h' : x.EndsAt ctx s now o') :
    o = o' := by
  -- the other ends exclude each other by what they say about caps and pacing
  have hcaps := fun hfail : x.LookupFails ctx => hfail.not_isCapped
  cases o <;> cases o' <;> simp only [EndsAt] at h h' <;> tauto

/-- Past the frequency caps, pacing decides unless it is ignored. -/
theorem gate_of_passes_caps (hfail : ¬ x.LookupFails ctx) (hcap : ¬ x.IsCapped ctx) :
    gate ctx s now x = if ctx.ignorePacing then .passed else pacingGate s now x := by
  unfold gate
  by_cases hnone : x.record.fcapIds = []
  · simp [hnone]
  cases hreached : ctx.fcapIds with
  | none => exact absurd ⟨hnone, hreached⟩ hfail
  | some reached =>
    -- the search for a cap that is reached goes through all caps
    have hfind : x.record.fcapIds.find? reached.contains = none := by
      rw [List.find?_eq_none]
      intro cap hmem hcontains
      exact hcap ⟨reached, hreached, cap, hmem, by simpa using hcontains⟩
    simp only [List.isEmpty_iff, hnone, if_false, hfind]

theorem gate_of_lookupFails (h : x.LookupFails ctx) : gate ctx s now x = .lookupFailed := by
  simp [gate, h.1, h.2]

theorem outcome_gate_of_isCapped (h : x.IsCapped ctx) :
    (gate ctx s now x).outcome = .capped := by
  obtain ⟨reached, hreached, cap, hmem, hcap⟩ := h
  obtain ⟨first, hfirst⟩ : ∃ first, x.record.fcapIds.find? reached.contains = some first := by
    rw [← Option.isSome_iff_exists, List.find?_isSome]
    exact ⟨cap, hmem, by simpa using hcap⟩
  have hcaps : x.record.fcapIds ≠ [] := List.ne_nil_of_mem hmem
  simp only [gate, List.isEmpty_iff, hcaps, if_false, hreached, hfirst, Gate.outcome]

/-- Every line item ends where its gate says. -/
theorem endsAt_outcome_gate (ctx : AuctionContext) (s : Spending) (now : Instant) (x : LineItem) :
    x.EndsAt ctx s now (gate ctx s now x).outcome := by
  by_cases hfail : x.LookupFails ctx
  · rw [gate_of_lookupFails hfail]
    exact hfail
  by_cases hcap : x.IsCapped ctx
  · rw [outcome_gate_of_isCapped hcap]
    exact hcap
  rw [gate_of_passes_caps hfail hcap]
  cases hpacing : ctx.ignorePacing with
  | true =>
    have hpasses : ¬ x.IsHeldBack ctx s now := by simp [IsHeldBack, hpacing]
    exact ⟨hfail, hcap, hpasses⟩
  | false =>
    simp only [Bool.false_eq_true, if_false]
    rcases outcome_pacingGate s now x with ⟨hheld, hout⟩ | ⟨hfree, hout⟩
    · rw [hout]
      exact ⟨hfail, hcap, hpacing, hheld⟩
    · rw [hout]
      exact ⟨hfail, hcap, fun hheld => hfree hheld.2⟩

theorem endsAt_iff {o : Outcome} :
    x.EndsAt ctx s now o ↔ (gate ctx s now x).outcome = o :=
  ⟨(endsAt_outcome_gate ctx s now x).unique, fun h => h ▸ endsAt_outcome_gate ctx s now x⟩

/-- The line item can be offered to one of the bidders, and its targeting holds. -/
structure Competes (ctx : AuctionContext) (imp : Impression) (bidders : IdSet) (x : LineItem) :
    Prop where
  inScope : (Aliases.ofRequest ctx.request).inScope x.source bidders = true
  holds : ∃ e, x.targeting = some e ∧ e.holds ⟨ctx.request, imp⟩ = true

/-- A line item without a plan that wants every impression. -/
def eager (record : LineItemRecord) (readyAt : Option Instant) : LineItem :=
  ⟨record, none, some (.and []), none, readyAt⟩

theorem competes_eager {record : LineItemRecord} {readyAt : Option Instant} {imp : Impression}
    {bidders : IdSet} : (eager record readyAt).Competes ctx imp bidders ↔
      (Aliases.ofRequest ctx.request).inScope record.source bidders = true :=
  ⟨fun h => h.inScope, fun h => ⟨h, .and [], rfl, rfl⟩⟩

end LineItem

/-! ## One candidate after the other -/

section Consider

variable {ctx : AuctionContext} {imp : Impression} {bidders : IdSet} {x : LineItem}
  (s : Spending) (now : Instant) (j : Judged)

theorem consider_of_competes (h : x.Competes ctx imp bidders) : ∃ domains,
    consider ctx s imp (Aliases.ofRequest ctx.request) bidders now j x =
      judgeMatching ctx s now x { j with log := { j.log with matchedDomain := domains } } := by
  obtain ⟨hscope, e, he, hholds⟩ := h
  obtain ⟨domains, heval⟩ := e.exists_evaluate ⟨ctx.request, imp⟩ j.log
  rw [hholds] at heval
  exact ⟨domains, by simp [consider, isOffered, hscope, he, heval]⟩

theorem consider_of_not_competes (h : ¬ x.Competes ctx imp bidders) : ∃ domains events,
    consider ctx s imp (Aliases.ofRequest ctx.request) bidders now j x =
      { j with log := { j.log with matchedDomain := domains }, events } := by
  unfold consider isOffered
  split
  · next hscope =>
    cases he : x.targeting with
    | none => exact ⟨_, _, rfl⟩
    | some e =>
      have hfalse : e.holds ⟨ctx.request, imp⟩ = false :=
        Bool.eq_false_iff.mpr fun hholds => h ⟨hscope, e, he, hholds⟩
      obtain ⟨domains, heval⟩ := e.exists_evaluate ⟨ctx.request, imp⟩ j.log
      rw [hfalse] at heval
      exact ⟨domains, j.events, by simp only [heval]⟩
  · exact ⟨_, _, rfl⟩

end Consider

/-- What holds when the candidates `done` have been judged, from the log `base` on. -/
structure Judging (ctx : AuctionContext) (s : Spending) (imp : Impression) (bidders : IdSet)
    (now : Instant) (base : AuctionLog) (done : List LineItem) (j : Judged) : Prop where
  /-- Every competing candidate is filed as matched. -/
  matched : ∀ id, id ∈ j.log.matchedWhole ↔
    id ∈ base.matchedWhole ∨ ∃ x ∈ done, x.Competes ctx imp bidders ∧ x.id = id
  /-- Every competing candidate is filed where it ends. -/
  ended : ∀ o id, id ∈ j.log.ended o ↔ id ∈ base.ended o ∨
    ∃ x ∈ done, (x.Competes ctx imp bidders ∧ x.EndsAt ctx s now o) ∧ x.id = id
  ready : ∀ x, x ∈ j.ready ↔ x ∈ done ∧ x.Competes ctx imp bidders ∧ x.EndsAt ctx s now .ready
  /-- Judging touches no other heading. -/
  others : ∃ domains whole failed capped deferred served, j.log = { base with
    matchedDomain := domains, matchedWhole := whole, fcapLookupFailed := failed
    fcapped := capped, pacingDeferred := deferred, readyToServe := served }

namespace Judging

variable {ctx : AuctionContext} {s : Spending} {imp : Impression} {bidders : IdSet} {now : Instant}
  {base : AuctionLog} {done : List LineItem} {j : Judged} {x : LineItem}

theorem start (ctx : AuctionContext) (s : Spending) (imp : Impression) (bidders : IdSet)
    (now : Instant) (base : AuctionLog) (events : List Event) :
    Judging ctx s imp bidders now base [] ⟨base, [], events⟩ where
  matched := by simp
  ended := by simp
  ready := by simp
  others := ⟨_, _, _, _, _, _, rfl⟩

/-- A competing candidate is filed where it ends. -/
theorem judgeMatching (h : Judging ctx s imp bidders now base done j)
    (hx : x.Competes ctx imp bidders) (domains : IdSet) :
    Judging ctx s imp bidders now base (done ++ [x])
      (judgeMatching ctx s now x { j with log := { j.log with matchedDomain := domains } }) := by
  unfold DealPacing.judgeMatching
  constructor
  case matched =>
    intro id
    rw [AuctionLog.matchedWhole_recordGate, Std.ExtTreeSet.mem_insert, h.matched,
      exists_mem_concat]
    simp only [hx, true_and, Std.LawfulEqCmp.compare_eq_iff_eq]
    rw [or_comm, or_assoc]
  case ended =>
    intro o id
    -- the headings of the outcomes do not see the other two updates
    have hlog : id ∈ ({ j.log with
        matchedDomain := domains, matchedWhole := j.log.matchedWhole.insert x.id }
        : AuctionLog).ended o ↔ id ∈ j.log.ended o := by
      cases o <;> rfl
    rw [AuctionLog.mem_ended_recordGate, hlog, h.ended, exists_mem_concat]
    simp only [hx, true_and, LineItem.endsAt_iff]
    rw [or_assoc]
  case ready =>
    intro y
    have hpassed : gate ctx s now x = .passed ↔ x.EndsAt ctx s now .ready := by
      rw [LineItem.endsAt_iff, Gate.outcome_eq_ready]
    have hready := h.ready y
    simp only [hpassed]
    split
    · rw [List.mem_append, List.mem_append, List.mem_singleton]
      grind
    · rw [List.mem_append, List.mem_singleton]
      grind
  case others =>
    obtain ⟨log, ready, events⟩ := j
    obtain ⟨_, _, _, _, _, _, hbase⟩ := h.others
    dsimp only at hbase
    subst hbase
    cases gate ctx s now x <;> exact ⟨_, _, _, _, _, _, rfl⟩

/-- A candidate that does not compete is filed nowhere. -/
theorem skip (h : Judging ctx s imp bidders now base done j)
    (hx : ¬ x.Competes ctx imp bidders) (domains : IdSet) (events : List Event) :
    Judging ctx s imp bidders now base (done ++ [x])
      { j with log := { j.log with matchedDomain := domains }, events } where
  matched id := by
    rw [exists_mem_concat]
    simp only [hx, false_and, or_false]
    exact h.matched id
  ended o id := by
    rw [exists_mem_concat]
    simp only [hx, false_and, or_false]
    have hended := h.ended o id
    cases o <;> exact hended
  ready y := by
    have hready := h.ready y
    rw [List.mem_append, List.mem_singleton]
    grind
  others := by
    obtain ⟨_, _, _, _, _, _, hbase⟩ := h.others
    exact ⟨_, _, _, _, _, _, by rw [hbase]⟩

/-- **One more candidate**. -/
theorem consider (h : Judging ctx s imp bidders now base done j) (x : LineItem) :
    Judging ctx s imp bidders now base (done ++ [x])
      (consider ctx s imp (Aliases.ofRequest ctx.request) bidders now j x) := by
  by_cases hx : x.Competes ctx imp bidders
  · obtain ⟨domains, hconsider⟩ := consider_of_competes s now j hx
    rw [hconsider]
    exact h.judgeMatching hx domains
  · obtain ⟨domains, events, hconsider⟩ := consider_of_not_competes s now j hx
    rw [hconsider]
    exact h.skip hx domains events

end Judging

/-- **All candidates**, from the log of the auction on. -/
theorem judging_foldl (ctx : AuctionContext) (s : Spending) (imp : Impression) (bidders : IdSet)
    (now : Instant) (candidates : List LineItem) (base : AuctionLog) (events : List Event) :
    Judging ctx s imp bidders now base candidates
      (candidates.foldl (consider ctx s imp (Aliases.ofRequest ctx.request) bidders now)
        ⟨base, [], events⟩) :=
  foldl_of_prefix (I := Judging ctx s imp bidders now base)
    (Judging.start ctx s imp bidders now base events) fun _ x _ _ h => h.consider x

/-! ## Matching calls -/

/-- The bidders of a matching call: the one it is made for, or all bidders of the impression. -/
def offeredBidders (settings : MatchSettings) (request : BidRequest) (imp : Impression) :
    Option String → IdSet
  | some bidder => IdSet.ofList [bidder]
  | none => imp.bidders settings.catalog (Aliases.ofRequest request)

namespace Registry

variable (settings : MatchSettings) (s : Spending) (r : Registry) (ctx : AuctionContext)
  (imp : Impression) (bidder : Option String) (now : Instant)

/-- The line items of the auction's account; an account without a name has none. -/
def candidates : List LineItem :=
  if (Text.trim ctx.accountId).isEmpty then []
  else r.toList.filter (·.accountId == Text.trim ctx.accountId)

theorem mem_candidates {x : LineItem} : x ∈ r.candidates ctx ↔
    x ∈ r.toList ∧ Text.trim ctx.accountId ≠ "" ∧ x.accountId = Text.trim ctx.accountId := by
  unfold candidates
  split
  · next h => simp [String.isEmpty_iff.mp h]
  · next h =>
    rw [String.isEmpty_iff] at h
    simp [h]

/-- **A matching call** judges the candidates and makes the offers of those that are ready. -/
theorem exists_matching : ∃ j,
    Judging ctx s imp (offeredBidders settings ctx.request imp bidder) now ctx.log
        (r.candidates ctx) j ∧
      Offering settings s j.ready j.log (sourcesOf j.ready)
        (r.findMatching settings s ctx imp bidder now) := by
  -- without candidates nothing is judged and nothing is offered
  have hnone : ∀ events, ∃ j,
      Judging ctx s imp (offeredBidders settings ctx.request imp bidder) now ctx.log [] j ∧
        Offering settings s j.ready j.log (sourcesOf j.ready) ⟨[], ctx.log, events⟩ := by
    intro events
    refine ⟨_, Judging.start _ _ _ _ _ _ [], ?_⟩
    rw [show sourcesOf [] = [] from rfl]
    exact Offering.start _ _ _ _ _
  unfold findMatching candidates
  by_cases haccount : (Text.trim ctx.accountId).isEmpty = true
  · rw [if_pos haccount, if_pos haccount]
    exact hnone _
  rw [if_neg haccount, if_neg haccount]
  generalize r.toList.filter (·.accountId == Text.trim ctx.accountId) = candidates
  by_cases hempty : candidates.isEmpty = true
  · rw [if_pos hempty, List.isEmpty_iff.mp hempty]
    exact hnone _
  · rw [if_neg hempty]
    refine ⟨_, judging_foldl ctx s imp _ now _ ctx.log [], ?_⟩
    cases bidder <;> exact offering_offers settings s imp _ _ _

end Registry

end DealPacing
