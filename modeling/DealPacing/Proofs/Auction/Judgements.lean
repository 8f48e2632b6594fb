import DealPacing.Proofs.Auction.Candidates

/-!
# What judging the candidates yields

Each candidate leaves entries in the log that depend on itself only, and the candidates that compete
and pass every gate become ready in the order of the candidates. So the log does not tell in which
order the candidates were judged.

## Main definitions

* `LineItem.domainMatches`: the domain matches that a candidate leaves
* `readyAmong`: the candidates that become ready
* `judgeAll`: all candidates judged, one after the other
* `Registry.readyFor`, `Registry.judgedFor`: the same for the candidates of a matching call

## Main results

* `ready_judgeAll`, `mem_matchedDomain_judgeAll`: what becomes ready, and the domain matches
* `log_judgeAll_of_perm`: the log does not depend on the order of the candidates
* `Registry.exists_findMatching_eq`: a matching call makes the offers of what it has judged
-/

namespace DealPacing

open Targeting

/-! ## Candidates -/

namespace LineItem

section Competes

variable {ctx : AuctionContext} {imp : Impression} {bidders : IdSet} {x : LineItem}

theorem competes_iff : x.Competes ctx imp bidders ↔
    (Aliases.ofRequest ctx.request).inScope x.source bidders = true ∧
      x.targeting.any (·.holds ⟨ctx.request, imp⟩) = true := by
  rw [Option.any_eq_true]
  exact ⟨fun h => ⟨h.inScope, h.holds⟩, fun h => ⟨h.1, h.2⟩⟩

instance : Decidable (x.Competes ctx imp bidders) := decidable_of_iff _ competes_iff.symm

end Competes

instance (ctx : AuctionContext) (s : Spending) (now : Instant) (x : LineItem) (o : Outcome) :
    Decidable (x.EndsAt ctx s now o) := decidable_of_iff _ endsAt_iff.symm

/-- The domain matches that a candidate leaves in the log, whether it competes or not. -/
def domainMatches (ctx : AuctionContext) (imp : Impression) (bidders : IdSet) (x : LineItem) :
    List String :=
  if isOffered (Aliases.ofRequest ctx.request) bidders x then
    (x.targeting.map (·.domainMatches ⟨ctx.request, imp⟩)).getD []
  else []

end LineItem

/-- The candidates that compete and pass every gate. -/
def readyAmong (ctx : AuctionContext) (s : Spending) (imp : Impression) (bidders : IdSet)
    (now : Instant) (candidates : List LineItem) : List LineItem :=
  candidates.filter fun x => x.Competes ctx imp bidders ∧ x.EndsAt ctx s now .ready

/-- All candidates judged, one after the other, from the log `base` on. -/
def judgeAll (ctx : AuctionContext) (s : Spending) (imp : Impression) (bidders : IdSet)
    (now : Instant) (candidates : List LineItem) (base : AuctionLog) : Judged :=
  candidates.foldl (consider ctx s imp (Aliases.ofRequest ctx.request) bidders now) ⟨base, [], []⟩

section Judge

variable (ctx : AuctionContext) (s : Spending) (imp : Impression) (bidders : IdSet)
  (now : Instant)

theorem mem_readyAmong {candidates : List LineItem} {x : LineItem} :
    x ∈ readyAmong ctx s imp bidders now candidates ↔
      x ∈ candidates ∧ x.Competes ctx imp bidders ∧ x.EndsAt ctx s now .ready := by
  simp [readyAmong]

theorem ready_consider (j : Judged) (x : LineItem) :
    (consider ctx s imp (Aliases.ofRequest ctx.request) bidders now j x).ready =
      j.ready ++ readyAmong ctx s imp bidders now [x] := by
  by_cases hx : x.Competes ctx imp bidders
  · obtain ⟨domains, hconsider⟩ := consider_of_competes s now j hx
    rw [hconsider]
    have hpassed : gate ctx s now x = .passed ↔ x.EndsAt ctx s now .ready := by
      rw [LineItem.endsAt_iff, Gate.outcome_eq_ready]
    by_cases hready : x.EndsAt ctx s now .ready
    · simp [judgeMatching, readyAmong, hx, hready, hpassed]
    · simp [judgeMatching, readyAmong, hready, hpassed]
  · obtain ⟨domains, events, hconsider⟩ := consider_of_not_competes s now j hx
    rw [hconsider]
    simp [readyAmong, hx]

theorem mem_matchedDomain_consider (j : Judged) (x : LineItem) (id : String) :
    id ∈ (consider ctx s imp (Aliases.ofRequest ctx.request) bidders now j x).log.matchedDomain ↔
      id ∈ j.log.matchedDomain ∨ id ∈ x.domainMatches ctx imp bidders := by
  unfold consider LineItem.domainMatches
  split
  · cases htargeting : x.targeting with
    | none => simp
    | some e =>
      have hfiled := e.mem_matchedDomain_evaluate ⟨ctx.request, imp⟩ j.log id
      rcases heval : e.evaluate ⟨ctx.request, imp⟩ j.log with ⟨held, log⟩
      rw [heval] at hfiled
      simp only [heval]
      -- the gates file nothing under domain matches
      cases held with
      | false => exact hfiled
      | true =>
        have hgate : (judgeMatching ctx s now x { j with log }).log.matchedDomain =
            log.matchedDomain := by
          unfold judgeMatching
          cases gate ctx s now x <;> rfl
        simp only [hgate]
        exact hfiled
  · simp

variable (candidates : List LineItem) (base : AuctionLog)

/-- What becomes ready is what competes and passes every gate, in the order of the candidates. -/
theorem ready_judgeAll : (judgeAll ctx s imp bidders now candidates base).ready =
    readyAmong ctx s imp bidders now candidates := by
  refine foldl_of_prefix
    (I := fun done (j : Judged) => j.ready = readyAmong ctx s imp bidders now done) rfl
    fun done x j _ h => ?_
  rw [ready_consider, h, readyAmong, readyAmong, readyAmong, List.filter_append]

theorem mem_matchedDomain_judgeAll (id : String) :
    id ∈ (judgeAll ctx s imp bidders now candidates base).log.matchedDomain ↔
      id ∈ base.matchedDomain ∨ ∃ x ∈ candidates, id ∈ x.domainMatches ctx imp bidders := by
  refine foldl_of_prefix (I := fun done (j : Judged) => id ∈ j.log.matchedDomain ↔
      id ∈ base.matchedDomain ∨ ∃ x : LineItem, x ∈ done ∧ id ∈ x.domainMatches ctx imp bidders)
    (by simp) fun done x j _ h => ?_
  rw [mem_matchedDomain_consider, h, exists_mem_concat, or_assoc]

theorem judging_judgeAll : Judging ctx s imp bidders now base candidates
    (judgeAll ctx s imp bidders now candidates base) :=
  judging_foldl ctx s imp bidders now candidates base []

end Judge

/-! ## The order of the candidates -/

section Order

variable {ctx : AuctionContext} {s : Spending} {imp : Impression} {bidders : IdSet} {now : Instant}
  {base : AuctionLog} {done done' : List LineItem} {j j' : Judged}

/-- A log is determined by the entries of the line items that have been judged. -/
theorem Judging.log_eq (h : Judging ctx s imp bidders now base done j)
    (h' : Judging ctx s imp bidders now base done' j') (hdone : ∀ x, x ∈ done ↔ x ∈ done')
    (hdomain : j.log.matchedDomain = j'.log.matchedDomain) : j.log = j'.log := by
  have hmatched : j.log.matchedWhole = j'.log.matchedWhole := by
    apply Std.ExtTreeSet.ext_mem
    intro id
    simp only [h.matched, h'.matched, hdone]
  have hended : ∀ o, j.log.ended o = j'.log.ended o := by
    intro o
    apply Std.ExtTreeSet.ext_mem
    intro id
    simp only [h.ended, h'.ended, hdone]
  have hfailed := hended .lookupFailed
  have hcapped := hended .capped
  have hdeferred := hended .deferred
  have hready := hended .ready
  -- the other headings are those of the log from which both went on
  obtain ⟨_, _, _, _, _, _, hlog⟩ := h.others
  obtain ⟨_, _, _, _, _, _, hlog'⟩ := h'.others
  simp only [AuctionLog.ended] at hfailed hcapped hdeferred hready
  clear h h' hended
  generalize j.log = log at *
  generalize j'.log = log' at *
  subst hlog hlog'
  dsimp only at *
  rw [hdomain, hmatched, hfailed, hcapped, hdeferred, hready]

theorem readyAmong_perm (hperm : done.Perm done') :
    (readyAmong ctx s imp bidders now done).Perm (readyAmong ctx s imp bidders now done') :=
  hperm.filter _

/-- **The log does not tell in which order the candidates were judged**. -/
theorem log_judgeAll_of_perm (hperm : done.Perm done') :
    (judgeAll ctx s imp bidders now done base).log =
      (judgeAll ctx s imp bidders now done' base).log := by
  apply (judging_judgeAll ctx s imp bidders now done base).log_eq
    (judging_judgeAll ctx s imp bidders now done' base) fun _ => hperm.mem_iff
  apply Std.ExtTreeSet.ext_mem
  intro id
  simp only [mem_matchedDomain_judgeAll, hperm.mem_iff]

end Order

/-! ## Matching calls -/

theorem matchLineItems_eq (settings : MatchSettings) (s : Spending) (candidates : List LineItem)
    (ctx : AuctionContext) (imp : Impression) (bidder : Option String) (now : Instant) :
    let bidders := offeredBidders settings ctx.request imp bidder
    let judged := judgeAll ctx s imp bidders now candidates ctx.log
    matchLineItems settings s candidates ctx imp bidder now =
      offers settings s imp (readyAmong ctx s imp bidders now candidates)
        ⟨[], judged.log, judged.events⟩ := by
  intro bidders judged
  rw [← ready_judgeAll ctx s imp bidders now candidates ctx.log]
  cases bidder <;> rfl

namespace Registry

variable (settings : MatchSettings) (s : Spending) (r : Registry) (ctx : AuctionContext)
  (imp : Impression) (bidder : Option String) (now : Instant)

/-- The line items that are ready for a matching call. -/
def readyFor : List LineItem :=
  readyAmong ctx s imp (offeredBidders settings ctx.request imp bidder) now (r.candidates ctx)

/-- The candidates of a matching call, judged. -/
def judgedFor : Judged :=
  judgeAll ctx s imp (offeredBidders settings ctx.request imp bidder) now (r.candidates ctx) ctx.log

theorem mem_readyFor {x : LineItem} : x ∈ r.readyFor settings s ctx imp bidder now ↔
    x ∈ r.candidates ctx ∧
      x.Competes ctx imp (offeredBidders settings ctx.request imp bidder) ∧
      x.EndsAt ctx s now .ready :=
  mem_readyAmong _ _ _ _ _

theorem judging_judgedFor :
    Judging ctx s imp (offeredBidders settings ctx.request imp bidder) now ctx.log
      (r.candidates ctx) (r.judgedFor settings s ctx imp bidder now) :=
  judging_judgeAll _ _ _ _ _ _ _

/-- **A matching call makes the offers of what it has judged**. -/
theorem exists_findMatching_eq :
    let judged := r.judgedFor settings s ctx imp bidder now
    ∃ events, r.findMatching settings s ctx imp bidder now =
      { offers settings s imp (r.readyFor settings s ctx imp bidder now)
          ⟨[], judged.log, judged.events⟩ with events } := by
  unfold findMatching readyFor judgedFor candidates
  by_cases haccount : (Text.trim ctx.accountId).isEmpty = true
  · rw [if_pos haccount, if_pos haccount]
    exact ⟨[], rfl⟩
  rw [if_neg haccount, if_neg haccount]
  generalize r.toList.filter (·.accountId == Text.trim ctx.accountId) = candidates
  by_cases hempty : candidates.isEmpty = true
  · rw [if_pos hempty, List.isEmpty_iff.mp hempty]
    exact ⟨_, rfl⟩
  · rw [if_neg hempty, matchLineItems_eq]
    exact ⟨_, rfl⟩

end Registry

end DealPacing
