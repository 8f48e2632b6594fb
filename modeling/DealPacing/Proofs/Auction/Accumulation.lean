import DealPacing.Proofs.Auction.Repetition

/-!
# What the log of an auction keeps

A matching call takes nothing back that the log of its auction says, with one exception: the line
items that a line item lost to. A call that ranks line items ahead of it records these in place of
those recorded before. So in the end the log has the losses of the last call that had any, and they
are all losses of the auction only if that call repeats the others.

## Main definitions

* `Heading`, `GroupedHeading`: the headings of a log
* `AuctionLog.Extends`: a log that says all that another one says
* `MatchCall.ahead`, `AuctionContext.aheads`: what is ranked ahead of a line item, call by call
* `Accumulated`: what the calls of an auction keep of a log

## Main results

* `MatchCall.mem_ahead_iff`: what is ranked ahead, in terms of the ranking
* `MatchCall.accumulated`, `AuctionContext.accumulated_matchAll`: one call, and all calls
* `MatchCall.extends_iff`: when a call takes nothing back
* `AuctionContext.lost_eq_union_iff`: when all losses of an auction are kept
-/

namespace DealPacing

/-! ## Headings -/

/-- The headings of a log that list line items. -/
inductive Heading where
  | matchedDomain
  | matchedWhole
  | fcapped
  | fcapLookupFailed
  | pacingDeferred
  | readyToServe
  | sentToClient
  | sentToClientAsTopMatch
  | responseInvalidated
deriving DecidableEq, Repr

/-- The headings of a log that list line items under keys. -/
inductive GroupedHeading where
  | sentToBidder
  | sentToBidderAsTopMatch
  | receivedFromBidder
  | lostMatchingTo
  | lostAuctionTo
deriving DecidableEq, Repr

namespace AuctionLog

/-- The line items under a heading. -/
def filed (log : AuctionLog) : Heading → IdSet
  | .matchedDomain => log.matchedDomain
  | .matchedWhole => log.matchedWhole
  | .fcapped => log.fcapped
  | .fcapLookupFailed => log.fcapLookupFailed
  | .pacingDeferred => log.pacingDeferred
  | .readyToServe => log.readyToServe
  | .sentToClient => log.sentToClient
  | .sentToClientAsTopMatch => log.sentToClientAsTopMatch
  | .responseInvalidated => log.responseInvalidated

/-- The groups under a heading. -/
def groups (log : AuctionLog) : GroupedHeading → IdMap IdSet
  | .sentToBidder => log.sentToBidder
  | .sentToBidderAsTopMatch => log.sentToBidderAsTopMatch
  | .receivedFromBidder => log.receivedFromBidder
  | .lostMatchingTo => log.lostMatchingTo
  | .lostAuctionTo => log.lostAuctionTo

/-- The line items under a key of a heading. -/
def group (log : AuctionLog) (g : GroupedHeading) (key : String) : IdSet :=
  (log.groups g).getD key ∅

/-- A log that says all that the log `base` says. -/
structure Extends (log base : AuctionLog) : Prop where
  filed : ∀ h id, id ∈ base.filed h → id ∈ log.filed h
  grouped : ∀ g key id, id ∈ base.group g key → id ∈ log.group g key

end AuctionLog

/-! ## Line items ahead -/

theorem idsAhead_append_cons {front back : List LineItem} {x : LineItem}
    (hnew : x.id ∉ front.map (·.id)) : idsAhead x.id (front ++ x :: back) = front.map (·.id) := by
  induction front with
  | nil => exact idsAhead_cons_self x back
  | cons y front ih =>
    rw [List.map_cons, List.mem_cons, not_or] at hnew
    rw [List.cons_append, idsAhead_cons_of_mem (Ne.symm hnew.1) (by simp), ih hnew.2, List.map_cons]

theorem exists_append_of_mem_idsAhead {id k : String} {xs : List LineItem}
    (h : k ∈ idsAhead id xs) : ∃ front x back, xs = front ++ x :: back ∧ x.id = id ∧
      k ∈ front.map (·.id) := by
  obtain ⟨x, hx, hid⟩ := exists_mem_of_idsAhead_ne_nil (List.ne_nil_of_mem h)
  have hany : xs.any (·.id == id) = true :=
    List.any_eq_true.mpr ⟨x, hx, beq_iff_eq.mpr hid⟩
  rw [idsAhead, if_pos hany] at h
  -- the line item with the id ends the run of the others
  cases hrest : xs.dropWhile (·.id != id) with
  | nil =>
    have hne := List.dropWhile_eq_nil_iff.mp hrest x hx
    simp [hid] at hne
  | cons y back =>
    have hy := not_of_head?_dropWhile (congrArg List.head? hrest)
    refine ⟨xs.takeWhile (·.id != id), y, back, ?_, by simpa using hy, h⟩
    rw [← hrest, List.takeWhile_append_dropWhile]

section Remaining

variable {settings : MatchSettings} {s : Spending} {log : AuctionLog} {ready : List LineItem}
  {source : String} {ahead front back behind : List LineItem} {x : LineItem}

theorem mem_readyOf_of_remaining_eq
    (h : remaining settings s log ready source = front ++ x :: back) :
    x ∈ readyOf ready source := by
  apply mem_readyOf_of_mem_remaining
  rw [h]
  exact List.mem_append_right _ List.mem_cons_self

/-- What is left ahead of a line item is left with the line item behind it. -/
theorem remaining_eq_of_ranking_eq
    (h : ranking settings s (readyOf ready source) = ahead ++ x :: behind)
    (hleft : ahead.dropWhile (log.isTopMatch ·.id) ≠ []) :
    remaining settings s log ready source =
      ahead.dropWhile (log.isTopMatch ·.id) ++ x :: behind := by
  rw [remaining, h, List.dropWhile_append, if_neg]
  rw [List.isEmpty_iff]
  exact hleft

/-- The line items ahead of one are those ahead of it in the ranking of its source, without the
leading run of those that were top match before. -/
theorem mem_idsAheadIn_iff (hids : (ready.map (·.id)).Nodup) {id k : String} :
    k ∈ idsAheadIn settings s log ready (sourcesOf ready) id ↔ ∃ ahead x behind,
      ranking settings s (readyOf ready x.source) = ahead ++ x :: behind ∧ x.id = id ∧
        ∃ y ∈ ahead.dropWhile (log.isTopMatch ·.id), y.id = k := by
  rw [idsAheadIn, List.mem_flatMap]
  constructor
  · rintro ⟨source, -, hk⟩
    obtain ⟨front, x, back, hremaining, hid, hk⟩ := exists_append_of_mem_idsAhead hk
    obtain rfl := (mem_readyOf.mp (mem_readyOf_of_remaining_eq hremaining)).2
    obtain ⟨ahead, hranked, rfl, -⟩ := exists_append_of_dropWhile_eq hremaining
    exact ⟨ahead, x, back, hranked, hid, List.mem_map.mp hk⟩
  · rintro ⟨ahead, x, behind, hranked, rfl, y, hy, rfl⟩
    have hremaining := remaining_eq_of_ranking_eq hranked (List.ne_nil_of_mem hy)
    -- the id of the line item does not come again ahead of it
    have hnodup : ((remaining settings s log ready x.source).map (·.id)).Nodup :=
      nodup_ids_remaining hids
    rw [hremaining, List.map_append, List.map_cons, List.nodup_append] at hnodup
    have hnew : x.id ∉ (ahead.dropWhile (log.isTopMatch ·.id)).map (·.id) := fun hmem =>
      hnodup.2.2 _ hmem _ List.mem_cons_self rfl
    have hready := (mem_readyOf.mp (mem_readyOf_of_remaining_eq hremaining)).1
    refine ⟨x.source, mem_sourcesOf.mpr ⟨x, hready, rfl⟩, ?_⟩
    rw [hremaining, idsAhead_append_cons hnew]
    exact List.mem_map_of_mem hy

end Remaining

/-! ## What judging and offering keep -/

/-- Judging takes nothing back. -/
theorem extends_judgeAll (ctx : AuctionContext) (s : Spending) (imp : Impression) (bidders : IdSet)
    (now : Instant) (candidates : List LineItem) (base : AuctionLog) :
    (judgeAll ctx s imp bidders now candidates base).log.Extends base := by
  have hjudged := judging_judgeAll ctx s imp bidders now candidates base
  have hdomain := mem_matchedDomain_judgeAll ctx s imp bidders now candidates base
  generalize judgeAll ctx s imp bidders now candidates base = j at hjudged hdomain ⊢
  obtain ⟨_, _, _, _, _, _, hlog⟩ := hjudged.others
  constructor
  case filed =>
    intro h id hid
    cases h with
    | matchedDomain => exact (hdomain id).mpr (.inl hid)
    | matchedWhole => exact (hjudged.matched id).mpr (.inl hid)
    | fcapped => exact (hjudged.ended .capped id).mpr (.inl hid)
    | fcapLookupFailed => exact (hjudged.ended .lookupFailed id).mpr (.inl hid)
    | pacingDeferred => exact (hjudged.ended .deferred id).mpr (.inl hid)
    | readyToServe => exact (hjudged.ended .ready id).mpr (.inl hid)
    | _ =>
      rw [hlog]
      exact hid
  case grouped =>
    intro g key id hid
    rw [hlog]
    cases g <;> exact hid

namespace Offering

variable {settings : MatchSettings} {s : Spending} {ready : List LineItem} {base : AuctionLog}
  {done : List String} {sel : Selection}

theorem filed_eq (h : Offering settings s ready base done sel) (heading : Heading) :
    sel.log.filed heading = base.filed heading := by
  obtain ⟨_, _, _, hlog⟩ := h.others
  rw [hlog]
  cases heading <;> rfl

/-- Offers take nothing back but losses. -/
theorem mem_group (h : Offering settings s ready base done sel) {g : GroupedHeading}
    (hg : g ≠ .lostMatchingTo) {key id : String} (hid : id ∈ base.group g key) :
    id ∈ sel.log.group g key := by
  cases g with
  | sentToBidder => exact (h.sent key id).mpr (.inl hid)
  | sentToBidderAsTopMatch => exact (h.tops key id).mpr (.inl hid)
  | lostMatchingTo => exact absurd rfl hg
  | _ =>
    obtain ⟨_, _, _, hlog⟩ := h.others
    rw [hlog]
    exact hid

end Offering

/-! ## What calls keep -/

/-- The line items ahead the last time that there were any. -/
def lastAhead? (aheads : List (List String)) : Option (List String) :=
  (aheads.filter (!·.isEmpty)).getLast?

/-- The recorded losses of a line item, replaced by what was ahead of it the last time that there
was anything. -/
def lastLoss (recorded : IdSet) (aheads : List (List String)) : IdSet :=
  (lastAhead? aheads).elim recorded IdSet.ofList

theorem lastLoss_singleton (recorded : IdSet) (ahead : List String) :
    lastLoss recorded [ahead] = if ahead = [] then recorded else IdSet.ofList ahead := by
  cases ahead <;> rfl

theorem lastLoss_append (recorded : IdSet) (aheads aheads' : List (List String)) :
    lastLoss recorded (aheads ++ aheads') = lastLoss (lastLoss recorded aheads) aheads' := by
  simp only [lastLoss, lastAhead?, List.filter_append, List.getLast?_append]
  cases (aheads'.filter (!·.isEmpty)).getLast? <;> rfl

/-- When the losses that are left are all that there were. -/
theorem mem_lastLoss_iff_mem_any {recorded : IdSet} {aheads : List (List String)} :
    (∀ k, k ∈ lastLoss recorded aheads ↔ k ∈ recorded ∨ ∃ ahead ∈ aheads, k ∈ ahead) ↔
      ∀ last, lastAhead? aheads = some last →
        (∀ k ∈ recorded, k ∈ last) ∧ ∀ ahead ∈ aheads, ∀ k ∈ ahead, k ∈ last := by
  unfold lastLoss
  cases hlast : lastAhead? aheads with
  | none =>
    -- nothing was ahead at any time
    rw [lastAhead?, List.getLast?_eq_none_iff, List.filter_eq_nil_iff] at hlast
    simp only [Option.elim_none, reduceCtorEq, false_implies, implies_true, iff_true]
    intro k
    refine (or_iff_left ?_).symm
    rintro ⟨ahead, hahead, hk⟩
    have hempty := hlast ahead hahead
    simp only [Bool.not_eq_true, Bool.not_eq_false', List.isEmpty_iff] at hempty
    rw [hempty] at hk
    cases hk
  | some last =>
    have hmem : last ∈ aheads := by
      have h := List.mem_of_getLast? hlast
      exact (List.mem_filter.mp h).1
    simp only [Option.elim_some, Option.some.injEq, forall_eq', IdSet.mem_ofList]
    constructor
    · intro hunion
      refine ⟨fun k hk => (hunion k).mpr (.inl hk), fun ahead hahead k hk => ?_⟩
      exact (hunion k).mpr (.inr ⟨ahead, hahead, hk⟩)
    · rintro ⟨hrecorded, hall⟩ k
      constructor
      · exact fun hk => .inr ⟨last, hmem, hk⟩
      · rintro (hk | ⟨ahead, hahead, hk⟩)
        · exact hrecorded k hk
        · exact hall ahead hahead k hk

/-- What calls that rank the line items `aheads id` ahead of the one with the id `id` keep of the
log `base`: everything but its losses, which the last call that has any replaces. -/
structure Accumulated (base : AuctionLog) (aheads : String → List (List String))
    (log : AuctionLog) : Prop where
  filed : ∀ h id, id ∈ base.filed h → id ∈ log.filed h
  grouped : ∀ g key id, g ≠ .lostMatchingTo → id ∈ base.group g key → id ∈ log.group g key
  lost : ∀ id, log.group .lostMatchingTo id =
    lastLoss (base.group .lostMatchingTo id) (aheads id)

namespace Accumulated

variable {base log log' : AuctionLog} {aheads aheads' : String → List (List String)}

theorem nil (log : AuctionLog) : Accumulated log (fun _ => []) log where
  filed _ _ hid := hid
  grouped _ _ _ _ hid := hid
  lost _ := rfl

/-- Calls after calls. -/
theorem append (h : Accumulated base aheads log) (h' : Accumulated log aheads' log') :
    Accumulated base (fun id => aheads id ++ aheads' id) log' where
  filed heading id hid := h'.filed heading id (h.filed heading id hid)
  grouped g key id hg hid := h'.grouped g key id hg (h.grouped g key id hg hid)
  lost id := by rw [h'.lost, h.lost, lastLoss_append]

end Accumulated

namespace MatchCall

/-- The ids of the line items that a call ranks ahead of the one with the id `id`. -/
def ahead (c : MatchCall) (ctx : AuctionContext) (id : String) : List String :=
  c.engine.registry.aheadFor c.engine.settings c.engine.spending ctx c.imp c.bidder c.now id

/-- **What a call ranks ahead** of a line item: the line items ahead in the ranking of its source,
without the leading run of those that were top match before. -/
theorem mem_ahead_iff (c : MatchCall) (ctx : AuctionContext) {id k : String}
    (hkeyed : c.engine.registry.Keyed) : k ∈ c.ahead ctx id ↔ ∃ ahead x behind,
      c.ranked ctx x.source = ahead ++ x :: behind ∧ x.id = id ∧
        ∃ y ∈ ahead.dropWhile (ctx.log.isTopMatch ·.id), y.id = k := by
  rw [MatchCall.ahead, Registry.aheadFor]
  exact mem_idsAheadIn_iff hkeyed.nodup_ids_readyFor

/-- What a call ranks ahead of a line item replaces the losses recorded before. -/
theorem lost_run (c : MatchCall) (ctx : AuctionContext) (hkeyed : c.engine.registry.Keyed)
    (id : String) : (c.run ctx).log.group .lostMatchingTo id =
      lastLoss (ctx.log.group .lostMatchingTo id) [c.ahead ctx id] := by
  rw [lastLoss_singleton, run, Engine.findMatching, ahead, AuctionLog.group, AuctionLog.groups,
    Std.ExtTreeMap.getD_eq_getD_getElem?, hkeyed.lostMatchingTo_findMatching]
  split
  · exact Std.ExtTreeMap.getD_eq_getD_getElem?.symm
  · rfl

/-- **One call** takes nothing back but the losses of line items that it ranks behind others. -/
theorem accumulated (c : MatchCall) (ctx : AuctionContext) (hkeyed : c.engine.registry.Keyed) :
    Accumulated ctx.log (fun id => [c.ahead ctx id]) (c.run ctx).log := by
  have hlost := c.lost_run ctx hkeyed
  have hjudged : (c.engine.registry.judgedFor c.engine.settings c.engine.spending ctx c.imp
      c.bidder c.now).log.Extends ctx.log := extends_judgeAll _ _ _ _ _ _ _
  rw [run, Engine.findMatching] at hlost ⊢
  constructor
  case filed =>
    intro h id hid
    rw [hkeyed.sourcewise.filed_eq]
    exact hjudged.filed h id hid
  case grouped =>
    intro g key id hg hid
    exact hkeyed.sourcewise.mem_group hg (hjudged.grouped g key id hid)
  case lost => exact hlost

/-- A call takes nothing back if and only if it ranks ahead of each line item, if anything, also
what the log says that it lost to. -/
theorem extends_iff (c : MatchCall) (ctx : AuctionContext) (hkeyed : c.engine.registry.Keyed) :
    (c.run ctx).log.Extends ctx.log ↔ ∀ id, c.ahead ctx id ≠ [] →
      ∀ k ∈ ctx.log.group .lostMatchingTo id, k ∈ c.ahead ctx id := by
  have h := c.accumulated ctx hkeyed
  have hlost : ∀ id, (c.run ctx).log.group .lostMatchingTo id =
      if c.ahead ctx id = [] then ctx.log.group .lostMatchingTo id
      else IdSet.ofList (c.ahead ctx id) := fun id => (h.lost id).trans (lastLoss_singleton _ _)
  generalize c.run ctx = answer at h hlost ⊢
  constructor
  · intro hextends id hne k hk
    have hkept := hextends.grouped .lostMatchingTo id k hk
    rw [hlost, if_neg hne] at hkept
    exact IdSet.mem_ofList.mp hkept
  · intro hahead
    refine ⟨h.filed, fun g key k hk => ?_⟩
    by_cases hg : g = .lostMatchingTo
    · -- either nothing was recorded, or what is recorded covers what was
      subst hg
      rw [hlost]
      split
      · exact hk
      · next hne => exact IdSet.mem_ofList.mpr (hahead key hne k hk)
    · exact h.grouped g key k hg hk

/-- A new line item that is better is ranked ahead. -/
theorem mem_ahead_of_lt (c : MatchCall) (ctx : AuctionContext) {x y : LineItem}
    (hkeyed : c.engine.registry.Keyed) (hx : x ∈ c.ready ctx)
    (hy : y ∈ readyOf (c.ready ctx) x.source) (hnew : ctx.log.isTopMatch y.id = false)
    (hbetter : compareLineItems c.engine.spending y x = .lt) : y.id ∈ c.ahead ctx x.id := by
  have hranked : x ∈ c.ranked ctx x.source :=
    (ranking_perm _ _ _).mem_iff.mpr (mem_readyOf.mpr ⟨hx, rfl⟩)
  obtain ⟨ahead, behind, hranked⟩ := List.append_of_mem hranked
  refine (c.mem_ahead_iff ctx hkeyed).mpr ⟨ahead, x, behind, hranked, rfl, y, ?_, rfl⟩
  have hahead : y ∈ ahead := mem_ahead_of_compare_lt hranked hy hbetter
  rw [← List.takeWhile_append_dropWhile (p := (ctx.log.isTopMatch ·.id)) (l := ahead),
    List.mem_append] at hahead
  rcases hahead with hrun | hrest
  · have htop := List.mem_takeWhile_imp hrun
    rw [hnew] at htop
    cases htop
  · exact hrest

/-- Only line items that are ready are ranked ahead. -/
theorem exists_ready_of_mem_ahead (c : MatchCall) (ctx : AuctionContext) {id k : String}
    (hkeyed : c.engine.registry.Keyed) (hk : k ∈ c.ahead ctx id) : ∃ y ∈ c.ready ctx, y.id = k := by
  obtain ⟨ahead, x, behind, hranked, -, y, hy, rfl⟩ := (c.mem_ahead_iff ctx hkeyed).mp hk
  have hmem : y ∈ c.ranked ctx x.source := by
    have hahead := List.mem_append_left (x :: behind) (List.dropWhile_subset _ hy)
    rw [← hranked] at hahead
    exact hahead
  exact ⟨y, (mem_readyOf.mp ((ranking_perm _ _ _).mem_iff.mp hmem)).1, rfl⟩

/-- What is ranked ahead is recorded. -/
theorem mem_lost_of_mem_ahead (c : MatchCall) (ctx : AuctionContext) {id k : String}
    (hkeyed : c.engine.registry.Keyed) (hk : k ∈ c.ahead ctx id) :
    k ∈ (c.run ctx).log.group .lostMatchingTo id := by
  rw [c.lost_run ctx hkeyed, lastLoss_singleton, if_neg (List.ne_nil_of_mem hk)]
  exact IdSet.mem_ofList.mpr hk

/-- A line item that is not ready does not become a top match. -/
theorem isTopMatch_run_eq_false (c : MatchCall) (ctx : AuctionContext) {id : String}
    (hkeyed : c.engine.registry.Keyed) (hnew : ctx.log.isTopMatch id = false)
    (hnot : ∀ x ∈ c.ready ctx, x.id ≠ id) : (c.run ctx).log.isTopMatch id = false := by
  have htops := c.topMatches ctx
  have hready := fun x => c.mem_ready_of_mem_offered ctx (x := x) hkeyed
  generalize c.run ctx = answer at htops hready ⊢
  rw [Bool.eq_false_iff] at hnew ⊢
  intro htop
  obtain ⟨source, hid⟩ := AuctionLog.isTopMatch_iff.mp htop
  rw [htops.ids] at hid
  rcases hid with hbase | ⟨sel, hsel, x, hx, hid⟩
  · exact hnew (AuctionLog.isTopMatch_iff.mpr ⟨source, hbase⟩)
  · obtain rfl := List.mem_singleton.mp hsel
    have hoffered := (Selection.mem_ofSource.mp (List.mem_of_head? hx)).1
    exact hnot x (hready x hoffered) hid

end MatchCall

namespace AuctionContext

/-- The ids of the line items that the calls of an auction rank ahead of the one with the id `id`,
call by call. -/
def aheads (ctx : AuctionContext) : List MatchCall → String → List (List String)
  | [], _ => []
  | c :: rest, id => c.ahead ctx id :: aheads { ctx with log := (c.run ctx).log } rest id

theorem aheads_cons (ctx : AuctionContext) (c : MatchCall) (rest : List MatchCall) :
    ctx.aheads (c :: rest) = fun id =>
      [c.ahead ctx id] ++ { ctx with log := (c.run ctx).log }.aheads rest id := rfl

/-- **All calls** of an auction, from any log on. -/
theorem accumulated_matchAll (ctx : AuctionContext) (calls : List MatchCall)
    (hkeyed : ∀ c ∈ calls, c.engine.registry.Keyed) :
    Accumulated ctx.log (ctx.aheads calls) (ctx.matchAll calls).2 := by
  induction calls generalizing ctx with
  | nil => exact .nil ctx.log
  | cons c rest ih =>
    rw [List.forall_mem_cons] at hkeyed
    have hfirst := c.accumulated ctx hkeyed.1
    rw [matchAll_cons, aheads_cons]
    generalize c.run ctx = answer at hfirst ⊢
    exact hfirst.append (ih { ctx with log := answer.log } hkeyed.2)

/-- **What the log of an auction keeps**: all entries but losses, and of these what was ahead on the
last call on which anything was. So the losses of a line item are those of all calls if and only if
that call ranks ahead what the others did and what the log already said. -/
theorem lost_eq_union_iff (ctx : AuctionContext) (calls : List MatchCall)
    (hkeyed : ∀ c ∈ calls, c.engine.registry.Keyed) :
    let log := (ctx.matchAll calls).2
    Accumulated ctx.log (ctx.aheads calls) log ∧ ∀ id,
      ((∀ k, k ∈ log.group .lostMatchingTo id ↔ k ∈ ctx.log.group .lostMatchingTo id ∨
          ∃ ahead ∈ ctx.aheads calls id, k ∈ ahead) ↔
        ∀ last, lastAhead? (ctx.aheads calls id) = some last →
          (∀ k ∈ ctx.log.group .lostMatchingTo id, k ∈ last) ∧
            ∀ ahead ∈ ctx.aheads calls id, ∀ k ∈ ahead, k ∈ last) := by
  intro log
  have h : Accumulated ctx.log (ctx.aheads calls) log := ctx.accumulated_matchAll calls hkeyed
  refine ⟨h, fun id => ?_⟩
  rw [h.lost]
  exact mem_lastLoss_iff_mem_any

/-- A line item that is ranked behind another one on each of two impressions. -/
theorem lost_eq_union_iff_twoLosses :
    let items := [mediaItem "first" 3 ["banner", "video"], mediaItem "second" 2 ["banner"],
      mediaItem "third" 1 ["video"]]
    let calls := [mediaCall items true false, mediaCall items false true]
    let log := (mediaAuction.matchAll calls).2
    (∀ c ∈ calls, c.engine.registry.Keyed) ∧
      Accumulated mediaAuction.log (mediaAuction.aheads calls) log ∧ ∀ id,
        ((∀ k, k ∈ log.group .lostMatchingTo id ↔
            k ∈ mediaAuction.log.group .lostMatchingTo id ∨
              ∃ ahead ∈ mediaAuction.aheads calls id, k ∈ ahead) ↔
          ∀ last, lastAhead? (mediaAuction.aheads calls id) = some last →
            (∀ k ∈ mediaAuction.log.group .lostMatchingTo id, k ∈ last) ∧
              ∀ ahead ∈ mediaAuction.aheads calls id, ∀ k ∈ ahead, k ∈ last) := by
  intro items calls log
  have hkeyed : ∀ c ∈ calls, c.engine.registry.Keyed := by
    simp only [calls, List.forall_mem_cons, List.not_mem_nil, false_implies, implies_true, and_true]
    exact ⟨keyed_mediaRegistry items, keyed_mediaRegistry items⟩
  exact ⟨hkeyed, lost_eq_union_iff mediaAuction calls hkeyed⟩

/-- A call can take back what the log says: of the line items that were ranked ahead of a line item,
only those of the second impression are left. -/
theorem not_forall_extends : ¬ ∀ (ctx : AuctionContext) (c : MatchCall),
    c.engine.registry.Keyed → (c.run ctx).log.Extends ctx.log := by
  intro hall
  -- two impressions on which the first line item is ranked behind different ones
  let first := mediaItem "first" 3 ["banner", "video"]
  let second := mediaItem "second" 2 ["banner"]
  let third := mediaItem "third" 1 ["video"]
  let items := [first, second, third]
  let banner := mediaCall items true false
  let video := mediaCall items false true
  let again := { mediaAuction with log := (banner.run mediaAuction).log }
  have hkeyed : (mediaRegistry items).Keyed := keyed_mediaRegistry items
  have hids : (items.map (·.id)).Nodup := by decide
  -- on the first impression, the second line item is ahead of the first
  have hbanner : [first, second] ⊆ banner.ready mediaAuction :=
    MatchCall.subset_ready_mediaCall hids (by simp [items]) true false rfl (by decide +kernel)
  have hlost : "second" ∈ again.log.group .lostMatchingTo "first" := by
    apply banner.mem_lost_of_mem_ahead mediaAuction hkeyed
    apply banner.mem_ahead_of_lt mediaAuction (x := first) (y := second) hkeyed
    · exact hbanner (by simp)
    · exact mem_readyOf.mpr ⟨hbanner (by simp), rfl⟩
    · decide +kernel
    · decide +kernel
  -- on the next one, only the third is
  have hvideo : [first, third] ⊆ video.ready again :=
    MatchCall.subset_ready_mediaCall hids (by simp [items]) false true rfl (by decide +kernel)
  have hahead : "third" ∈ video.ahead again "first" := by
    apply video.mem_ahead_of_lt again (x := first) (y := third) hkeyed
    · exact hvideo (by simp)
    · exact mem_readyOf.mpr ⟨hvideo (by simp), rfl⟩
    · exact banner.isTopMatch_run_eq_false mediaAuction hkeyed rfl (by decide +kernel)
    · decide +kernel
  -- so a call that takes nothing back would have to rank the second one ahead again
  have hkept := (video.extends_iff again hkeyed).mp (hall again video hkeyed) "first"
    (List.ne_nil_of_mem hahead) "second" hlost
  obtain ⟨y, hy, hid⟩ := video.exists_ready_of_mem_ahead again hkeyed hkept
  have hnot : ∀ y ∈ video.ready again, y.id ≠ "second" := by decide +kernel
  exact hnot y hy hid

end AuctionContext

end DealPacing
