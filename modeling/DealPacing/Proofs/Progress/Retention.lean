import DealPacing.Proofs.Progress.Recording

/-!
# What the overall progress retains

A rotation ends with a cleaning of the overall progress. It drops the statuses of line items that
are not registered or ended long ago, and all but the latest plans of the others. It does not look
at the competitors that line items lost to: they stay until the line item is forgotten by name.

## Main definitions

* `Status.TrimmedTo`: a status keeps plans of another one, those that end last
* `Engine.Move.Beats`, `Engine.Beaten`: losses that were recorded and not forgotten since

## Main results

* `Status.trimmedTo_retainLatest`: what is left of the plans of a status
* `Window.exists_of_clean`: what is left of a window after a cleaning
* `Engine.holdsLosses_run`: the losses that the windows of a run hold
* `Engine.rotate_bounded_iff`: what the overall progress holds after a rotation
-/

namespace DealPacing

/-! ## Cleaning -/

namespace Status

/-- The status keeps at most `limit` plans of another one, and no plan that was dropped ends later
than one that was kept. -/
def TrimmedTo (limit : Nat) (before after : Status) : Prop :=
  after.plans.length ≤ limit ∧ ∃ dropped, (after.plans ++ dropped).Perm before.plans ∧
    ∀ p ∈ after.plans, ∀ q ∈ dropped, q.finish ≤ p.finish

/-- The plans that end last are kept. -/
theorem trimmedTo_retainLatest (st : Status) (limit : Nat) :
    st.TrimmedTo limit (st.retainLatest limit) := by
  unfold TrimmedTo retainLatest
  split
  · next hle => exact ⟨hle, [], by simp, by simp⟩
  · -- the plans are sorted by their end, the latest first
    let sorted := st.plans.mergeSort fun p q => decide (q.finish ≤ p.finish)
    have hsorted : sorted.Pairwise fun p q => decide (q.finish ≤ p.finish) = true := by
      refine List.pairwise_mergeSort (fun p q r hpq hqr => ?_) (fun p q => ?_) st.plans
      · simp only [decide_eq_true_eq, Instant.le_iff] at *
        omega
      · simp only [Bool.or_eq_true, decide_eq_true_eq, Instant.le_iff]
        omega
    have hsplit : sorted.take limit ++ sorted.drop limit = sorted := List.take_append_drop ..
    refine ⟨List.length_take_le _ _, sorted.drop limit, ?_, ?_⟩
    · show (sorted.take limit ++ sorted.drop limit).Perm st.plans
      rw [hsplit]
      exact List.mergeSort_perm ..
    · rw [← hsplit, List.pairwise_append] at hsorted
      exact fun p hp q hq => of_decide_eq_true (hsorted.2.2 p hp q hq)

end Status

namespace Window

/-- What is left of the statuses of a window. -/
theorem exists_of_clean {w : Window} {r : Registry} {now : Instant} {ttl : Int} {limit : Nat}
    {id : String} {st : Status} (h : (w.clean r now ttl limit).statuses[id]? = some st) :
    isCurrent r now ttl id ∧
      ∃ before, w.statuses[id]? = some before ∧ before.TrimmedTo limit st := by
  rw [clean, Std.ExtTreeMap.getElem?_map, Std.ExtTreeMap.getElem?_filter'] at h
  obtain ⟨before, hbefore, rfl⟩ := Option.map_eq_some_iff.mp h
  obtain ⟨hget, hcurrent⟩ := Option.filter_eq_some_iff.mp hbefore
  exact ⟨hcurrent, before, hget, before.trimmedTo_retainLatest limit⟩

/-! ## Losses -/

theorem mem_lostTo_foldl_recordLosses {entries : List (String × IdSet)} {w : Window} {id : String} :
    id ∈ (entries.foldl recordLosses w).lostTo ↔ id ∈ w.lostTo ∨ id ∈ entries.map Prod.fst := by
  induction entries generalizing w with
  | nil => simp
  | cons entry entries ih =>
    have hentry : id ∈ (w.recordLosses entry).lostTo ↔ id ∈ w.lostTo ∨ id = entry.1 := by
      rw [recordLosses, Std.ExtTreeMap.mem_insert, Std.LawfulEqCmp.compare_eq_iff_eq, or_comm,
        eq_comm]
    rw [List.foldl_cons, ih, hentry, List.map_cons, List.mem_cons, or_assoc]

theorem lostTo_tallied (w : Window) (r : Registry) (log : AuctionLog) (accountId : String) :
    (w.tallied r log accountId).lostTo = w.lostTo :=
  foldl_of_prefix (I := fun _ (w' : Window) => w'.lostTo = w.lostTo) rfl fun _ _ _ _ h =>
    foldl_of_prefix (I := fun _ (w' : Window) => w'.lostTo = w.lostTo) h fun _ _ _ _ h => h

theorem lostTo_recordServe (r : Registry) (classes : IdMap Int) (w : Window) (id : String)
    (s : Spending) : ((recordServe r classes w id).run s).1.lostTo = w.lostTo := by
  cases hp : (r.get? id).bind (·.plan) with
  | none => rw [run_recordServe_of_none hp]
  | some p =>
    rw [run_recordServe_of_some hp]
    rfl

theorem mem_lostTo_merge {w other : Window} {r : Registry} {s : Spending} {id : String} :
    id ∈ ((w.merge r other).run s).1.lostTo ↔ id ∈ w.lostTo ∨ id ∈ other.lostTo := by
  have hget := getElem?_foldl_toList (fun (h? : Option Histogram) h => (h?.getD ∅).merge h)
    w.lostTo other.lostTo id
  rw [← lostTo_merge w r other s] at hget
  rw [Std.ExtTreeMap.mem_iff_isSome_getElem?, hget, Std.ExtTreeMap.mem_iff_isSome_getElem?,
    Std.ExtTreeMap.mem_iff_isSome_getElem?]
  cases other.lostTo[id]? <;> simp

theorem mem_lostTo_forget {w : Window} {ids : List String} {id : String} :
    id ∈ (w.forget ids).lostTo ↔ id ∈ w.lostTo ∧ id ∉ ids := by
  rw [forget, Std.ExtTreeMap.mem_iff_isSome_getElem?, IdMap.getElem?_foldl_erase,
    Std.ExtTreeMap.mem_iff_isSome_getElem?]
  by_cases hid : id ∈ ids <;> simp [hid]

end Window

/-- What an auction adds to the losses of the open window. -/
theorem Progress.mem_lostTo_recordAuction (p : Progress) (r : Registry) (log : AuctionLog)
    (accountId : String) (s : Spending) (id : String) :
    id ∈ ((p.recordAuction r log accountId).run s).1.2.current.lostTo ↔
      id ∈ p.current.lostTo ∨ id ∈ log.lostMatchingTo ∨ id ∈ log.lostAuctionTo := by
  have hserved (r' : Registry) (classes : IdMap Int) (s' : Spending) :
      ((log.sentToClientAsTopMatch.toList.foldlM (Window.recordServe r' classes)
        (p.current.tallied r' log accountId)).run s').1.lostTo = p.current.lostTo :=
    run_foldlM_of_mem (I := fun (w : Window) _ => w.lostTo = p.current.lostTo)
      (p.current.lostTo_tallied r' log accountId) fun id _ w s h =>
        (w.lostTo_recordServe r' classes id s).trans h
  rw [run_recordAuction]
  simp only [Window.mem_lostTo_foldl_recordLosses, hserved, List.map_append, List.mem_append]
  simp

theorem Progress.lostTo_trackPlans (p : Progress) (r : Registry) (s : Spending) :
    ((p.trackPlans r).run s).1.current.lostTo = p.current.lostTo ∧
      ((p.trackPlans r).run s).1.overall.lostTo = p.overall.lostTo :=
  run_foldlM_of_mem (I := fun (p' : Progress) _ => p'.current.lostTo = p.current.lostTo ∧
    p'.overall.lostTo = p.overall.lostTo) ⟨rfl, rfl⟩ fun x _ p' s' h =>
      ⟨(Window.agrees_trackPlan p'.current r x _).lostTo_eq.trans h.1,
        (Window.agrees_trackPlan p'.overall r x s').lostTo_eq.trans h.2⟩

namespace Engine

/-! ## Losses along runs -/

/-- The move records losses of a line item. -/
def Move.Beats (id : String) : Move → Prop
  | .auction log _ => id ∈ log.lostMatchingTo ∨ id ∈ log.lostAuctionTo
  | _ => False

/-- The move forgets the progress of a line item. -/
def Move.Drops (id : String) : Move → Prop
  | .forgetProgress (some ids) => id ∈ ids
  | .forgetProgress none => True
  | _ => False

/-- Losses of a line item were recorded, and not forgotten since. -/
def Beaten (moves : List Move) (id : String) : Prop :=
  ∃ before m after, moves = before ++ m :: after ∧ m.Beats id ∧ ∀ m' ∈ after, ¬m'.Drops id

theorem beaten_concat {moves : List Move} {m : Move} {id : String} :
    Beaten (moves ++ [m]) id ↔ m.Beats id ∨ Beaten moves id ∧ ¬m.Drops id := by
  constructor
  · -- the losses were recorded in the last move or before it
    rintro ⟨before, m', after, hsplit, hbeats, hafter⟩
    rcases List.eq_nil_or_concat after with rfl | ⟨after, last, rfl⟩
    · obtain ⟨-, hm⟩ := List.append_inj' hsplit rfl
      cases hm
      exact .inl hbeats
    · rw [List.concat_eq_append] at hsplit hafter
      rw [← List.cons_append, ← List.append_assoc] at hsplit
      obtain ⟨hmoves, hm⟩ := List.append_inj' hsplit rfl
      cases hm
      rw [List.forall_mem_append] at hafter
      exact .inr ⟨⟨before, m', after, hmoves, hbeats, hafter.1⟩, hafter.2 m (by simp)⟩
  · rintro (hbeats | ⟨⟨before, m', after, rfl, hbeats, hafter⟩, hdrops⟩)
    · exact ⟨moves, m, [], rfl, hbeats, by simp⟩
    · refine ⟨before, m', after ++ [m], by simp, hbeats, ?_⟩
      rw [List.forall_mem_append]
      exact ⟨hafter, by simpa using hdrops⟩

/-- One of the windows holds losses of a line item. -/
def HoldsLosses (e : Engine) (id : String) : Prop :=
  id ∈ e.progress.current.lostTo ∨ id ∈ e.progress.overall.lostTo

/-- A move adds the losses that it records, and forgets by name only. -/
theorem holdsLosses_move {e : Engine} {m : Move} {id : String} :
    (e.move m).HoldsLosses id ↔ m.Beats id ∨ e.HoldsLosses id ∧ ¬m.Drops id := by
  have hsame {e' : Engine} (hcurrent : e'.progress.current.lostTo = e.progress.current.lostTo)
      (hoverall : e'.progress.overall.lostTo = e.progress.overall.lostTo) :
      e'.HoldsLosses id ↔ False ∨ e.HoldsLosses id ∧ ¬False := by
    simp [HoldsLosses, hcurrent, hoverall]
  cases m with
  | auction log accountId =>
    have hcurrent := e.progress.mem_lostTo_recordAuction e.registry log accountId e.spending id
    let out := (e.progress.recordAuction e.registry log accountId).run e.spending
    show (id ∈ out.1.2.current.lostTo ∨ id ∈ e.progress.overall.lostTo) ↔ _
    rw [hcurrent]
    simp only [Move.Beats, Move.Drops, HoldsLosses, not_false_eq_true, and_true]
    tauto
  | trackPlans =>
    obtain ⟨hcurrent, hoverall⟩ := e.progress.lostTo_trackPlans e.registry e.spending
    exact hsame hcurrent hoverall
  | handOver now =>
    -- the losses of the open window are added to those of the overall progress
    show (id ∈ (Window.opened now).lostTo ∨ id ∈ ((e.progress.overall.merge e.registry
      (e.progress.current.close now)).run e.spending).1.lostTo) ↔ _
    rw [Window.mem_lostTo_merge]
    simp only [Window.opened, Window.close, Move.Beats, Move.Drops, HoldsLosses, not_false_eq_true,
      and_true]
    simp [or_comm]
  | forgetProgress ids =>
    cases ids with
    | none =>
      show (id ∈ e.progress.current.forgetAll.lostTo ∨ id ∈ e.progress.overall.forgetAll.lostTo) ↔ _
      simp [Window.forgetAll, Move.Beats, Move.Drops]
    | some ids =>
      show (id ∈ (e.progress.current.forget ids).lostTo ∨
        id ∈ (e.progress.overall.forget ids).lostTo) ↔ _
      simp only [Window.mem_lostTo_forget, Move.Beats, Move.Drops, HoldsLosses, false_or,
        or_and_right]
  | removeLineItems ids => cases ids <;> exact hsame rfl rfl
  | _ => exact hsame rfl rfl

/-- **The windows hold the losses that were recorded and not forgotten since**, however long ago the
line items ended. -/
theorem holdsLosses_run (c : Config) (start : Instant) (moves : List Move) (id : String) :
    (run c start moves).HoldsLosses id ↔ Beaten moves id := by
  induction moves using List.reverseRecOn with
  | nil => simp [run, HoldsLosses, Engine.start, Window.opened, Beaten]
  | append_singleton moves m ih => rw [run_concat, holdsLosses_move, beaten_concat, ih]

/-- After a rotation the losses are all in the overall progress. -/
theorem mem_lostTo_rotate (c : Config) (start : Instant) (moves : List Move) (now : Instant)
    (id : String) :
    id ∈ ((run c start moves).rotate now).1.progress.overall.lostTo ↔ Beaten moves id := by
  have hrun := holdsLosses_run c start (moves ++ [.handOver now] ++ [.clean now]) id
  -- neither part of a rotation records losses or forgets them, and the new window has none
  rw [run_concat, run_concat, ← rotate_eq_move, beaten_concat, beaten_concat] at hrun
  have hopen : id ∉ ((run c start moves).rotate now).1.progress.current.lostTo := by
    show id ∉ (Window.opened now).lostTo
    simp [Window.opened]
  simpa [HoldsLosses, hopen, Move.Beats, Move.Drops] using hrun

/-- The line item is registered, and ended at most the time after which statuses are forgotten
before `now`. -/
def IsCurrent (e : Engine) (c : Config) (now : Instant) (id : String) : Prop :=
  ∃ x, e.registry.get? id = some x ∧
    now.nanosSince x.record.finish ≤ c.lineItemStatusTtlSecs * 1000000000

/-- **Cleaning bounds the statuses of the overall progress, but not the losses.** After a rotation
the statuses are those of current line items, cut down to the plans that end last. A line item that
is not current has data exactly if it lost and was not forgotten by name since. -/
theorem rotate_bounded_iff (c : Config) (start : Instant) (moves : List Move) (now : Instant) :
    let e := run c start moves
    let merged := (e.handOver now).1.progress.overall
    let e' := (e.rotate now).1
    (∀ (id : String) st, e'.progress.overall.statuses[id]? = some st → e'.IsCurrent c now id ∧
      ∃ before, merged.statuses[id]? = some before ∧ before.TrimmedTo c.cachedPlansNumber st) ∧
    ∀ id, (id ∈ e'.progress.overall.statuses ∨ id ∈ e'.progress.overall.lostTo →
        e'.IsCurrent c now id) ↔
      (Beaten moves id → e'.IsCurrent c now id) := by
  intro e merged e'
  have hstatuses (id : String) (st : Status) (h : e'.progress.overall.statuses[id]? = some st) :
      e'.IsCurrent c now id ∧
        ∃ before, merged.statuses[id]? = some before ∧ before.TrimmedTo c.cachedPlansNumber st := by
    obtain ⟨httl, hkept⟩ := limits_run c start (moves ++ [.handOver now])
    rw [run_concat] at httl hkept
    obtain ⟨hcurrent, before, hbefore, htrimmed⟩ := Window.exists_of_clean h
    obtain ⟨x, hx, hended⟩ := Window.isCurrent_iff.mp hcurrent
    exact ⟨⟨x, hx, httl ▸ hended⟩, before, hbefore, hkept ▸ htrimmed⟩
  refine ⟨hstatuses, fun id => ?_⟩
  have hlost := mem_lostTo_rotate c start moves now id
  constructor
  · exact fun h hbeaten => h (.inr (hlost.mpr hbeaten))
  · rintro h (hid | hid)
    · rw [Std.ExtTreeMap.mem_iff_isSome_getElem?] at hid
      obtain ⟨st, hst⟩ := Option.isSome_iff_exists.mp hid
      exact (hstatuses id st hst).1
    · exact h (hlost.mp hid)

/-- A line item loses an auction in its first hour. -/
def beatenEarly : List Move := [
  .update [twoHours [⟨1, 1⟩] [] (hour 0)] true (hour 0),
  .auction { lostAuctionTo := IdMap.addTo ∅ "lineItem" "rival" } "account"]

/-- Losses of a line item stay when it ended so long ago that its status is forgotten. -/
theorem not_forall_bounded :
    ¬∀ (c : Config) (start : Instant) (moves : List Move) (now : Instant) (id : String),
      let e' := ((run c start moves).rotate now).1
      id ∈ e'.progress.overall.statuses ∨ id ∈ e'.progress.overall.lostTo →
        e'.IsCurrent c now id := by
  intro hbounded
  let e' := ((run {} (hour 0) beatenEarly).rotate (hour 5)).1
  have hlost : "lineItem" ∈ e'.progress.overall.lostTo := by decide +kernel
  have hended : Window.isCurrent e'.registry (hour 5) 7200 "lineItem" = false := by decide +kernel
  obtain ⟨x, hx, hcurrent⟩ := hbounded {} (hour 0) beatenEarly (hour 5) "lineItem" (.inr hlost)
  exact Bool.false_ne_true (hended.symm.trans (Window.isCurrent_iff.mpr ⟨x, hx, hcurrent⟩))

end Engine

end DealPacing
