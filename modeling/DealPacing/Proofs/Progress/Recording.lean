import DealPacing.Proofs.Progress.Overall

/-!
# Everything that is recorded is counted once

An auction is recorded in all, for its account, and for each line item once in every set of its log
that holds the line item. What is recorded is counted in the open window, and added to the overall
progress when the window is closed. So both together count everything that was recorded, until it is
cleaned away or forgotten.

## Main definitions

* `Figure`, `Window.read`: what windows count, and what a window shows of it
* `AuctionLog.records`, `Engine.Move.records`: what a log and a move record, as often as they do
* `Window.Adds`: from a window to another one exactly some records are counted
* `Engine.Spares`: the moves that forget nothing of a figure

## Main results

* `Window.adds_recordAuction`, `Window.adds_recordWin`: auctions and wins are counted
* `Window.read_merge`: windows add up
* `Engine.Tidy.shown_move`: a move that spares a figure adds what it records
* `Engine.recorded_once`: nothing is lost or counted twice as long as the line item is current
-/

namespace DealPacing

/-- What windows count. -/
inductive Figure where
  /-- The auctions. -/
  | auctions
  /-- The auctions of an account. -/
  | auctionsOf (accountId : String)
  /-- A tally of a line item. -/
  | tally (id : String) (t : Tally)
  /-- The events of a name that happened to a line item. -/
  | event (id name : String)
  /-- The losses of a line item to a competitor. -/
  | loss (id competitor : String)
deriving DecidableEq

/-- The line item whose status shows a figure. -/
def Figure.lineItem? : Figure → Option String
  | .tally id _ | .event id _ => some id
  | _ => none

/-- The value of a figure in a window. -/
def Window.read (w : Window) : Figure → Nat
  | .auctions => w.requests
  | .auctionsOf accountId => w.accounts.getD accountId 0
  | .tally id t => w.tally id t
  | .event id name => w.eventCount id name
  | .loss id competitor => w.losses id competitor

/-! ## What a log records -/

namespace AuctionLog

/-- The sets of a log whose line items are counted under a tally. -/
def setsOf (log : AuctionLog) : Tally → List IdSet
  | .domainMatched => [log.matchedDomain]
  | .targetMatched => [log.matchedWhole]
  | .targetMatchedButFcapped => [log.fcapped]
  | .targetMatchedButFcapLookupFailed => [log.fcapLookupFailed]
  | .pacingDeferred => [log.pacingDeferred]
  | .sentToBidder => log.sentToBidder.toList.map Prod.snd
  | .sentToBidderAsTopMatch => log.sentToBidderAsTopMatch.toList.map Prod.snd
  | .receivedFromBidder => log.receivedFromBidder.toList.map Prod.snd
  | .receivedFromBidderInvalidated => [log.responseInvalidated]
  | .sentToClient => [log.sentToClient]
  | .sentToClientAsTopMatch => [log.sentToClientAsTopMatch]

/-- What a set that is counted under a tally records. -/
def tallyRecords (t : Tally) (ids : IdSet) : List Figure := ids.toList.map (.tally · t)

/-- What the competitors of a line item record. -/
def lossRecords (entry : String × IdSet) : List Figure := entry.2.toList.map (.loss entry.1 ·)

/-- What the log of an auction of an account records. -/
def records (log : AuctionLog) (accountId : String) : List Figure :=
  [.auctions, .auctionsOf accountId] ++
    Tally.all.flatMap (fun t => (log.setsOf t).flatMap (tallyRecords t)) ++
    (log.lostMatchingTo.toList ++ log.lostAuctionTo.toList).flatMap lossRecords

theorem count_tallyRecords (t : Tally) (ids : IdSet) (id : String) (u : Tally) :
    (tallyRecords t ids).count (.tally id u) = if t = u then ids.toList.count id else 0 := by
  unfold tallyRecords
  by_cases h : t = u
  · subst h
    rw [if_pos rfl]
    exact List.count_map_of_injective _ (Figure.tally · t) (fun _ _ e => by simpa using e) id
  · rw [if_neg h, List.count_eq_zero]
    simp [h]

theorem count_tallyRecords_of_forall_ne {h : Figure} (hne : ∀ id u, h ≠ .tally id u) (t : Tally)
    (ids : IdSet) : (tallyRecords t ids).count h = 0 := by
  rw [List.count_eq_zero, tallyRecords, List.mem_map]
  rintro ⟨id, -, e⟩
  exact hne id t e.symm

/-- The tables by which a log is counted hold every set of every tally. -/
theorem count_tallySets (log : AuctionLog) (h : Figure) :
    ((Window.tallySets log ++ Window.tallySourceSets log).flatMap
      fun entry => tallyRecords entry.2 entry.1).count h =
    (Tally.all.flatMap fun t => (log.setsOf t).flatMap (tallyRecords t)).count h := by
  by_cases hne : ∀ id t, h ≠ .tally id t
  · have hzero := count_tallyRecords_of_forall_ne hne
    rw [List.count_eq_zero_of_not_mem, List.count_eq_zero_of_not_mem]
    all_goals simp only [List.mem_flatMap, not_exists, not_and]
    · exact fun t _ ids _ => List.count_eq_zero.mp (hzero t ids)
    · exact fun entry _ => List.count_eq_zero.mp (hzero entry.2 entry.1)
  · push Not at hne
    obtain ⟨id, t, rfl⟩ := hne
    cases t <;>
      simp [Window.tallySets, Window.tallySourceSets, setsOf, Tally.all, List.flatMap_cons,
        List.count_flatMap, count_tallyRecords, Function.comp_def]

theorem count_lossRecords_of_forall_ne {h : Figure} {entry : String × IdSet}
    (hne : ∀ competitor, h ≠ .loss entry.1 competitor) : (lossRecords entry).count h = 0 := by
  rw [List.count_eq_zero, lossRecords, List.mem_map]
  rintro ⟨competitor, -, e⟩
  exact hne competitor e.symm

/-- Every auction is recorded once. -/
theorem count_records_auctions (log : AuctionLog) (accountId : String) :
    (log.records accountId).count .auctions = 1 := by
  have htally (t : Tally) (ids : IdSet) : (tallyRecords t ids).count .auctions = 0 :=
    count_tallyRecords_of_forall_ne (by simp) t ids
  have hloss (entry : String × IdSet) : (lossRecords entry).count .auctions = 0 :=
    count_lossRecords_of_forall_ne (by simp)
  simp [records, List.count_append, List.count_flatMap, Function.comp_def, htally, hloss]

theorem count_flatMap_tallyRecords (sets : List IdSet) (t : Tally) (id : String) (u : Tally) :
    (sets.flatMap (tallyRecords t)).count (.tally id u) =
      if t = u then sets.countP (·.contains id) else 0 := by
  induction sets with
  | nil => simp
  | cons ids sets ih =>
    have hids : ids.toList.count id = if ids.contains id then 1 else 0 := by
      rw [(Owned.nodup_toList ids).count]
      simp
    rw [List.flatMap_cons, List.count_append, ih, count_tallyRecords, hids, List.countP_cons]
    split <;> omega

/-- A line item is recorded under a tally once for each set of the tally that holds it. -/
theorem count_records_tally (log : AuctionLog) (accountId id : String) (t : Tally) :
    (log.records accountId).count (.tally id t) = (log.setsOf t).countP (·.contains id) := by
  have hloss (entry : String × IdSet) : (lossRecords entry).count (.tally id t) = 0 :=
    count_lossRecords_of_forall_ne (by simp)
  rw [records, List.count_append, List.count_append, List.count_flatMap, List.count_flatMap]
  simp only [Function.comp_def, count_flatMap_tallyRecords, hloss]
  cases t <;> simp [Tally.all]

end AuctionLog

/-! ## What windows count -/

namespace Histogram

theorem getD_addTo (h : Histogram) (name name' : String) (n : Nat) :
    (h.addTo name n).getD name' 0 = h.getD name' 0 + if name = name' then n else 0 := by
  unfold addTo
  by_cases hname : name = name'
  · subst hname
    simp
  · simp [Std.ExtTreeMap.getD_insert, hname]

/-- One is added for every name in a list. -/
theorem getD_foldl_addTo (names : List String) (h : Histogram) (name : String) :
    (names.foldl (fun h name => h.addTo name 1) h).getD name 0 =
      h.getD name 0 + names.count name := by
  induction names generalizing h with
  | nil => rfl
  | cons n names ih =>
    rw [List.foldl_cons, ih, getD_addTo, List.count_cons]
    simp only [beq_iff_eq]
    omega

end Histogram

namespace Window

/-- From a window to another one exactly these records are counted. -/
def Adds (w w' : Window) (records : List Figure) : Prop :=
  ∀ h, w'.read h = w.read h + records.count h

namespace Adds

variable {w w' w'' : Window} {records records' : List Figure}

theorem refl (w : Window) : w.Adds w [] := fun _ => rfl

theorem trans (h : w.Adds w' records) (h' : w'.Adds w'' records') :
    w.Adds w'' (records ++ records') := by
  intro figure
  rw [h', h, List.count_append, Nat.add_assoc]

/-- A loop counts what its rounds count. -/
theorem foldl {α : Type} {f : Window → α → Window} {records : α → List Figure}
    (hf : ∀ (w : Window) a, w.Adds (f w a) (records a)) (l : List α) (w : Window) :
    w.Adds (l.foldl f w) (l.flatMap records) := by
  induction l generalizing w with
  | nil => exact refl w
  | cons a l ih => exact (hf w a).trans (ih _)

/-- A loop counts nothing if its rounds do not. -/
theorem foldlM {α σ : Type} {f : Window → α → StateM σ Window}
    (hf : ∀ (w : Window) a s, w.Adds ((f w a).run s).1 []) (l : List α) (w : Window) (s : σ) :
    w.Adds ((l.foldlM f w).run s).1 [] :=
  run_foldlM_of_mem (I := fun w' _ => w.Adds w' []) (refl w) fun a _ w' s' h => h.trans (hf w' a s')

end Adds

/-- A status is replaced by one that has counted something more. -/
theorem adds_putStatus {w : Window} {r : Registry} {id : String} {st : Status}
    {records : List Figure}
    (htally : ∀ t, st.tallies.get t = (w.status r id).tallies.get t + records.count (.tally id t))
    (hevent : ∀ name,
      st.eventCount name = (w.status r id).eventCount name + records.count (.event id name))
    (hids : ∀ h ∈ records, (∃ t, h = .tally id t) ∨ ∃ name, h = .event id name) :
    w.Adds (w.putStatus id st) records := by
  -- there is no record of any other figure
  have hother {h : Figure} (ht : ∀ t, h ≠ .tally id t) (he : ∀ name, h ≠ .event id name) :
      records.count h = 0 := by
    rw [List.count_eq_zero]
    intro hmem
    rcases hids h hmem with ⟨t, e⟩ | ⟨name, e⟩
    · exact ht t e
    · exact he name e
  intro h
  cases h with
  | auctions => rw [hother (by simp) (by simp)]; rfl
  | auctionsOf accountId => rw [hother (by simp) (by simp)]; rfl
  | loss id' competitor => rw [hother (by simp) (by simp)]; rfl
  | tally id' t =>
    refine (countOf_putStatus (·.tallies.get t) w id st id').trans ?_
    by_cases hid : id' = id
    · subst hid
      rw [if_pos rfl, htally, countOf_status (Status.isCount_tally t)]
      rfl
    · rw [if_neg hid, hother (by simp [hid]) (by simp)]
      rfl
  | event id' name =>
    refine (countOf_putStatus (·.eventCount name) w id st id').trans ?_
    by_cases hid : id' = id
    · subst hid
      rw [if_pos rfl, hevent, countOf_status (Status.isCount_eventCount name)]
      rfl
    · rw [if_neg hid, hother (by simp) (by simp [hid])]
      rfl

theorem adds_count (r : Registry) (t : Tally) (w : Window) (id : String) :
    w.Adds (count r t w id) [.tally id t] := by
  refine adds_putStatus (r := r) (fun u => ?_) (fun name => ?_) (by simp)
  · refine (Tallies.get_add _ t u 1).trans ?_
    simp [List.count_singleton]
  · simp [Status.add, Status.eventCount]

theorem adds_recordWin (w : Window) (r : Registry) (id : String) :
    w.Adds (w.recordWin r id) [.event id winEvent] := by
  refine adds_putStatus (r := r) (fun t => ?_) (fun name => ?_) (by simp)
  · simp [Status.recordEvent]
  · refine (Histogram.getD_addTo _ winEvent name 1).trans ?_
    simp [List.count_singleton, Status.eventCount]

theorem adds_putCopy (w : Window) (r : Registry) (id : String) (q : Plan) :
    w.Adds (w.putCopy r id q) [] :=
  adds_putStatus (r := r) (fun _ => rfl) (fun _ => rfl) (by simp)

theorem adds_countAll (r : Registry) (w : Window) (entry : IdSet × Tally) :
    w.Adds (countAll r w entry) (AuctionLog.tallyRecords entry.2 entry.1) := by
  have h := Adds.foldl (adds_count r entry.2) entry.1.toList w
  rw [← List.map_eq_flatMap] at h
  exact h

theorem adds_recordServe (r : Registry) (classes : IdMap Int) (w : Window) (id : String)
    (s : Spending) : w.Adds ((recordServe r classes w id).run s).1 [] := by
  cases hp : (r.get? id).bind (·.plan) with
  | none =>
    rw [run_recordServe_of_none hp]
    exact .refl w
  | some p =>
    rw [run_recordServe_of_some hp]
    exact adds_putCopy w r id _

theorem adds_recordLosses (w : Window) (entry : String × IdSet) :
    w.Adds (recordLosses w entry) (AuctionLog.lossRecords entry) := by
  have hother {h : Figure} (hne : ∀ competitor, h ≠ .loss entry.1 competitor) :=
    AuctionLog.count_lossRecords_of_forall_ne hne
  intro h
  cases h with
  | auctions => rw [hother (by simp)]; rfl
  | auctionsOf accountId => rw [hother (by simp)]; rfl
  | tally id t => rw [hother (by simp)]; rfl
  | event id name => rw [hother (by simp)]; rfl
  | loss id competitor =>
    by_cases hid : id = entry.1
    · subst hid
      have hcount : (AuctionLog.lossRecords entry).count (.loss entry.1 competitor) =
          entry.2.toList.count competitor :=
        List.count_map_of_injective _ (Figure.loss entry.1 ·) (fun _ _ e => by simpa using e) _
      rw [hcount]
      simp only [read, losses, competitors, recordLosses, Std.ExtTreeMap.getD_insert_self]
      exact Histogram.getD_foldl_addTo _ _ competitor
    · rw [hother (by simp [hid])]
      simp [read, losses, competitors, recordLosses, Std.ExtTreeMap.getD_insert, Ne.symm hid]

theorem adds_request (w : Window) (accountId : String) :
    w.Adds { w with requests := w.requests + 1, accounts := w.accounts.addTo accountId 1 }
      [.auctions, .auctionsOf accountId] := by
  intro h
  cases h with
  | auctions => simp [read]
  | auctionsOf accountId' =>
    refine (Histogram.getD_addTo w.accounts accountId accountId' 1).trans ?_
    simp [read, List.count_cons]
  | tally id t => simp [read, tally]
  | event id name => simp [read, eventCount]
  | loss id competitor => simp [read, losses, competitors]

/-- A log is tallied as it records. -/
theorem adds_tallied (w : Window) (r : Registry) (log : AuctionLog) (accountId : String) :
    w.Adds (w.tallied r log accountId) ([.auctions, .auctionsOf accountId] ++
      Tally.all.flatMap fun t => (log.setsOf t).flatMap (AuctionLog.tallyRecords t)) := by
  have h := (adds_request w accountId).trans
    (.foldl (adds_countAll r) (tallySets log ++ tallySourceSets log) _)
  intro figure
  rw [List.count_append, ← log.count_tallySets figure, ← List.count_append]
  exact h figure

/-- An auction is counted as its log records. -/
theorem adds_recordLog (w : Window) (r : Registry) (log : AuctionLog)
    (classes : IdMap Int) (accountId : String) (s : Spending) :
    w.Adds ((w.recordAuction r log classes accountId).run s).1 (log.records accountId) := by
  rw [run_recordAuction]
  intro h
  -- the serves come between the tallies and the losses, and count nothing
  have hserves := (adds_tallied w r log accountId).trans
    (.foldlM (adds_recordServe r classes) log.sentToClientAsTopMatch.toList _ s)
  refine ((hserves.trans (.foldl adds_recordLosses _ _)) h).trans ?_
  rw [List.append_nil]
  rfl

/-- **An auction is counted as its log records**, once its serves are spent. -/
theorem adds_recordAuction (p : Progress) (r : Registry) (log : AuctionLog) (accountId : String)
    (s : Spending) :
    p.current.Adds ((p.recordAuction r log accountId).run s).1.2.current (log.records accountId) :=
  p.current.adds_recordLog _ log _ accountId _

theorem adds_trackPlan (w : Window) (r : Registry) (x : LineItem) (s : Spending) :
    w.Adds ((w.trackPlan r x).run s).1 [] := by
  cases hp : x.plan with
  | none =>
    rw [run_trackPlan_of_none hp]
    exact .refl w
  | some p =>
    rw [run_trackPlan_of_some hp]
    exact adds_putCopy w r x.id _

theorem adds_trackPlans (p : Progress) (r : Registry) (s : Spending) :
    p.overall.Adds ((p.trackPlans r).run s).1.overall [] ∧
      p.current.Adds ((p.trackPlans r).run s).1.current [] := by
  refine run_foldlM_of_mem (I := fun (p' : Progress) _ =>
    p.overall.Adds p'.overall [] ∧ p.current.Adds p'.current []) ⟨.refl _, .refl _⟩
    fun x _ p' s' h => ?_
  exact ⟨h.1.trans (adds_trackPlan p'.overall r x s'), h.2.trans (adds_trackPlan p'.current r x _)⟩

/-! ## What closing and cleaning leave -/

theorem read_opened (now : Instant) (h : Figure) : (opened now).read h = 0 := by
  cases h <;> simp [read, opened, tally, eventCount, losses, competitors]

/-- Windows add up. -/
theorem read_merge {other : Window} (ho : other.Keyed) (w : Window) (r : Registry) (s : Spending)
    (h : Figure) : ((w.merge r other).run s).1.read h = w.read h + other.read h := by
  let counted : Window :=
    { w with
      requests := w.requests + other.requests
      accounts := w.accounts.merge other.accounts }
  -- adding statuses leaves what is counted of auctions
  have hloop := run_foldlM_of_mem (f := mergeStatus r) (l := other.statusList) (b := counted)
    (s := s) (I := fun w' _ => w'.requests = counted.requests ∧ w'.accounts = counted.accounts)
    ⟨rfl, rfl⟩ fun _ _ _ _ h => h
  cases h with
  | auctions => exact hloop.1
  | auctionsOf accountId =>
    rw [read, read, read, ← Histogram.getD_merge]
    exact congrArg (Std.ExtTreeMap.getD · accountId 0) hloop.2
  | tally id t => exact tally_merge ho w r s id t
  | event id name => exact eventCount_merge ho w r s id name
  | loss id competitor => exact losses_merge w r other s id competitor

/-- The line item is registered and did not end more than `ttl` seconds ago. -/
theorem isCurrent_iff {r : Registry} {now : Instant} {ttl : Int} {id : String} :
    isCurrent r now ttl id ↔
      ∃ x, r.get? id = some x ∧ now.nanosSince x.record.finish ≤ ttl * 1000000000 := by
  unfold isCurrent
  cases r.get? id <;> simp

/-- Cleaning leaves the counts of line items that are current. -/
theorem countOf_clean {f : Status → Nat} (hf : Status.IsCount f) (w : Window) {r : Registry}
    {now : Instant} {ttl : Int} {id : String} (hid : isCurrent r now ttl id) (plans : Nat) :
    (w.clean r now ttl plans).countOf f id = w.countOf f id := by
  have hretain (st : Status) : f (st.retainLatest plans) = f st := by
    unfold Status.retainLatest
    split
    · rfl
    · exact hf.plans st _
  unfold countOf clean
  rw [Std.ExtTreeMap.getElem?_map, Std.ExtTreeMap.getElem?_filter']
  cases w.statuses[id]? with
  | none => rfl
  | some st =>
    rw [Option.filter_some, if_pos hid]
    exact hretain st

end Window

/-! ## Runs of the engine -/

namespace Engine

/-- What a move records. -/
def Move.records : Move → List Figure
  | .auction log accountId => log.records accountId
  | .win id => [.event id winEvent]
  | _ => []

/-- The move forgets nothing of a figure. -/
def Spares (e : Engine) : Figure → Move → Prop
  | .tally id _, .clean now | .event id _, .clean now =>
    Window.isCurrent e.registry now e.progress.statusTtl id
  | .tally _ _, .forgetProgress _ | .event _ _, .forgetProgress _ | .loss _ _, .forgetProgress _ =>
    False
  | _, _ => True

/-- The value of a figure in both windows. -/
def shown (e : Engine) (h : Figure) : Nat := e.progress.overall.read h + e.progress.current.read h

variable {e : Engine} {h : Figure}

theorem shown_clean {now : Instant} (hs : e.Spares h (.clean now)) :
    (e.move (.clean now)).shown h = e.shown h := by
  refine congrArg (· + e.progress.current.read h) ?_
  cases h with
  | auctions => rfl
  | auctionsOf accountId => rfl
  | tally id t => exact Window.countOf_clean (Status.isCount_tally t) _ hs _
  | event id name => exact Window.countOf_clean (Status.isCount_eventCount name) _ hs _
  | loss id competitor => rfl

theorem shown_forgetProgress {ids : Option (List String)} (hs : e.Spares h (.forgetProgress ids)) :
    (e.move (.forgetProgress ids)).shown h = e.shown h := by
  cases h with
  | auctions => cases ids <;> rfl
  | auctionsOf accountId => cases ids <;> rfl
  | tally id t => exact hs.elim
  | event id name => exact hs.elim
  | loss id competitor => exact hs.elim

/-- A move that spares a figure adds what it records. -/
theorem Tidy.shown_move (ht : e.Tidy) {m : Move} (hs : e.Spares h m) :
    (e.move m).shown h = e.shown h + m.records.count h := by
  cases m with
  | auction log accountId =>
    have hcurrent := Window.adds_recordAuction e.progress e.registry log accountId e.spending h
    exact (congrArg (e.progress.overall.read h + ·) hcurrent).trans (Nat.add_assoc ..).symm
  | win id =>
    have hcurrent := Window.adds_recordWin e.progress.current e.registry id h
    exact (congrArg (e.progress.overall.read h + ·) hcurrent).trans (Nat.add_assoc ..).symm
  | trackPlans =>
    have hboth := Window.adds_trackPlans e.progress e.registry e.spending
    exact (congrArg₂ (· + ·) (hboth.1 h) (hboth.2 h) :)
  | handOver now =>
    -- what was counted moves on to the overall progress
    have hclosed : (e.progress.current.close now).Keyed := ⟨ht.keyed.lineItemId_eq⟩
    have hmerge := Window.read_merge hclosed e.progress.overall e.registry e.spending h
    exact congrArg₂ (· + ·) hmerge (Window.read_opened now h)
  | clean now => exact shown_clean hs
  | forgetProgress ids => exact shown_forgetProgress hs
  | removeLineItems ids => cases ids <;> rfl
  | update records plannerResponds now => rfl
  | setPlannerResponds plannerResponds => rfl
  | advance now => rfl
  | spend id => rfl
  | replaceBuffer buffer => rfl

/-- As long as all moves spare a figure, both windows count all that was recorded of it. -/
theorem shown_run (c : Config) (start : Instant) (moves : List Move) (h : Figure)
    (hs : ∀ done m, done ++ [m] <+: moves → (run c start done).Spares h m) :
    (run c start moves).shown h = (moves.flatMap Move.records).count h := by
  induction moves using List.reverseRecOn with
  | nil => exact congrArg₂ (· + ·) (Window.read_opened start h) (Window.read_opened start h)
  | append_singleton moves m ih =>
    have hbefore := ih fun done m' hdone => hs done m' (hdone.trans (List.prefix_append ..))
    rw [run_concat, (tidy_run c start moves).shown_move (hs moves m List.prefix_rfl), hbefore]
    simp [List.flatMap_append]

/-- What a cleaning leaves is bounded by the limits of the configuration. -/
theorem limits_run (c : Config) (start : Instant) (moves : List Move) :
    let p := (run c start moves).progress
    p.statusTtl = c.lineItemStatusTtlSecs ∧ p.keptPlans = c.cachedPlansNumber := by
  induction moves using List.reverseRecOn with
  | nil => exact ⟨rfl, rfl⟩
  | append_singleton moves m ih =>
    rw [run_concat]
    generalize run c start moves = e at ih ⊢
    cases m with
    | trackPlans =>
      exact run_foldlM_of_mem (I := fun (p : Progress) _ =>
        p.statusTtl = c.lineItemStatusTtlSecs ∧ p.keptPlans = c.cachedPlansNumber) ih
        fun _ _ _ _ h => h
    | removeLineItems ids => cases ids <;> exact ih
    | forgetProgress ids => cases ids <;> exact ih
    | _ => exact ih

/-- The time after which statuses are forgotten is that of the configuration. -/
theorem statusTtl_run (c : Config) (start : Instant) (moves : List Move) :
    (run c start moves).progress.statusTtl = c.lineItemStatusTtlSecs :=
  (limits_run c start moves).1

/-- **Nothing that is recorded is lost or counted twice.** Both windows together show how often the
auctions and wins of a run recorded a figure, as long as no progress is forgotten on request and the
line item is current whenever the overall progress is cleaned. -/
theorem recorded_once (c : Config) (start : Instant) (moves : List Move)
    (hforget : ∀ ids, .forgetProgress ids ∉ moves) (h : Figure)
    (hcurrent : ∀ id, h.lineItem? = some id → ∀ done now, done ++ [.clean now] <+: moves →
      ∃ x, (run c start done).registry.get? id = some x ∧
        now.nanosSince x.record.finish ≤ (c.lineItemStatusTtlSecs : Int) * 1000000000) :
    let e := run c start moves
    e.progress.overall.read h + e.progress.current.read h =
      (moves.flatMap Move.records).count h := by
  refine shown_run c start moves h fun done m hdone => ?_
  have hclean (now : Instant) (hm : m = .clean now) (id : String) (hid : h.lineItem? = some id) :
      let e := run c start done
      Window.isCurrent e.registry now e.progress.statusTtl id := by
    rw [Window.isCurrent_iff, statusTtl_run]
    exact hcurrent id hid done now (hm ▸ hdone)
  have hnot (ids : Option (List String)) : m ≠ .forgetProgress ids :=
    fun hm => hforget ids (hm ▸ hdone.subset (by simp))
  cases m with
  | clean now =>
    cases h with
    | tally id t => exact hclean now rfl id rfl
    | event id name => exact hclean now rfl id rfl
    | _ => trivial
  | forgetProgress ids => exact absurd rfl (hnot ids)
  | _ => cases h <;> trivial

/-- A line item is served, the window is closed, and it is served again and wins. -/
def servedTwice : List Move := [
  .update [twoHours [⟨1, 5⟩] [] (hour 0)] true (hour 0),
  .auction { sentToClientAsTopMatch := IdSet.ofList ["lineItem"] } "account",
  .handOver (hour 1),
  .clean (hour 1),
  .auction { sentToClientAsTopMatch := IdSet.ofList ["lineItem"] } "account",
  .win "lineItem"]

/-- Both serves are counted, one in each window. -/
theorem recorded_once_servedTwice :
    (∀ ids, .forgetProgress ids ∉ servedTwice) ∧
      (∀ done now, done ++ [.clean now] <+: servedTwice →
        ∃ x, (run {} (hour 0) done).registry.get? "lineItem" = some x ∧
          now.nanosSince x.record.finish ≤ (7200 : Int) * 1000000000) ∧
      let e := run {} (hour 0) servedTwice
      e.progress.overall.tally "lineItem" .sentToClientAsTopMatch = 1 ∧
        e.progress.current.tally "lineItem" .sentToClientAsTopMatch = 1 := by
  have hforget (ids : Option (List String)) : .forgetProgress ids ∉ servedTwice := by
    simp [servedTwice]
  have hcurrent : ∀ done now, done ++ [.clean now] <+: servedTwice →
      ∃ x, (run {} (hour 0) done).registry.get? "lineItem" = some x ∧
        now.nanosSince x.record.finish ≤ (7200 : Int) * 1000000000 := by
    rintro done now ⟨rest, hrest⟩
    -- the fourth move is the only one that cleans
    rcases done with _ | ⟨m₁, _ | ⟨m₂, _ | ⟨m₃, _ | ⟨m₄, _ | ⟨m₅, _ | ⟨m₆, done⟩⟩⟩⟩⟩⟩ <;>
      simp [servedTwice] at hrest
    obtain ⟨rfl, rfl, rfl, rfl, -⟩ := hrest
    exact Window.isCurrent_iff.mp (by decide +kernel)
  have hboth := recorded_once {} (hour 0) servedTwice hforget
    (.tally "lineItem" .sentToClientAsTopMatch) fun id hid => by
      obtain rfl : "lineItem" = id := by simpa [Figure.lineItem?] using hid
      exact hcurrent
  have hrecords : (servedTwice.flatMap Move.records).count
      (.tally "lineItem" .sentToClientAsTopMatch) = 2 := by decide +kernel
  have hoverall : (run {} (hour 0) servedTwice).progress.overall.tally "lineItem"
      .sentToClientAsTopMatch = 1 := by decide +kernel
  refine ⟨hforget, hcurrent, hoverall, ?_⟩
  simp only [Window.read, hoverall, hrecords] at hboth
  omega

end Engine

end DealPacing
