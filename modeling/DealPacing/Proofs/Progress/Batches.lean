import DealPacing.Proofs.Progress.Recording
import Mathlib.Algebra.Order.BigOperators.Group.List

/-!
# The auctions that are handed over

A closed window is handed over as a batch of reports, and every report of the batch shows the
auctions of the window. The batch is cut from the statuses of the window, so there is no report to
show them if the window has no status: its auctions are counted in the overall progress, but nobody
is told. All other auctions of a run are handed over once.

Two more results say when this matters. A window is without a status only if its auctions matched no
line item, and what was handed over waits in the buffer as long as there is room for it.

## Main definitions

* `ReportBatch.clientAuctions`: the auctions that a batch shows
* `Engine.Closing`, `Engine.closings`: the windows that moves hand over, with their batches

## Main results

* `Reporter.clientAuctions_batch`: a batch shows the auctions of its window, if there is a status
* `Engine.isEmpty_statuses_auction_iff`: an auction leaves a window without status if and only if it
  matches no line item
* `Engine.waiting_run`: a buffer with room keeps every batch
* `Engine.sum_requests_closings`: every auction is in one window
* `Engine.handed_over_iff`: all auctions are shown if and only if every window with auctions has a
  status
-/

namespace DealPacing

/-- The auctions that a batch shows, in its first report. -/
def ReportBatch.clientAuctions (b : ReportBatch) : Nat :=
  (b.reports.head?.map (·.clientAuctions)).getD 0

/-! ## What a batch shows -/

theorem reportedCount_le (n : Nat) : reportedCount n ≤ n := Nat.mod_le n _

theorem reportedCount_eq_iff {n : Nat} : reportedCount n = n ↔ n < Token.wordSize :=
  Nat.mod_eq_iff_lt (by decide)

theorem Window.statusList_eq_nil_iff {w : Window} : w.statusList = [] ↔ w.statuses.isEmpty := by
  rw [statusList, List.map_eq_nil_iff, ← List.isEmpty_iff, Std.ExtTreeMap.isEmpty_toList]

/-- A batch shows the auctions of its window, if the window has a status. -/
theorem Reporter.clientAuctions_batch (c : Reporter) (r : Registry) (s : Spending)
    (reportId : String) (w : Window) (overall : Option Window) (now : Option Instant) (size : Nat)
    (isOverall : Bool) :
    (c.batch r s reportId w overall now size isOverall).clientAuctions =
      if w.statuses.isEmpty then 0 else reportedCount w.requests := by
  unfold ReportBatch.clientAuctions batch
  by_cases hempty : w.statuses.isEmpty
  · -- there is nothing to cut into pieces
    rw [if_pos hempty, Window.statusList_eq_nil_iff.mpr hempty]
    simp [pieces]
  · have hne : w.statusList ≠ [] := fun h => hempty (Window.statusList_eq_nil_iff.mp h)
    obtain ⟨st, rest, hlist⟩ := List.exists_cons_of_ne_nil hne
    rw [if_neg hempty, hlist]
    simp [pieces, header]

/-! ## Which windows have a status -/

namespace Window

theorem mem_statuses_putStatus {w : Window} {id id' : String} {st : Status} :
    id' ∈ (w.putStatus id st).statuses ↔ id' ∈ w.statuses ∨ id' = id := by
  rw [putStatus, Std.ExtTreeMap.mem_insert, Std.LawfulEqCmp.compare_eq_iff_eq, or_comm, eq_comm]

/-- A loop makes the statuses that its rounds make. -/
theorem mem_statuses_foldl {α : Type} {f : Window → α → Window} {named : α → String → Prop}
    (hf : ∀ w a id, id ∈ (f w a).statuses ↔ id ∈ w.statuses ∨ named a id) (l : List α) (w : Window)
    (id : String) : id ∈ (l.foldl f w).statuses ↔ id ∈ w.statuses ∨ ∃ a ∈ l, named a id := by
  induction l generalizing w with
  | nil => simp
  | cons a l ih => simp [ih, hf, or_assoc]

theorem mem_statuses_countAll (r : Registry) (w : Window) (entry : IdSet × Tally) (id : String) :
    id ∈ (countAll r w entry).statuses ↔ id ∈ w.statuses ∨ id ∈ entry.1 := by
  have hloop := mem_statuses_foldl (f := count r entry.2) (fun w id' id => mem_statuses_putStatus)
    entry.1.toList w id
  simpa [countAll] using hloop

end Window

/-- The tables by which a log is counted list the sets of every tally. -/
theorem AuctionLog.mem_tallySets_iff (log : AuctionLog) {ids : IdSet} {t : Tally} :
    (ids, t) ∈ Window.tallySets log ++ Window.tallySourceSets log ↔ ids ∈ log.setsOf t := by
  cases t <;> simp [Window.tallySets, Window.tallySourceSets, setsOf]

namespace Window

/-- A line item that has a status keeps it, and gets no other one, when it is served. -/
theorem mem_statuses_recordServe {r : Registry} {w : Window} {id : String} (h : id ∈ w.statuses)
    (classes : IdMap Int) (s : Spending) (id' : String) :
    id' ∈ ((recordServe r classes w id).run s).1.statuses ↔ id' ∈ w.statuses := by
  cases hp : (r.get? id).bind (·.plan) with
  | none => rw [run_recordServe_of_none hp]
  | some p =>
    rw [run_recordServe_of_some hp]
    refine mem_statuses_putStatus.trans (or_iff_left_of_imp ?_)
    rintro rfl
    exact h

theorem statuses_foldl_recordLosses (entries : List (String × IdSet)) (w : Window) :
    (entries.foldl recordLosses w).statuses = w.statuses :=
  foldl_of_prefix (I := fun _ (w' : Window) => w'.statuses = w.statuses) rfl fun _ _ _ _ h => h

theorem mem_statuses_tallied (w : Window) (r : Registry) (log : AuctionLog)
    (accountId id : String) :
    id ∈ (w.tallied r log accountId).statuses ↔
      id ∈ w.statuses ∨ ∃ t, ∃ ids ∈ log.setsOf t, id ∈ ids := by
  refine (mem_statuses_foldl (mem_statuses_countAll r) _ _ id).trans (or_congr_right ?_)
  constructor
  · rintro ⟨⟨ids, t⟩, hentry, hid⟩
    exact ⟨t, ids, log.mem_tallySets_iff.mp hentry, hid⟩
  · rintro ⟨t, ids, hids, hid⟩
    exact ⟨(ids, t), log.mem_tallySets_iff.mpr hids, hid⟩

/-- **The line items that have a status after an auction**: those that had one, and those in the
sets of the log that are counted. -/
theorem mem_statuses_recordAuction (p : Progress) (r : Registry) (log : AuctionLog)
    (accountId : String) (s : Spending) (id : String) :
    id ∈ ((p.recordAuction r log accountId).run s).1.2.current.statuses ↔
      id ∈ p.current.statuses ∨ ∃ t, ∃ ids ∈ log.setsOf t, id ∈ ids := by
  rw [Progress.run_recordAuction]
  simp only [statuses_foldl_recordLosses]
  refine run_foldlM_of_mem (I := fun (w : Window) _ => ∀ id, id ∈ w.statuses ↔
    id ∈ p.current.statuses ∨ ∃ t, ∃ ids ∈ log.setsOf t, id ∈ ids)
    (fun id => mem_statuses_tallied ..) ?_ id
  intro served hserved w s' hw id'
  -- who is served has a status already, as one that was sent to the client
  have hmem : served ∈ w.statuses := by
    refine (hw served).mpr (Or.inr ⟨.sentToClientAsTopMatch, _, List.mem_singleton_self _, ?_⟩)
    simpa using hserved
  exact (mem_statuses_recordServe hmem _ s' id').trans (hw id')

end Window

/-! ## The windows of a run -/

namespace Engine

/-- A window that is handed over, and the batch of reports on it. -/
structure Closing where
  window : Window
  batch : ReportBatch

/-- The open window, when it is closed and handed over now. -/
def closing (e : Engine) (now : Instant) : Closing where
  window := e.progress.current.close now
  batch := ((e.progress.rotate e.registry e.nextReportId now).run e.spending).1.2.1

/-- The window that a move hands over, if it hands one over. -/
def closedBy (e : Engine) : Move → List Closing
  | .handOver now => [e.closing now]
  | _ => []

/-- The windows that moves hand over, the first one first. -/
def closings (e : Engine) : List Move → List Closing
  | [] => []
  | m :: moves => e.closedBy m ++ (e.move m).closings moves

/-- The move is an auction. -/
def Move.isAuction : Move → Bool
  | .auction _ _ => true
  | _ => false

variable {e : Engine}

/-- The batch shows the auctions of the window, if the window has a status. -/
theorem clientAuctions_closing (e : Engine) (now : Instant) :
    (e.closing now).batch.clientAuctions =
      if (e.closing now).window.statuses.isEmpty then 0
      else reportedCount (e.closing now).window.requests :=
  Reporter.clientAuctions_batch ..

/-- Windows that were handed over show their auctions as they were. -/
theorem clientAuctions_of_mem_closings {moves : List Move} {x : Closing}
    (hx : x ∈ e.closings moves) :
    x.batch.clientAuctions =
      if x.window.statuses.isEmpty then 0 else reportedCount x.window.requests := by
  induction moves generalizing e with
  | nil => cases hx
  | cons m moves ih =>
    rcases List.mem_append.mp hx with hx | hx
    · cases m with
      | handOver now => exact List.mem_singleton.mp hx ▸ e.clientAuctions_closing now
      | _ => cases hx
    · exact ih hx

/-- **An auction leaves the open window without a status if and only if the window had none and the
log lists no line item** in the sets that are counted. -/
theorem isEmpty_statuses_auction_iff (e : Engine) (log : AuctionLog) (accountId : String) :
    (e.move (.auction log accountId)).progress.current.statuses.isEmpty ↔
      e.progress.current.statuses.isEmpty ∧ ∀ t, ∀ ids ∈ log.setsOf t, ids.isEmpty := by
  have hmem := Window.mem_statuses_recordAuction e.progress e.registry log accountId e.spending
  simp only [Std.ExtTreeMap.isEmpty_iff, Std.ExtTreeMap.eq_empty_iff_forall_not_mem,
    Std.ExtTreeSet.isEmpty_iff, Std.ExtTreeSet.eq_empty_iff_forall_not_mem]
  constructor
  · intro hnone
    have hboth (id : String) := not_or.mp (mt (hmem id).mpr (hnone id))
    exact ⟨fun id => (hboth id).1, fun t ids hids id hid => (hboth id).2 ⟨t, ids, hids, hid⟩⟩
  · rintro ⟨hbefore, hlog⟩ id hid
    rcases (hmem id).mp hid with hid | ⟨t, ids, hids, hid⟩
    · exact hbefore id hid
    · exact hlog t ids hids id hid

/-! ### The buffer -/

/-- A batch joins the end of a buffer with room. -/
theorem buffer_handOver (hconsumer : e.buffer.hasConsumer)
    (hroom : e.buffer.waiting.length < e.buffer.capacity) (now : Instant) :
    (e.move (.handOver now)).buffer =
      { e.buffer with waiting := e.buffer.waiting ++ [(e.closing now).batch] } := by
  have haccept : (e.move (.handOver now)).buffer =
      (e.buffer.accept (e.closing now).batch).1 := rfl
  have hpush : e.buffer.push (e.closing now).batch =
      .ok { e.buffer with waiting := e.buffer.waiting ++ [(e.closing now).batch] } := by
    simp [ReportBuffer.push, hconsumer, hroom]
  rw [haccept, ReportBuffer.accept, hpush]

/-- Nothing but batches gets into the buffer. -/
theorem buffer_move {m : Move} (hreplace : ∀ buffer, m ≠ .replaceBuffer buffer)
    (hconsumer : e.buffer.hasConsumer)
    (hroom : e.buffer.waiting.length + (e.closedBy m).length ≤ e.buffer.capacity) :
    (e.move m).buffer =
      { e.buffer with waiting := e.buffer.waiting ++ (e.closedBy m).map (·.batch) } := by
  have hnone : e.buffer = { e.buffer with waiting := e.buffer.waiting ++ [] } := by simp
  cases m with
  | handOver now => exact buffer_handOver hconsumer hroom now
  | replaceBuffer buffer => exact absurd rfl (hreplace buffer)
  | removeLineItems ids => cases ids <;> exact hnone
  | forgetProgress ids => cases ids <;> exact hnone
  | _ => exact hnone

theorem buffer_foldl {moves : List Move} (hreplace : ∀ buffer, .replaceBuffer buffer ∉ moves)
    (hconsumer : e.buffer.hasConsumer)
    (hroom : e.buffer.waiting.length + (e.closings moves).length ≤ e.buffer.capacity) :
    (moves.foldl move e).buffer =
      { e.buffer with waiting := e.buffer.waiting ++ (e.closings moves).map (·.batch) } := by
  induction moves generalizing e with
  | nil => simp [closings]
  | cons m moves ih =>
    rw [closings, List.length_append] at hroom
    have hfirst := buffer_move (fun buffer h => hreplace buffer (by simp [h])) hconsumer
      (m := m) (by omega)
    rw [List.foldl_cons, ih fun buffer hmem => hreplace buffer (List.mem_cons_of_mem m hmem)]
    · simp [hfirst, closings]
    · rw [hfirst]
      exact hconsumer
    · rw [hfirst]
      simp only [List.length_append, List.length_map]
      omega

/-- **A buffer with room keeps every batch**, as long as nobody takes them out. -/
theorem waiting_run (c : Config) (start : Instant) {moves : List Move}
    (hreplace : ∀ buffer, .replaceBuffer buffer ∉ moves)
    (hroom : ((Engine.start c start).closings moves).length ≤ c.reportBufferCapacity) :
    (run c start moves).buffer.waiting =
      ((Engine.start c start).closings moves).map (·.batch) := by
  have hcapacity : c.reportBufferCapacity ≤ (Engine.start c start).buffer.capacity :=
    Nat.le_max_left ..
  have hroom' := (Nat.zero_add _).trans_le (hroom.trans hcapacity)
  exact congrArg (·.waiting) (buffer_foldl (e := Engine.start c start) hreplace rfl hroom')

/-! ### The auctions of the windows -/

/-- An auction is in the window that is open, or is handed over with it. -/
theorem requests_move (e : Engine) (m : Move) :
    ((e.closedBy m).map (·.window.requests)).sum + (e.move m).progress.current.requests =
      e.progress.current.requests + if m.isAuction then 1 else 0 := by
  cases m with
  | auction log accountId =>
    have hadds := Window.adds_recordAuction e.progress e.registry log accountId e.spending .auctions
    rw [log.count_records_auctions] at hadds
    exact (Nat.zero_add _).trans hadds
  | trackPlans =>
    have hadds := (Window.adds_trackPlans e.progress e.registry e.spending).2 .auctions
    exact (Nat.zero_add _).trans hadds
  | forgetProgress ids => cases ids <;> exact Nat.zero_add _
  | removeLineItems ids => cases ids <;> exact Nat.zero_add _
  | handOver now => rfl
  | _ => exact Nat.zero_add _

/-- **Every auction is in one window**: in one that was handed over, or in the open one. -/
theorem sum_requests_closings (e : Engine) (moves : List Move) :
    ((e.closings moves).map (·.window.requests)).sum +
        (moves.foldl move e).progress.current.requests =
      e.progress.current.requests + moves.countP Move.isAuction := by
  induction moves generalizing e with
  | nil => exact Nat.zero_add _
  | cons m moves ih =>
    have hfirst := e.requests_move m
    have hrest := ih (e.move m)
    rw [closings, List.map_append, List.sum_append, List.foldl_cons, List.countP_cons]
    omega

/-- The window that is opened when another one is handed over has no auctions. -/
theorem requests_handOver_clean (e : Engine) (now : Instant) (cleaned : List Instant) :
    ((cleaned.map .clean).foldl move (e.move (.handOver now))).progress.current.requests = 0 := by
  induction cleaned using List.reverseRecOn with
  | nil => rfl
  | append_singleton cleaned now ih =>
    rw [List.map_append, List.foldl_append]
    exact ih

/-- **All auctions of a run are handed over if and only if every window with auctions has a
status**, for runs that end with a window that is handed over, be it cleaned afterwards or not.
What a batch shows is a word, so a window must not have more auctions than fit. -/
theorem handed_over_iff (c : Config) (start : Instant) (moves : List Move) (now : Instant)
    (cleaned : List Instant) :
    let all := moves ++ .handOver now :: cleaned.map .clean
    let closings := (Engine.start c start).closings all
    (closings.map (·.batch.clientAuctions)).sum = all.countP Move.isAuction ↔
      ∀ x ∈ closings, x.window.requests = 0 ∨
        ¬ x.window.statuses.isEmpty ∧ x.window.requests < Token.wordSize := by
  intro all closings
  have htotal : (closings.map (·.window.requests)).sum = all.countP Move.isAuction := by
    have hsum := (Engine.start c start).sum_requests_closings all
    have hlast : (all.foldl move (Engine.start c start)).progress.current.requests = 0 := by
      rw [List.foldl_append]
      exact requests_handOver_clean _ now cleaned
    have hfirst : (Engine.start c start).progress.current.requests = 0 := rfl
    rwa [hlast, hfirst, Nat.add_zero, Nat.zero_add] at hsum
  -- no batch shows more than its window has, so the sums are equal if all summands are
  have hle : ∀ x ∈ closings, x.batch.clientAuctions ≤ x.window.requests := by
    intro x hx
    rw [clientAuctions_of_mem_closings hx]
    split
    · exact Nat.zero_le _
    · exact reportedCount_le _
  have heq : ∀ x ∈ closings, x.batch.clientAuctions = x.window.requests ↔
      (x.window.requests = 0 ∨
        ¬ x.window.statuses.isEmpty ∧ x.window.requests < Token.wordSize) := by
    intro x hx
    rw [clientAuctions_of_mem_closings hx]
    split
    · next hempty => simp [hempty, eq_comm]
    · next hempty =>
      rw [reportedCount_eq_iff]
      simp only [hempty, Bool.false_eq_true, not_false_eq_true, true_and]
      refine ⟨Or.inr, fun h => h.elim (fun hzero => hzero ▸ by decide) id⟩
  rw [← htotal]
  constructor
  · intro hsum x hx
    refine (heq x hx).mp (Nat.le_antisymm (hle x hx) (Nat.not_lt.mp fun hlt => ?_))
    exact (List.sum_lt_sum _ _ hle ⟨x, hx, hlt⟩).ne hsum
  · intro hall
    exact congrArg List.sum (List.map_congr_left fun x hx => (heq x hx).mpr (hall x hx))

/-- An auction that matches no line item is not handed over if its window has no other one. -/
theorem not_forall_handed_over :
    ¬ ∀ (c : Config) (start : Instant) (moves : List Move) (now : Instant) (cleaned : List Instant),
      let all := moves ++ .handOver now :: cleaned.map .clean
      (((Engine.start c start).closings all).map (·.batch.clientAuctions)).sum =
        all.countP Move.isAuction := by
  intro hall
  have hsum := hall {} (hour 0) [.auction {} "account"] (hour 1) []
  revert hsum
  decide +kernel

end Engine

end DealPacing
