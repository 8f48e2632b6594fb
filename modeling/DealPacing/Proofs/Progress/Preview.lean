import DealPacing.Proofs.Progress.WindowValues

/-!
# The report on all windows as a preview

The report on all windows adds the open window to a duplicate of the overall progress, as if it
were closed, and forgets the sum. The duplicate shares its plans with the overall progress, but
plans that are added up are replaced: counters are opened for the sum, and none that a plan counts
in is moved. The report shows values only, so it is the same whatever counters were opened before.
Hence it is the report that will be made once the window is closed.

## Main definitions

* `Window.duplicate`: a window that shares its plans with another
* `Engine.plans`: the plans of the registry and of both windows
* `Engine.preview`: the report on all windows, and the engine that it leaves

## Main results

* `Reporter.report_eq_of_value_eq`: a report on all windows shows values only
* `Window.Keyed.duplicate_eq`: a duplicate shows what the window shows
* `Engine.Tidy.overallReport_eq_of_keeps`: whatever counters are opened, the report is the same
* `Engine.overallReport_shutDown`: the report once the open window is closed
* `Engine.preview_run`: reports on all windows are previews, along every run
-/

namespace DealPacing

/-! ## Reports show values -/

section Lists

variable {α β γ δ : Type} {f : α → γ} {g : β → γ} {l : List α} {l' : List β}

/-- Lists that look the same through `f` and `g` look the same through what these determine. -/
theorem map_eq_map_of_determined {F : α → δ} {G : β → δ} (h : l.map f = l'.map g)
    (hFG : ∀ {a b}, f a = g b → F a = G b) : l.map F = l'.map G := by
  induction l generalizing l' with
  | nil =>
    obtain rfl := List.map_eq_nil_iff.mp h.symm
    rfl
  | cons a l ih =>
    obtain ⟨b, m, rfl, hb, hm⟩ := List.map_eq_cons_iff.mp h.symm
    rw [List.map_cons, List.map_cons, hFG hb.symm, ih hm.symm]

theorem filterMap_eq_filterMap_of_determined {F : α → Option δ} {G : β → Option δ}
    (h : l.map f = l'.map g) (hFG : ∀ {a b}, f a = g b → F a = G b) :
    l.filterMap F = l'.filterMap G := by
  have hmap := congrArg (List.filterMap id) (map_eq_map_of_determined h hFG)
  rwa [List.filterMap_map, List.filterMap_map, Function.id_comp, Function.id_comp] at hmap

end Lists

variable {s s' : Spending}

namespace Plan

theorem report_eq_of_value_eq {p q : Plan} {p? q? : Option Plan} (h : p.value s = q.value s')
    (h? : p?.map (·.value s) = q?.map (·.value s')) : p.report p? s = q.report q? s' := by
  obtain ⟨hid, hstart, hfinish, hupdated, hbalances⟩ := PlanValue.mk.inj h
  -- the spend in all windows is looked up in a map that is made from pairs
  have hoverall : ((p?.map (·.tokens)).getD []).map (fun t => (t.priorityClass, t.spent s)) =
      ((q?.map (·.tokens)).getD []).map (fun t => (t.priorityClass, t.spent s')) := by
    cases p? with
    | none =>
      obtain rfl := Option.map_eq_none_iff.mp h?.symm
      rfl
    | some p' =>
      obtain ⟨q', rfl, hvalue⟩ := Option.map_eq_some_iff.mp h?.symm
      refine map_eq_map_of_determined (PlanValue.mk.inj hvalue.symm).2.2.2.2 fun hb => ?_
      obtain ⟨hclass, -, hspent⟩ := Balance.mk.inj hb
      exact congrArg₂ Prod.mk hclass hspent
  simp only [report, hid, hstart, hfinish, hupdated, hoverall]
  refine congrArg (ScheduleReport.mk _ _ _ _) (map_eq_map_of_determined hbalances fun hb => ?_)
  obtain ⟨hclass, htotal, hspent⟩ := Balance.mk.inj hb
  rw [hclass, htotal, hspent]

end Plan

namespace Status

theorem map_value_plan? (st : Status) (planId : String) (s : Spending) :
    (st.plan? planId).map (·.value s) = (st.value s).plans.find? (·.id == planId) := by
  simp only [value, List.find?_map]
  rfl

theorem map_value_mergeSort (ps : List Plan) (s : Spending) :
    (ps.mergeSort fun p q => decide (p.id ≤ q.id)).map (·.value s) =
      (ps.map (·.value s)).mergeSort fun u v => decide (u.id ≤ v.id) :=
  List.map_mergeSort fun _ _ _ _ => rfl

theorem scheduleReports_eq_of_value_eq {st st' : Status} {overall overall' : Option Status}
    (h : st.value s = st'.value s')
    (hoverall : overall.map (·.value s) = overall'.map (·.value s')) (active : Option Plan) :
    st.scheduleReports overall active s = st'.scheduleReports overall' active s' := by
  -- plans are put in order by their ids, which are part of their values
  have hplans := congrArg (List.mergeSort · fun u v => decide (u.id ≤ v.id))
    (StatusValue.mk.inj h).2
  simp only [← map_value_mergeSort] at hplans
  have hempty := congrArg List.isEmpty hplans
  rw [List.isEmpty_map, List.isEmpty_map] at hempty
  -- the copies of a plan in the overall progress have one value
  have hcopy (planId : String) : (overall.bind (·.plan? planId)).map (·.value s) =
      (overall'.bind (·.plan? planId)).map (·.value s') := by
    have hfound := congrArg (Option.bind · fun u => u.plans.find? (·.id == planId)) hoverall
    simp only [Option.bind_map, Function.comp_def, ← map_value_plan?] at hfound
    rwa [Option.map_bind, Option.map_bind]
  simp only [scheduleReports, hempty]
  refine ite_congr rfl (fun _ => rfl) fun _ => map_eq_map_of_determined hplans fun hp => ?_
  refine Plan.report_eq_of_value_eq hp ?_
  rw [(PlanValue.mk.inj hp).1]
  exact hcopy _

end Status

namespace Reporter

variable {w w' : Window} {r : Registry}

theorem lineItem?_eq_of_value_eq (c : Reporter) {st st' : Status} (hst : st.value s = st'.value s')
    (hw : w.value s = w'.value s')
    (hr : ∀ {id p}, r.plan? id = some p → p.value s = p.value s') :
    c.lineItem? r s w (some w) true st = c.lineItem? r s' w' (some w') true st' := by
  obtain ⟨hrest, -⟩ := StatusValue.mk.inj hst
  obtain ⟨hid, hsource, hdeal, hext, haccount, htallies, hevents, -⟩ := Status.mk.inj hrest
  obtain ⟨-, -, -, haccounts, -, hlost⟩ := Window.mk.inj (WindowValue.mk.inj hw).1
  have hoverall : ((some w).bind (·.statuses[st.lineItemId]?)).map (·.value s) =
      ((some w').bind (·.statuses[st.lineItemId]?)).map (·.value s') := by
    have hstatuses := congrArg (·[st.lineItemId]?) (WindowValue.mk.inj hw).2
    simp only [Std.ExtTreeMap.getElem?_map] at hstatuses
    exact hstatuses
  have hschedules := Status.scheduleReports_eq_of_value_eq hst hoverall
    ((r.get? st.lineItemId).bind (·.plan))
  have hspent : ((r.get? st.lineItemId).bind (·.plan)).map (·.spentTokens s) =
      ((r.get? st.lineItemId).bind (·.plan)).map (·.spentTokens s') :=
    Option.map_congr fun p hp =>
      Plan.spentTokens_eq_of_balances_eq (PlanValue.mk.inj (hr hp)).2.2.2.2
  have hlosses : c.lostTo r w st.lineItemId = c.lostTo r w' st.lineItemId := by
    simp only [lostTo, Window.competitors, hlost]
  -- the line item, and with it the registered data and the active plan, is the same for both
  rw [hid] at hschedules hspent hlosses
  unfold lineItem?
  simp only [if_true, hid, hschedules, hspent, hlosses, Window.accountRequests?, haccounts, hsource,
    hdeal, hext, haccount, htallies, hevents]

/-- A report on all windows shows values only. -/
theorem report_eq_of_value_eq (c : Reporter) (hw : w.value s = w'.value s')
    (hr : ∀ {id p}, r.plan? id = some p → p.value s = p.value s') (reportId : String)
    (now : Option Instant) :
    c.report r s reportId w now true = c.report r s' reportId w' now true := by
  have hstatuses := congrArg WindowValue.statusList hw
  rw [Window.statusList_value, Window.statusList_value] at hstatuses
  obtain ⟨-, -, hrequests, -⟩ := Window.mk.inj (WindowValue.mk.inj hw).1
  simp only [report, header, if_true, hrequests]
  exact congrArg (ProgressReport.mk _ _ _ _ _ _ _ _)
    (filterMap_eq_filterMap_of_determined hstatuses fun hst => c.lineItem?_eq_of_value_eq hst hw hr)

end Reporter

/-! ## Duplicates -/

/-- Counts by name, entered one by one. -/
def Histogram.duplicate (h : Histogram) : Histogram :=
  h.toList.foldl (fun m entry => m.insert entry.1 entry.2) ∅

/-- The status with its counts added up anew. The plans are the same, not copies of them: they count
in the counters that they share with the status. -/
def Status.duplicate (st : Status) : Status :=
  { Status.new st.lineItemId with
    source := st.source
    dealId := st.dealId
    extLineItemId := st.extLineItemId
    accountId := st.accountId
    tallies := Tallies.zero.merge st.tallies
    events := Histogram.merge ∅ st.events
    plans := st.plans }

/-- The window with its counts and its statuses entered anew, each under its line item. -/
def Window.duplicate (w : Window) : Window :=
  { opened w.start with
    finish := w.finish
    requests := w.requests
    accounts := w.accounts.duplicate
    statuses := w.statusList.foldl (fun m st => m.insert st.lineItemId st.duplicate) ∅
    lostTo := w.lostTo.toList.foldl (fun m entry => m.insert entry.1 entry.2.duplicate) ∅ }

theorem IdMap.foldl_insert_eq {α : Type} {f : α → α} (hf : ∀ a, f a = a) (m : IdMap α) :
    m.toList.foldl (fun n entry => n.insert entry.1 (f entry.2)) ∅ = m := by
  refine Std.ExtTreeMap.ext_getElem? fun id => ?_
  rw [getElem?_foldl_toList (fun _ a => f a) ∅ m id]
  simp [hf]

theorem Histogram.duplicate_eq (h : Histogram) : h.duplicate = h :=
  IdMap.foldl_insert_eq (fun _ => rfl) h

theorem Status.duplicate_eq (st : Status) : st.duplicate = st := by
  have htallies : Tallies.zero.merge st.tallies = st.tallies :=
    congrArg Tallies.mk (Vector.ext fun i hi => by simp [Tallies.zero])
  have hevents : Histogram.merge ∅ st.events = st.events := by
    refine Std.ExtTreeMap.ext_getElem? fun name => ?_
    rw [Histogram.getElem?_merge]
    simp
  unfold duplicate
  rw [htallies, hevents]
  rfl

namespace Window

variable {w : Window} {r : Registry}

/-- A window whose statuses are kept under their ids is the same as its duplicate. -/
theorem Keyed.duplicate_eq (h : w.Keyed) : w.duplicate = w := by
  have hstatuses : w.statusList.foldl (fun m st => m.insert st.lineItemId st.duplicate) ∅ =
      w.statuses := by
    rw [statusList, List.foldl_map]
    refine Eq.trans (List.foldl_ext _ _ _ fun m entry hentry => ?_)
      (IdMap.foldl_insert_eq Status.duplicate_eq w.statuses)
    rw [h.lineItemId_eq (Std.ExtTreeMap.mem_toList_iff_getElem?_eq_some.mp hentry)]
  have hlost : w.lostTo.toList.foldl (fun m entry => m.insert entry.1 entry.2.duplicate) ∅ =
      w.lostTo := IdMap.foldl_insert_eq Histogram.duplicate_eq w.lostTo
  unfold duplicate
  rw [hstatuses, hlost, Histogram.duplicate_eq]
  rfl

namespace Keyed

theorem mergeStatus (h : w.Keyed) (hr : r.Keyed) (st : Status) (s : Spending) :
    ((Window.mergeStatus r w st).run s).1.Keyed :=
  h.putStatus (h.lineItemId_status hr st.lineItemId)

theorem merge (h : w.Keyed) (hr : r.Keyed) (other : Window) (s : Spending) :
    ((w.merge r other).run s).1.Keyed :=
  run_merge_of_mem (I := fun w _ => w.Keyed) ⟨h.lineItemId_eq⟩
    (fun st _ _ s' h' => h'.mergeStatus hr st s') fun _ _ _ h' => ⟨h'.lineItemId_eq⟩

theorem trackPlans_overall {p : Progress} (h : p.overall.Keyed) (hr : r.Keyed) (s : Spending) :
    ((p.trackPlans r).run s).1.overall.Keyed :=
  run_foldlM_of_mem (I := fun (p : Progress) _ => p.overall.Keyed) h fun x _ _ _ h' =>
    h'.trackPlan hr x _

theorem clean (h : w.Keyed) (r : Registry) (now : Instant) (ttl : Int) (plans : Nat) :
    (w.clean r now ttl plans).Keyed where
  lineItemId_eq := by
    intro id st hget
    rw [Window.clean, Std.ExtTreeMap.getElem?_map, Std.ExtTreeMap.getElem?_filter'] at hget
    obtain ⟨st', hst', rfl⟩ := Option.map_eq_some_iff.mp hget
    rw [← h.lineItemId_eq (Option.filter_eq_some_iff.mp hst').1]
    unfold Status.retainLatest
    split <;> rfl

end Keyed

end Window

/-- The statuses of the overall progress are kept under their ids, along every run. -/
theorem Engine.keyed_overall_run (c : Config) (start : Instant) (moves : List Move) :
    (run c start moves).progress.overall.Keyed := by
  induction moves using List.reverseRecOn with
  | nil => exact Window.keyed_opened start
  | append_singleton moves m ih =>
    obtain ⟨label, howned⟩ := (tidy_run c start moves).sound
    rw [run_concat]
    cases m with
    | trackPlans => exact ih.trackPlans_overall howned.keyed _
    | handOver now => exact ih.merge howned.keyed _ _
    | clean now => exact ih.clean _ _ _ _
    | forgetProgress ids =>
      cases ids with
      | some ids => exact ih.forget ids
      | none => exact ih.forgetAll
    | removeLineItems ids => cases ids <;> exact ih
    | _ => exact ih

/-! ## Previews -/

theorem Window.run_merge_opened (w : Window) (r : Registry) (now : Instant) (s : Spending) :
    (w.merge r (opened now)).run s = (w, s) :=
  rfl

/-- The active plans of the registered line items. -/
def Registry.plans (r : Registry) : List Plan := r.toList.filterMap (·.plan)

/-- The plans that are kept in the window. -/
def Window.plans (w : Window) : List Plan := w.statusList.flatMap (·.plans)

namespace Engine

variable {e : Engine}

/-- The plans of the registry and of both windows. -/
def plans (e : Engine) : List Plan :=
  e.registry.plans ++ e.progress.current.plans ++ e.progress.overall.plans

/-- The report on all windows, with the engine that is left when it is made. The open window is
added to a duplicate of the overall progress, whose plans are shared, and counters are opened for
the sum. -/
def preview (e : Engine) (now : Instant) : ProgressReport × Engine :=
  let sum := e.progress.overall.duplicate.merge e.registry e.progress.current
  let (overall, spending) := sum.run e.spending
  (e.progress.reporter.report e.registry spending e.nextReportId overall (some now) true,
    { e with spending })

/-- The report is that on the sum of both windows. -/
theorem preview_eq (hk : e.progress.overall.Keyed) (now : Instant) :
    let sum := e.progress.overall.merge e.registry e.progress.current
    e.preview now = (e.overallReport now, { e with spending := (sum.run e.spending).2 }) := by
  unfold preview
  rw [hk.duplicate_eq]
  rfl

namespace Tidy

/-- All plans count in open counters. -/
theorem isOpen_plans (h : e.Tidy) : ∀ p ∈ e.plans, p.IsOpen e.spending := by
  intro p hp
  rcases List.mem_append.mp hp with hp | hp
  · rcases List.mem_append.mp hp with hp | hp
    · obtain ⟨x, hx, hplan⟩ := List.mem_filterMap.mp hp
      obtain ⟨id, hget⟩ := Registry.exists_get?_of_mem_toList hx
      exact h.isOpen_active ((Registry.plan?_of_get? hget).trans hplan)
    · obtain ⟨st, hst, hp⟩ := List.mem_flatMap.mp hp
      exact h.isOpen_current.of_mem_statusList hst p hp
  · obtain ⟨st, hst, hp⟩ := List.mem_flatMap.mp hp
    exact h.overall.of_mem_statusList hst p hp

/-- The sum of both windows has the same value, whatever counters were opened before. -/
theorem value_merge_of_keeps (h : e.Tidy) {s : Spending} (hs : e.spending.Keeps s) :
    let sum := e.progress.overall.merge e.registry e.progress.current
    (sum.run s).1.value (sum.run s).2 = (sum.run e.spending).1.value (sum.run e.spending).2 := by
  intro sum
  rw [(h.overall.mono hs.isOpen).value_merge e.registry (h.isOpen_current.mono hs.isOpen),
    h.overall.value_merge e.registry h.isOpen_current, h.overall.value_eq_of_keeps hs,
    h.isOpen_current.value_eq_of_keeps hs]

/-- Whatever counters are opened, the report on all windows is the same. -/
theorem overallReport_eq_of_keeps (h : e.Tidy) {s : Spending} (hs : e.spending.Keeps s)
    (now : Instant) : { e with spending := s }.overallReport now = e.overallReport now := by
  have hsum := Opens.mergeWindow e.progress.overall e.registry e.progress.current
  refine Reporter.report_eq_of_value_eq _ (h.value_merge_of_keeps hs) (fun {id p} hp => ?_) _ _
  -- active plans show their spend as well, and no counter of theirs is moved by the sums
  have hp := h.isOpen_active hp
  rw [Plan.value_eq_of_keeps (hs.trans (hsum s)) hp, Plan.value_eq_of_keeps (hsum e.spending) hp]

end Tidy

/-- The report once the open window is closed: the new one adds nothing. -/
theorem overallReport_shutDown (e : Engine) (t now : Instant) :
    (e.shutDown t).1.overallReport now =
      { e.overallReport now with reportId := (e.shutDown t).1.nextReportId } := by
  have hnothing : ((e.shutDown t).1.progress.overall.merge (e.shutDown t).1.registry
      (e.shutDown t).1.progress.current).run (e.shutDown t).1.spending =
      (e.progress.overall.merge e.registry e.progress.current).run e.spending :=
    Window.run_merge_opened ..
  unfold overallReport Progress.overallReport
  rw [hnothing]
  rfl

/-- **Reports on all windows are previews**, along every run: such a report leaves the registry,
both windows and the values of all plans, and once the open window is closed, it is the same report
but for the id, be it made beforehand or not. -/
theorem preview_run (c : Config) (start : Instant) (moves : List Move) (now t : Instant) :
    let e := run c start moves
    let (report, e') := e.preview now
    report = e.overallReport now ∧ e'.registry = e.registry ∧ e'.progress = e.progress ∧
      e'.plans.map (·.value e'.spending) = e.plans.map (·.value e.spending) ∧
      { (e.shutDown t).1.overallReport now with reportId := report.reportId } = report ∧
      { (e'.shutDown t).1.overallReport now with reportId := report.reportId } = report := by
  intro e
  have htidy : e.Tidy := tidy_run c start moves
  have hkeeps := Opens.mergeWindow e.progress.overall e.registry e.progress.current e.spending
  have hsame := htidy.overallReport_eq_of_keeps hkeeps now
  rw [preview_eq (keyed_overall_run c start moves)]
  refine ⟨rfl, rfl, rfl, Plan.map_value_eq_of_keeps hkeeps htidy.isOpen_plans, ?_, ?_⟩
  · rw [overallReport_shutDown]
  · -- the counters that were opened for the first report do not matter for the second
    rw [overallReport_shutDown]
    exact congrArg (fun report : ProgressReport =>
      { report with reportId := (e.overallReport now).reportId }) hsame

end Engine

end DealPacing
