import DealPacing.Proofs.Engine.Runs
import DealPacing.Proofs.Progress.Merging

/-!
# What every move keeps of the progress

Statuses are made under the ids of their line items, and the copies of the overall progress count in
counters that are open. Both hold along every run, whatever the planner sends and in whatever order
windows are closed, cleaned and forgotten.

## Main definitions

* `Window.IsOpen`: all copies of a window count in open counters
* `Engine.Tidy`: what the growth of the overall progress rests on

## Main results

* `Window.Keyed.recordAuction`, `Window.Keyed.trackPlans`: statuses stay under their ids
* `Window.IsOpen.trackPlans`, `Window.IsOpen.merge`: copies stay open
* `Engine.tidy_run`: every run keeps the progress tidy
-/

namespace DealPacing

/-! ## Operations that open and raise counters -/

namespace Spending

/-- Every open counter of `s` is open in `s'`, with no smaller count. -/
structure Grows (s s' : Spending) : Prop where
  isOpen : ∀ {c}, s.IsOpen c → s'.IsOpen c
  get_le : ∀ {c}, s.IsOpen c → s.get c ≤ s'.get c

theorem Grows.trans {s s' s'' : Spending} (h : s.Grows s') (h' : s'.Grows s'') : s.Grows s'' :=
  ⟨fun hc => h'.isOpen (h.isOpen hc), fun hc => (h.get_le hc).trans (h'.get_le (h.isOpen hc))⟩

theorem Keeps.grows {s s' : Spending} (h : s.Keeps s') : s.Grows s' :=
  ⟨h.isOpen, fun hc => (h.get_eq hc).ge⟩

theorem grows_raised (s : Spending) (c : Counter) (n : Nat) : s.Grows (s.raised c n) where
  isOpen := (isOpen_raised s c _ n).mpr
  get_le := by
    intro d hd
    by_cases hdc : d = c
    · rw [hdc, get_raised_self (hdc ▸ hd)]
      exact Nat.le_add_right _ _
    · exact (get_raised_of_ne hdc s n).ge

end Spending

/-- A plan without a copy gets one with counters of its own. -/
theorem Opens.served (p : Plan) (q? : Option Plan) : Opens (Status.served p q?) := by
  intro s
  cases q? with
  | none => exact keeps_ofBalances _ s
  | some q => exact .refl s

/-- The computation opens and raises counters, and lowers none. -/
def Raises {α : Type} (m : StateM Spending α) : Prop := ∀ s : Spending, s.Grows (m.run s).2

namespace Raises

variable {α β : Type}

theorem foldlM {f : β → α → StateM Spending β} (hf : ∀ b a, Raises (f b a)) (l : List α) (b : β) :
    Raises (l.foldlM f b) := by
  intro s
  refine run_foldlM_of_mem (I := fun _ s' => s.Grows s') (Spending.Keeps.refl s).grows
    fun a _ b s' h => ?_
  exact h.trans (hf b a s')

theorem spend (r : Registry) (id : String) : Raises (r.spend id) := by
  intro s
  cases hx : r.get? id with
  | none =>
    rw [Registry.run_spend_of_none hx]
    exact (Spending.Keeps.refl s).grows
  | some x =>
    rw [Registry.run_spend_of_some hx]
    cases hp : x.plan with
    | none =>
      rw [LineItem.run_spend_of_none hp]
      exact (Spending.Keeps.refl s).grows
    | some p =>
      rw [LineItem.run_spend_of_some hp]
      cases p.unspentToken? s with
      | none => exact (Spending.Keeps.refl s).grows
      | some t => exact s.grows_raised t.counter 1

theorem serve (sofar : Registry × IdMap Int) (id : String) : Raises (Progress.serve sofar id) := by
  intro s
  obtain ⟨r, classes⟩ := sofar
  have hspend := spend r id s
  unfold Progress.serve
  simp only
  rw [run_bind_eq]
  generalize (r.spend id).run s = out at hspend ⊢
  obtain ⟨⟨r', spent⟩, s'⟩ := out
  -- the class of the serve is noted, which leaves the counters alone
  cases spent <;> exact hspend

theorem recordServe (r : Registry) (classes : IdMap Int) (w : Window) (id : String) :
    Raises (Window.recordServe r classes w id) := by
  intro s
  cases hp : (r.get? id).bind (·.plan) with
  | none =>
    rw [Window.run_recordServe_of_none hp]
    exact (Spending.Keeps.refl s).grows
  | some p =>
    have hserved := Opens.served p (w.copy? id p.id) s
    rw [Window.run_recordServe_of_some hp]
    simp only
    split
    · exact hserved.grows.trans (Spending.grows_raised _ _ 1)
    · exact hserved.grows

end Raises

/-! ## Statuses under their ids -/

theorem Window.run_recordAuction (w : Window) (r : Registry) (log : AuctionLog)
    (classes : IdMap Int) (accountId : String) (s : Spending) :
    (w.recordAuction r log classes accountId).run s =
      let served := (log.sentToClientAsTopMatch.toList.foldlM (Window.recordServe r classes)
        (w.tallied r log accountId)).run s
      ((log.lostMatchingTo.toList ++ log.lostAuctionTo.toList).foldl Window.recordLosses served.1,
        served.2) := rfl

theorem Progress.run_recordAuction (p : Progress) (r : Registry) (log : AuctionLog)
    (accountId : String) (s : Spending) :
    (p.recordAuction r log accountId).run s =
      let ids := log.sentToClientAsTopMatch.toList
      let taken := (ids.foldlM serve (r, ∅)).run s
      let served := (ids.foldlM (Window.recordServe taken.1.1 taken.1.2)
        (p.current.tallied taken.1.1 log accountId)).run taken.2
      let losses := log.lostMatchingTo.toList ++ log.lostAuctionTo.toList
      ((taken.1.1, { p with current := losses.foldl Window.recordLosses served.1 }), served.2) :=
  rfl

/-- The serves of an auction leave every line item registered under its id. -/
theorem Owned.keyed_served {r : Registry} {w : Window} {s : Spending}
    {label : Counter → Owner × Int} (h : Owned r w s label) (log : AuctionLog) :
    ((log.sentToClientAsTopMatch.toList.foldlM Progress.serve (r, ∅)).run s).1.1.Keyed := by
  rw [Progress.run_foldlM_serve]
  exact (h.spendAll (nodup_toList log.sentToClientAsTopMatch)).1.keyed

theorem Raises.recordAuction (p : Progress) (r : Registry) (log : AuctionLog) (accountId : String) :
    Raises (p.recordAuction r log accountId) := by
  intro s
  rw [Progress.run_recordAuction]
  exact (foldlM serve _ _ s).trans (foldlM (recordServe _ _) _ _ _)

namespace Window

theorem keyed_opened (now : Instant) : (opened now).Keyed := ⟨by simp [opened]⟩

namespace Keyed

variable {w : Window} {r : Registry}

theorem putStatus (h : w.Keyed) {id : String} {st : Status} (hst : st.lineItemId = id) :
    (w.putStatus id st).Keyed where
  lineItemId_eq := by
    intro id' st' hget
    rw [Window.putStatus, Std.ExtTreeMap.getElem?_insert] at hget
    split at hget
    · next hid =>
      rw [← Option.some.inj hget, hst]
      exact Std.LawfulEqCmp.eq_of_compare hid
    · exact h.lineItemId_eq hget

theorem lineItemId_status (h : w.Keyed) (hr : r.Keyed) (id : String) :
    (w.status r id).lineItemId = id := by
  unfold status
  cases hst : w.statuses[id]? with
  | some st => exact h.lineItemId_eq hst
  | none =>
    cases hx : r.get? id with
    | none => rfl
    | some x => exact hr.id_eq hx

theorem countAll (h : w.Keyed) (hr : r.Keyed) (entry : IdSet × Tally) :
    (Window.countAll r w entry).Keyed :=
  foldl_of_prefix (I := fun _ (w : Window) => w.Keyed) h fun _ id _ _ h' =>
    h'.putStatus (h'.lineItemId_status hr id)

theorem tallied (h : w.Keyed) (hr : r.Keyed) (log : AuctionLog) (accountId : String) :
    (w.tallied r log accountId).Keyed :=
  foldl_of_prefix (I := fun _ (w : Window) => w.Keyed) ⟨h.lineItemId_eq⟩ fun _ entry _ _ h' =>
    h'.countAll hr entry

theorem recordServe (h : w.Keyed) (hr : r.Keyed) (classes : IdMap Int) (id : String)
    (s : Spending) : ((Window.recordServe r classes w id).run s).1.Keyed := by
  cases hplan : (r.get? id).bind (·.plan) with
  | none =>
    rw [run_recordServe_of_none hplan]
    exact h
  | some p =>
    rw [run_recordServe_of_some hplan]
    exact h.putStatus (h.lineItemId_status hr id)

theorem recordLosses (h : w.Keyed) (entries : List (String × IdSet)) :
    (entries.foldl Window.recordLosses w).Keyed :=
  foldl_of_prefix (I := fun _ (w : Window) => w.Keyed) h fun _ _ _ _ h' => ⟨h'.lineItemId_eq⟩

theorem recordLog (h : w.Keyed) (hr : r.Keyed) (log : AuctionLog) (classes : IdMap Int)
    (accountId : String) (s : Spending) :
    ((w.recordAuction r log classes accountId).run s).1.Keyed := by
  rw [run_recordAuction]
  apply recordLosses
  exact run_foldlM_of_mem (I := fun (w : Window) _ => w.Keyed) (h.tallied hr log accountId)
    fun id _ _ s' h' => h'.recordServe hr classes id s'

theorem recordAuction {p : Progress} (h : p.current.Keyed) {s : Spending}
    {label : Counter → Owner × Int} (howned : Owned r p.current s label) (log : AuctionLog)
    (accountId : String) : ((p.recordAuction r log accountId).run s).1.2.current.Keyed := by
  -- statuses are made from the registry that the serves were taken from
  exact h.recordLog (howned.keyed_served log) log _ accountId _

theorem trackPlan (h : w.Keyed) (hr : r.Keyed) (x : LineItem) (s : Spending) :
    ((w.trackPlan r x).run s).1.Keyed := by
  cases hplan : x.plan with
  | none =>
    rw [run_trackPlan_of_none hplan]
    exact h
  | some p =>
    rw [run_trackPlan_of_some hplan]
    exact h.putStatus (h.lineItemId_status hr x.id)

theorem trackPlans {p : Progress} (h : p.current.Keyed) (hr : r.Keyed) (s : Spending) :
    ((p.trackPlans r).run s).1.current.Keyed :=
  run_foldlM_of_mem (I := fun (p : Progress) _ => p.current.Keyed) h fun x _ _ _ h' =>
    h'.trackPlan hr x _

theorem forget (h : w.Keyed) (ids : List String) : (w.forget ids).Keyed where
  lineItemId_eq := by
    intro id st hget
    rw [Window.forget, IdMap.getElem?_foldl_erase] at hget
    split at hget
    · cases hget
    · exact h.lineItemId_eq hget

theorem forgetAll (_ : w.Keyed) : w.forgetAll.Keyed := ⟨by simp [Window.forgetAll]⟩

end Keyed

/-! ## Open copies -/

/-- All copies count in open counters. -/
structure IsOpen (w : Window) (s : Spending) : Prop where
  isOpen : ∀ {id : String} {q : Plan}, q ∈ w.copies id → q.IsOpen s

theorem isOpen_opened (now : Instant) (s : Spending) : (opened now).IsOpen s where
  isOpen hq := by
    rw [copies_opened] at hq
    cases hq

namespace IsOpen

variable {w w' : Window} {s s' : Spending}

theorem copy (h : w.IsOpen s) {id planId : String} {q : Plan} (hq : w.copy? id planId = some q) :
    q.IsOpen s := h.isOpen (mem_of_copy? hq).1

theorem of_mem_statusList (h : w.IsOpen s) {st : Status} (hst : st ∈ w.statusList) :
    ∀ q ∈ st.plans, q.IsOpen s := by
  obtain ⟨id, hget⟩ := mem_statusList_iff.mp hst
  exact fun q hq => h.isOpen (copies_of_getElem? hget ▸ hq)

theorem mono (h : w.IsOpen s) (hs : ∀ {c}, s.IsOpen c → s'.IsOpen c) : w.IsOpen s' :=
  ⟨fun hq t ht => hs (h.isOpen hq t ht)⟩

/-- Copies may be dropped. -/
theorem of_subset (h : w.IsOpen s) (hw : ∀ id, w'.copies id ⊆ w.copies id) : w'.IsOpen s :=
  ⟨fun hq => h.isOpen (hw _ hq)⟩

theorem putStatus (h : w.IsOpen s) (hs : ∀ {c}, s.IsOpen c → s'.IsOpen c) {id : String}
    {st : Status} (hst : ∀ q ∈ st.plans, q.IsOpen s') : (w.putStatus id st).IsOpen s' where
  isOpen := by
    intro id' q hq
    rw [copies_putStatus] at hq
    split at hq
    · exact hst q hq
    · exact (h.mono hs).isOpen hq

theorem trackPlan (h : w.IsOpen s) (r : Registry) (x : LineItem) :
    ((w.trackPlan r x).run s).1.IsOpen ((w.trackPlan r x).run s).2 := by
  cases hp : x.plan with
  | none =>
    rw [run_trackPlan_of_none hp]
    exact h
  | some p =>
    have hcopy : ∀ q ∈ w.copy? x.id p.id, q.IsOpen s := fun q hq => h.copy hq
    have hcontinues := Status.tracked_continues (p := p) hcopy
    rw [run_trackPlan_of_some hp]
    refine h.putStatus hcontinues.keeps.isOpen fun q hq => ?_
    rcases Status.eq_or_mem_of_mem_upsert hq with rfl | hq
    · exact fun t => hcontinues.isOpen_of_mem
    · rw [plans_status] at hq
      exact fun t ht => hcontinues.keeps.isOpen (h.isOpen hq t ht)

theorem trackPlans {p : Progress} (h : p.overall.IsOpen s) (r : Registry) :
    ((p.trackPlans r).run s).1.overall.IsOpen ((p.trackPlans r).run s).2 :=
  run_foldlM_of_mem (I := fun (p : Progress) s => p.overall.IsOpen s) h fun x _ p _ h' =>
    (h'.trackPlan r x).mono (Opens.trackPlan p.current r x _).isOpen

theorem mergeStatus (h : w.IsOpen s) (r : Registry) (st : Status) :
    ((Window.mergeStatus r w st).run s).1.IsOpen ((Window.mergeStatus r w st).run s).2 := by
  have hloop : ∀ q ∈ (((w.status r st.lineItemId).merge st).run s).1.plans,
      q.IsOpen (((w.status r st.lineItemId).merge st).run s).2 := by
    refine run_foldlM_of_mem (I := fun (ps : List Plan) s => ∀ q ∈ ps, q.IsOpen s) (fun q hq => ?_)
      fun p _ ps s' h' => Status.isOpen_addPlan h' p
    rw [plans_status] at hq
    exact h.isOpen hq
  exact h.putStatus (opens_mergeStatus r w st s).isOpen hloop

theorem merge (h : w.IsOpen s) (r : Registry) (other : Window) :
    ((w.merge r other).run s).1.IsOpen ((w.merge r other).run s).2 :=
  run_merge_of_mem (I := IsOpen) ⟨h.isOpen⟩ (fun st _ _ _ h' => h'.mergeStatus r st)
    fun _ _ _ h' => ⟨h'.isOpen⟩

end IsOpen

theorem plans_retainLatest_subset (st : Status) (limit : Nat) :
    (st.retainLatest limit).plans ⊆ st.plans := by
  unfold Status.retainLatest
  split
  · exact List.Subset.refl _
  · exact fun q hq => List.mem_mergeSort.mp (List.mem_of_mem_take hq)

theorem copies_clean_subset (w : Window) (r : Registry) (now : Instant) (ttl : Int) (plans : Nat)
    (id : String) : (w.clean r now ttl plans).copies id ⊆ w.copies id := by
  unfold copies clean
  rw [Std.ExtTreeMap.getElem?_map, Std.ExtTreeMap.getElem?_filter']
  cases w.statuses[id]? with
  | none => exact List.Subset.refl _
  | some st =>
    rw [Option.filter_some]
    split
    · exact plans_retainLatest_subset st plans
    · exact List.nil_subset _

theorem copies_forgetAll_subset (w : Window) (id : String) :
    w.forgetAll.copies id ⊆ w.copies id := by
  rw [copies_forgetAll]
  exact List.nil_subset _

theorem copies_forget_subset (w : Window) (ids : List String) (id : String) :
    (w.forget ids).copies id ⊆ w.copies id := by
  rw [copies_forget]
  split
  · exact List.nil_subset _
  · exact List.Subset.refl _

end Window

/-! ## Runs -/

namespace Engine

/-- Statuses are kept under their ids, and the copies of the overall progress are open. -/
structure Tidy (e : Engine) : Prop where
  sound : e.Sound
  keyed : e.progress.current.Keyed
  overall : e.progress.overall.IsOpen e.spending

theorem tidy_start (c : Config) (now : Instant) : (start c now).Tidy :=
  ⟨sound_start c now, Window.keyed_opened now, Window.isOpen_opened now _⟩

variable {e : Engine}

theorem Tidy.isOpen_active (h : e.Tidy) {id : String} {p : Plan}
    (hp : e.registry.plan? id = some p) : p.IsOpen e.spending := by
  obtain ⟨label, howned⟩ := h.sound
  exact Plan.isOpen_of_labelled (howned.plan hp)

theorem Tidy.isOpen_current (h : e.Tidy) : e.progress.current.IsOpen e.spending := by
  obtain ⟨label, howned⟩ := h.sound
  exact ⟨fun hq => Plan.isOpen_of_labelled (howned.copies hq)⟩

/-- Every move keeps the progress tidy. -/
theorem Tidy.move (h : e.Tidy) (m : Move) : (e.move m).Tidy := by
  obtain ⟨label, howned⟩ := h.sound
  refine ⟨h.sound.move m, ?_, ?_⟩
  · -- the statuses of the open window
    cases m with
    | auction log accountId => exact h.keyed.recordAuction howned log accountId
    | win id => exact h.keyed.putStatus (h.keyed.lineItemId_status howned.keyed id)
    | trackPlans => exact h.keyed.trackPlans howned.keyed e.spending
    | handOver now => exact Window.keyed_opened now
    | forgetProgress ids =>
      cases ids with
      | some ids => exact h.keyed.forget ids
      | none => exact h.keyed.forgetAll
    | removeLineItems ids => cases ids <;> exact h.keyed
    | _ => exact h.keyed
  · -- the copies of the overall progress
    cases m with
    | update records plannerResponds now =>
      exact h.overall.mono (howned.update e.pricing records plannerResponds now).2.isOpen
    | advance now => exact h.overall.mono (howned.advance now).2.isOpen
    | trackPlans => exact h.overall.trackPlans e.registry
    | handOver now => exact h.overall.merge e.registry _
    | clean now => exact h.overall.of_subset (Window.copies_clean_subset _ _ _ _ _)
    | forgetProgress ids =>
      cases ids with
      | some ids => exact h.overall.of_subset (Window.copies_forget_subset _ ids)
      | none => exact h.overall.of_subset (Window.copies_forgetAll_subset _)
    | removeLineItems ids => cases ids <;> exact h.overall
    | spend id => exact h.overall.mono (Raises.spend e.registry id e.spending).isOpen
    | auction log accountId =>
      exact h.overall.mono (Raises.recordAuction e.progress e.registry log accountId _).isOpen
    | _ => exact h.overall

/-- Every run keeps the progress tidy. -/
theorem tidy_run (c : Config) (start : Instant) (moves : List Move) : (run c start moves).Tidy := by
  induction moves using List.reverseRecOn with
  | nil => exact tidy_start c start
  | append_singleton moves m ih =>
    rw [run_concat]
    exact ih.move m

end Engine

end DealPacing
