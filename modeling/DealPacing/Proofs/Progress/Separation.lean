import DealPacing.Proofs.Progress.Footprints
import DealPacing.Proofs.Registry.Convergence

/-!
# Spend counters are never shared

The registry, the overall progress, the open window and every window that was closed count in
counters of their own, whatever happens to the engine. Some operations hand counters on: a newer
revision of a plan counts on in those of the older one, and a duplicate of the overall progress
shares its plans. Others make copies with new counters. In no order of operations do two owners end
up with one counter, so a serve never shows twice.

## Main definitions

* `Separate`: footprints in a store that are apart from each other
* `Engine.Act`: the moves of the engine and the reports on all windows
* `Chronicle`: the engine with all windows that it closed

## Main results

* `Separate.renewed`: a footprint that is renewed stays apart from the others
* `Chronicle.Apart.step`: everything that happens keeps the footprints apart
* `Chronicle.serves_apart`: a serve shows where it was counted and nowhere else
-/

namespace DealPacing

/-! ## Footprints apart -/

/-- Footprints of open counters, each apart from the others. -/
structure Separate (s : Spending) (owned : List (Set Counter)) : Prop where
  isOpen : ∀ A ∈ owned, A ⊆ s.openCounters
  apart : owned.Pairwise Disjoint

namespace Separate

variable {s s' : Spending} {after : List (Set Counter)} {old new : Set Counter}

theorem perm {owned owned' : List (Set Counter)} (h : Separate s owned)
    (hperm : owned.Perm owned') : Separate s owned' where
  isOpen := fun A hA => h.isOpen A (hperm.mem_iff.mpr hA)
  apart := (hperm.pairwise_iff fun hd => Disjoint.symm hd).mp h.apart

theorem mono_store {owned : List (Set Counter)} (h : Separate s owned)
    (hs : s.openCounters ⊆ s'.openCounters) : Separate s' owned :=
  ⟨fun A hA => (h.isOpen A hA).trans hs, h.apart⟩

/-- What is apart from a footprint that is renewed is apart from the new one. -/
theorem disjoint (before : List (Set Counter)) (h : Separate s (before ++ old :: after))
    (hr : Renewed s s' old new) : ∀ A ∈ before ++ after, Disjoint new A := by
  -- in front of the others, the footprint is compared with each of them
  have hfront := h.perm List.perm_middle
  intro A hA
  refine hr.disjoint (hfront.isOpen A (List.mem_cons_of_mem _ hA)) ?_
  exact (List.pairwise_cons.mp hfront.apart).1 A hA

/-- A footprint that is renewed stays apart from the others. -/
theorem renewed (before : List (Set Counter)) (h : Separate s (before ++ old :: after))
    (hr : Renewed s s' old new) : Separate s' (before ++ new :: after) := by
  have hfront := h.perm List.perm_middle
  have hrest := (List.pairwise_cons.mp hfront.apart).2
  suffices Separate s' (new :: (before ++ after)) from this.perm List.perm_middle.symm
  refine ⟨fun A hA => ?_, List.pairwise_cons.mpr ⟨h.disjoint before hr, hrest⟩⟩
  rcases List.mem_cons.mp hA with rfl | hA
  · exact hr.opened
  · exact (hfront.isOpen A (List.mem_cons_of_mem _ hA)).trans hr.grows

/-- Counters may be dropped from a footprint. -/
theorem of_subset (before : List (Set Counter)) (h : Separate s (before ++ old :: after))
    (hsub : new ⊆ old) : Separate s (before ++ new :: after) :=
  h.renewed before (.of_subset (h.isOpen old (by simp)) hsub)

theorem insert_empty (before : List (Set Counter)) (h : Separate s (before ++ after)) :
    Separate s (before ++ ∅ :: after) := by
  suffices Separate s (∅ :: (before ++ after)) from this.perm List.perm_middle.symm
  refine ⟨fun A hA => ?_, List.pairwise_cons.mpr ⟨fun A _ => Set.empty_disjoint A, h.apart⟩⟩
  rcases List.mem_cons.mp hA with rfl | hA
  · exact Set.empty_subset _
  · exact h.isOpen A hA

end Separate

/-! ## The engine and its windows -/

namespace Engine

/-- What happens to an engine: a move, or a report on all windows. -/
inductive Act where
  | move (m : Move)
  | preview (now : Instant)

/-- The window that a move closes. -/
def closed? (e : Engine) : Move → Option Window
  | .handOver now => some (e.progress.current.close now)
  | _ => none

variable {e : Engine}

/-- Reports on all windows open counters only. -/
theorem keeps_preview (e : Engine) (now : Instant) : e.spending.Keeps (e.preview now).2.spending :=
  Opens.mergeWindow e.progress.overall.duplicate e.registry e.progress.current e.spending

theorem Tidy.preview (h : e.Tidy) (now : Instant) : (e.preview now).2.Tidy := by
  have hkeeps := e.keeps_preview now
  obtain ⟨label, howned⟩ := h.sound
  exact ⟨⟨label, howned.mono_store hkeeps.isOpen⟩, h.keyed, h.overall.mono hkeeps.isOpen⟩

end Engine

/-- An engine with all windows that it closed, the latest first. -/
structure Chronicle where
  engine : Engine
  closed : List Window

namespace Chronicle

/-- What comes of a chronicle when something happens. -/
def step (h : Chronicle) : Engine.Act → Chronicle
  | .move m => ⟨h.engine.move m, (h.engine.closed? m).toList ++ h.closed⟩
  | .preview now => { h with engine := (h.engine.preview now).2 }

/-- The chronicle of an engine from its start. -/
def run (c : Config) (start : Instant) (acts : List Engine.Act) : Chronicle :=
  acts.foldl step ⟨Engine.start c start, []⟩

/-- The footprints of the registry, the overall progress, the open window and the closed ones. -/
def footprints (h : Chronicle) : List (Set Counter) :=
  h.engine.registry.counters :: h.engine.progress.overall.counters ::
    h.engine.progress.current.counters :: h.closed.map Window.counters

/-- All footprints are apart. -/
structure Apart (h : Chronicle) : Prop where
  tidy : h.engine.Tidy
  separate : Separate h.engine.spending h.footprints

/-! ## What happens keeps the footprints apart -/

section Operations

variable {r : Registry} {p : Progress} {s : Spending} {rest : List (Set Counter)}

/-- An auction leaves the plans of the registry, and renews the footprint of the open window. -/
theorem separate_recordAuction {label : Counter → Owner × Int} (howned : Owned r p.current s label)
    (h : Separate s (r.counters :: p.overall.counters :: p.current.counters :: rest))
    (log : AuctionLog) (accountId : String) :
    let out := (p.recordAuction r log accountId).run s
    Separate out.2 (out.1.1.counters :: out.1.2.overall.counters ::
      out.1.2.current.counters :: rest) := by
  intro out
  obtain ⟨-, hplans, -⟩ := howned.spendAll (Owned.nodup_toList log.sentToClientAsTopMatch)
  -- the serves are taken first, which opens no counters and leaves the plans of the registry
  have hgrows := Raises.foldlM Raises.serve log.sentToClientAsTopMatch.toList (r, ∅) s
  simp only [out, Progress.run_recordAuction]
  rw [Progress.run_foldlM_serve] at hgrows ⊢
  generalize (Progress.spendAll log.sentToClientAsTopMatch.toList r).run s = taken at *
  obtain ⟨⟨r', serves⟩, s₁⟩ := taken
  have hserved : Separate s₁ (r'.counters :: p.overall.counters ::
      (p.current.tallied r' log accountId).counters :: rest) := by
    rw [Registry.counters_eq_of_plan? hplans,
      Window.counters_eq_of_copies (Window.copies_tallied ..)]
    exact h.mono_store fun _ => hgrows.isOpen
  -- then they are counted in the open window, one line item after the other
  rw [Window.counters_eq_of_copies (Window.copies_foldl_recordLosses _ _)]
  refine run_foldlM_of_mem (I := fun (w : Window) s =>
    Separate s (r'.counters :: p.overall.counters :: w.counters :: rest)) hserved ?_
  intro id _ w s h'
  exact h'.renewed [r'.counters, p.overall.counters]
    (Window.renewed_recordServe (h'.isOpen _ (by simp)) _ id)

/-- Tracking renews the footprints of both windows, one line item after the other. -/
theorem separate_trackPlans
    (h : Separate s (r.counters :: p.overall.counters :: p.current.counters :: rest)) :
    let out := (p.trackPlans r).run s
    Separate out.2 (r.counters :: out.1.overall.counters :: out.1.current.counters :: rest) := by
  refine run_foldlM_of_mem (I := fun (p : Progress) s =>
    Separate s (r.counters :: p.overall.counters :: p.current.counters :: rest)) h ?_
  intro x _ p s h'
  have hoverall := h'.renewed [r.counters]
    (Window.renewed_trackPlan (h'.isOpen _ (by simp)) r x)
  exact hoverall.renewed [r.counters, _]
    (Window.renewed_trackPlan (hoverall.isOpen _ (by simp)) r x)

end Operations

namespace Apart

variable {h : Chronicle}

theorem move (ha : h.Apart) (m : Engine.Move) : (h.step (.move m)).Apart := by
  obtain ⟨label, howned⟩ := ha.tidy.sound
  have hs := ha.separate
  refine ⟨ha.tidy.move m, ?_⟩
  cases m with
  | update records plannerResponds now =>
    exact hs.renewed []
      (Registry.renewed_update howned h.engine.pricing records plannerResponds now)
  | advance now => exact hs.renewed [] (Registry.renewed_advance howned now)
  | removeLineItems ids =>
    cases ids <;> exact hs.of_subset [] (Registry.counters_eraseAll _ _)
  | spend id =>
    have hgrows := Raises.spend h.engine.registry id h.engine.spending
    refine (hs.mono_store fun _ => hgrows.isOpen).of_subset [] ?_
    exact (Registry.counters_eq_of_plan? (howned.spend id).plan?_eq).subset
  | auction log accountId => exact separate_recordAuction howned hs log accountId
  | win id =>
    refine hs.of_subset [_, _] ?_
    exact (Window.counters_eq_of_copies (Window.copies_recordWin _ _ id)).subset
  | trackPlans => exact separate_trackPlans hs
  | handOver now =>
    -- the sums have new counters, and the window that was closed takes its own along
    have hmerged := hs.renewed [_] (Window.renewed_merge ha.tidy.overall.counters_subset
      h.engine.registry (h.engine.progress.current.close now))
    have hopened := hmerged.insert_empty [_, _]
    rw [← Window.counters_opened now] at hopened
    exact hopened
  | clean now =>
    exact hs.of_subset [_] (Window.counters_subset (Window.copies_clean_subset _ _ _ _ _))
  | forgetProgress ids =>
    cases ids with
    | some ids =>
      have hoverall := hs.of_subset [_] (Window.counters_subset (Window.copies_forget_subset _ ids))
      exact hoverall.of_subset [_, _] (Window.counters_subset (Window.copies_forget_subset _ ids))
    | none =>
      have hoverall := hs.of_subset [_] (Window.counters_subset (Window.copies_forgetAll_subset _))
      exact hoverall.of_subset [_, _] (Window.counters_subset (Window.copies_forgetAll_subset _))
  | setPlannerResponds plannerResponds => exact hs
  | replaceBuffer buffer => exact hs

/-- Everything that happens keeps the footprints apart. -/
theorem step (ha : h.Apart) (act : Engine.Act) : (h.step act).Apart := by
  cases act with
  | move m => exact ha.move m
  | preview now =>
    have hkeeps := h.engine.keeps_preview now
    exact ⟨ha.tidy.preview now, ha.separate.mono_store fun _ => hkeeps.isOpen⟩

end Apart

theorem apart_run (c : Config) (start : Instant) (acts : List Engine.Act) :
    (run c start acts).Apart := by
  refine foldl_of_prefix (I := fun _ => Apart) ⟨Engine.tidy_start c start, ?_⟩
    fun _ act _ _ ha => ha.step act
  -- in the beginning there are no plans
  have hnone : Separate Spending.empty [] := ⟨by simp, List.Pairwise.nil⟩
  have hempty := ((hnone.insert_empty []).insert_empty []).insert_empty []
  have hfootprints : footprints ⟨Engine.start c start, []⟩ = [∅, ∅, ∅] :=
    congrArg₂ List.cons Registry.counters_empty
      (congrArg₂ List.cons (Window.counters_opened start)
        (congrArg₂ List.cons (Window.counters_opened start) rfl))
  rw [hfootprints]
  exact hempty

/-! ## Where serves show -/

/-- The line items, the overall progress and the windows that were closed show the same with another
store. -/
structure SameWith (h : Chronicle) (s : Spending) : Prop where
  items : ∀ id, h.engine.registry.value? s id = h.engine.value? id
  windows : ∀ w ∈ h.engine.progress.overall :: h.closed, w.value s = w.value h.engine.spending

namespace Apart

variable {h : Chronicle} {s s' : Spending} {A : Set Counter}

/-- A serve that is counted in the open window shows in that window only. -/
theorem sameWith (ha : h.Apart)
    (hr : Renewed h.engine.spending s h.engine.progress.current.counters A)
    (hcounts : CountsIn A h.engine.spending s') : h.SameWith s' := by
  have hopen := ha.separate.isOpen
  have hdisjoint := ha.separate.disjoint [_, _] hr
  constructor
  · intro id
    have hitem := h.engine.registry.countersOf_subset id
    exact Registry.value?_eq_of_countsIn hcounts (hitem.trans (hopen _ (by simp [footprints])))
      ((hdisjoint _ (by simp)).mono_right hitem)
  · intro w hw
    have hmem : w.counters ∈ h.engine.progress.overall.counters :: h.closed.map Window.counters :=
      List.mem_map_of_mem hw
    refine Window.value_eq_of_countsIn hcounts (hopen _ ?_) (hdisjoint _ ?_)
    · simp only [footprints, List.mem_cons] at hmem ⊢
      tauto
    · simp only [List.mem_append, List.mem_cons] at hmem ⊢
      tauto

/-- A serve of a line item shows in that line item only. -/
theorem value_spend (ha : h.Apart) (id : String) :
    let e' := (h.engine.spend id).1
    (∀ id', id' ≠ id → e'.value? id' = h.engine.value? id') ∧
      ∀ w ∈ h.engine.progress.overall :: h.engine.progress.current :: h.closed,
        w.value e'.spending = w.value h.engine.spending := by
  intro e'
  obtain ⟨label, howned⟩ := ha.tidy.sound
  have hcounts := h.engine.registry.countsIn_spend id h.engine.spending
  have hitem := h.engine.registry.countersOf_subset
  have hopen := ha.separate.isOpen
  constructor
  · -- within the registry, the owners keep the line items apart
    intro id' hne
    have hsame := Registry.value?_eq_of_countsIn hcounts
      ((hitem id').trans (hopen _ (by simp [footprints])))
      (Registry.disjoint_countersOf howned hne.symm)
    refine Eq.trans ?_ hsame
    exact congrArg (Option.map _) (Registry.get?_spend_of_ne hne ..)
  · intro w hw
    have hmem : w.counters ∈ h.engine.progress.overall.counters ::
        h.engine.progress.current.counters :: h.closed.map Window.counters :=
      List.mem_map_of_mem hw
    have hdisjoint := (List.pairwise_cons.mp ha.separate.apart).1 _ hmem
    exact Window.value_eq_of_countsIn hcounts (hopen _ (List.mem_cons_of_mem _ hmem))
      (hdisjoint.mono_left (hitem id))

end Apart

/-- **Spend counters are never shared**, along every run. A serve that is taken from a line item
shows in no other line item and in no window. A serve that is recorded in the open window, on any
plan and class that it keeps or for any line item, shows in no line item, nor in the overall
progress, nor in any window that was closed. -/
theorem serves_apart (c : Config) (start : Instant) (acts : List Engine.Act) :
    let h := run c start acts
    let e := h.engine
    (∀ id,
      let e' := (e.spend id).1
      e'.progress = e.progress ∧ (∀ id', id' ≠ id → e'.value? id' = e.value? id') ∧
        ∀ w ∈ e.progress.overall :: e.progress.current :: h.closed,
          w.value e'.spending = w.value e.spending) ∧
      (∀ q ∈ e.progress.current.plans, ∀ priorityClass,
        h.SameWith ((q.recordSpent priorityClass).run e.spending).2) ∧
      ∀ classes id,
        let serve := Window.recordServe e.registry classes e.progress.current id
        h.SameWith (serve.run e.spending).2 := by
  intro h e
  have ha : h.Apart := apart_run c start acts
  have hopen := ha.tidy.isOpen_current.counters_subset
  refine ⟨fun id => ⟨rfl, ha.value_spend id⟩, fun q hq priorityClass => ?_, fun classes id => ?_⟩
  · exact ha.sameWith (.of_subset hopen (Window.counters_subset_of_mem_plans hq))
      (q.countsIn_recordSpent priorityClass e.spending)
  · exact ha.sameWith (Window.renewed_recordServe hopen classes id)
      (Window.countsIn_recordServe e.registry classes e.progress.current id e.spending)

/-- A line item is served once and its window is closed. Its plan is tracked then, and there is a
report on all windows. -/
def keptEverywhere : List Engine.Act := [
  .move (.update [twoHours [⟨1, 5⟩] [] (hour 0)] true (hour 0)),
  .move (.auction { sentToClientAsTopMatch := IdSet.ofList ["lineItem"] } "account"),
  .move (.handOver (hour 0)),
  .move .trackPlans,
  .preview (hour 0)]

/-- The spend of a plan of a line item, in the registry and in all windows. -/
def spends (h : Chronicle) (id planId : String) : List (Option Nat) :=
  (h.engine.registry.plan? id).map (·.spentTokens h.engine.spending) ::
    (h.engine.progress.overall :: h.engine.progress.current :: h.closed).map fun w =>
      (w.copy? id planId).map (·.spentTokens h.engine.spending)

example : (run {} (hour 0) keptEverywhere).spends "lineItem" "first" =
    [some 1, some 1, some 0, some 1] := by decide +kernel

/-- The next serve is counted in the registry only. -/
example : (run {} (hour 0) (keptEverywhere ++ [.move (.spend "lineItem")])).spends
    "lineItem" "first" = [some 2, some 1, some 0, some 1] := by decide +kernel

end Chronicle

end DealPacing
