import DealPacing.Engine
import DealPacing.Proofs.Progress.Serves

/-!
# What the open window counts

The open window counts serves by line item, plan id and class. It counts exactly the serves that
its auctions took as long as every step is faithful: an auction must count for each line item the
serve that was taken from it, and a newer revision of a plan must not drop a class that the copy has
counted serves in. The planner can break both: by giving two plans the same id, by adding a class
that the copy in the window does not list yet, and by dropping a class within a window.

## Main definitions

* `Op`, `Engine.apply`: what can happen to the engine
* `Book`: an engine with the serves that the auctions of the open window took
* `Book.Exact`: the open window counts these serves
* `Engine.Faithful`: the steps that keep the count exact

## Main results

* `Owned.trackPlans`: keeping the active plans leaves all counts but those of dropped classes
* `Book.preserves_step`: a step keeps the count exact if it is faithful, and only then
* `Book.exact_iff_faithful`: the count is exact along a run if all steps are faithful, and only then
* `Book.exact_iff_faithful_of_rotate`: a new window starts over
* `Engine.faithful_auction`: different plan ids, and copies that list what is served, are enough
-/

namespace DealPacing

/-! ## Keeping the active plans -/

/-- Keeping the active plan of a line item drops a class: the active plan is a newer revision of the
copy, and does not list the class. -/
def Window.Drops (w : Window) (r : Registry) (id planId : String) (c : Int) : Prop :=
  ∃ p q, r.plan? id = some p ∧ p.id = planId ∧ w.copy? id planId = some q ∧ q.isSupersededBy p ∧
    c ∉ p.classes

theorem Window.drops_congr {w w' : Window} {id : String} (h : w'.copies id = w.copies id)
    (r : Registry) (planId : String) (c : Int) :
    w'.Drops r id planId c ↔ w.Drops r id planId c := by
  unfold Drops copy?
  rw [h]

namespace Owned

variable {r : Registry} {w : Window} {s s' : Spending} {label : Counter → Owner × Int}

/-- The window after the active plans of some line items were kept. -/
structure Tracking (r : Registry) (w : Window) (s : Spending) (done : List String) (w' : Window)
    (s' : Spending) : Prop where
  owned : ∃ label, Owned r w' s' label
  others : ∀ id, id ∉ done → w'.copies id = w.copies id
  dropped : ∀ id planId c, id ∈ done → w.Drops r id planId c → w'.spent id planId c s' = 0
  kept : ∀ id planId c, ¬ (id ∈ done ∧ w.Drops r id planId c) →
    w'.spent id planId c s' = w.spent id planId c s

theorem trackPlan (h : Owned r w s label) {x : LineItem} (hx : r.get? x.id = some x) :
    Tracking r w s [x.id] ((w.trackPlan r x).run s).1 ((w.trackPlan r x).run s).2 := by
  cases hp : x.plan with
  | none =>
    rw [Window.run_trackPlan_of_none hp]
    refine ⟨⟨label, h⟩, fun _ _ => rfl, ?_, fun _ _ _ _ => rfl⟩
    rintro id planId c hid ⟨p, q, hplan, -⟩
    rw [List.mem_singleton.mp hid, Registry.plan?_of_get? hx, hp] at hplan
    cases hplan
  | some p =>
    have hplan : r.plan? x.id = some p := (Registry.plan?_of_get? hx).trans hp
    rw [Window.run_trackPlan_of_some hp]
    have hid := Window.id_tracked_copy? w x.id p s
    have hcontinues :=
      Status.tracked_continues (p := p) (h.isOpen_copy x.id p.id)
    have hspent :=
      Status.spentInClass_tracked (p := p) (h.isOpen_copy x.id p.id)
    -- from here on it does not matter how the copy came about
    generalize (Status.tracked p (w.copy? x.id p.id)).run s = out at *
    obtain ⟨q, s₁⟩ := out
    simp only at *
    refine ⟨h.putCopy_of_continues hid hcontinues, fun id' hne => ?_, ?_, ?_⟩
    · rw [Window.copies_putCopy, if_neg fun e => hne (by simp [e])]
    · rintro id' planId c hid' ⟨p', q', hplan', rfl, hcopy, hsuperseded, hc⟩
      obtain rfl := List.mem_singleton.mp hid'
      obtain rfl := Option.some.inj (hplan.symm.trans hplan')
      rw [h.spent_putCopy hcontinues.keeps, if_pos ⟨rfl, hid.symm⟩, hspent, hcopy,
        Option.map_some, if_pos ⟨hsuperseded, hc⟩]
      rfl
    · intro id' planId c hnot
      rw [h.spent_putCopy hcontinues.keeps]
      split
      · next e =>
        obtain ⟨rfl, rfl⟩ := e
        rw [hspent, hid, Window.spent]
        cases hcopy : w.copy? x.id p.id with
        | none => rfl
        | some q' =>
          simp only [Option.map_some, Option.getD_some]
          refine if_neg fun hdrop => hnot ⟨by simp, p, q', hplan, hid.symm, ?_, hdrop⟩
          rw [hid]
          exact hcopy
      · rfl

theorem Tracking.snoc {done : List String} {id : String} {w' w'' : Window} {s₁ s'' : Spending}
    (h : Tracking r w s done w' s') (hk : s'.Keeps s₁) (hnew : id ∉ done)
    (h' : Tracking r w' s₁ [id] w'' s'') : Tracking r w s (done ++ [id]) w'' s'' where
  owned := h'.owned
  others := by
    intro id' hid'
    rw [List.mem_append, not_or] at hid'
    rw [h'.others id' hid'.2, h.others id' hid'.1]
  dropped := by
    intro id' planId c hid' hdrop
    -- what an earlier line item dropped stays away, as the later ones leave its copies
    by_cases hid : id' = id
    · subst hid
      exact h'.dropped id' planId c (by simp)
        ((Window.drops_congr (h.others id' hnew) r planId c).mpr hdrop)
    · obtain ⟨label, howned⟩ := h.owned
      rw [h'.kept id' planId c (by simp [hid]), howned.spent_of_keeps hk]
      exact h.dropped id' planId c (by simpa [hid] using hid') hdrop
  kept := by
    intro id' planId c hnot
    obtain ⟨label, howned⟩ := h.owned
    have hkept : w'.spent id' planId c s₁ = w.spent id' planId c s := by
      rw [howned.spent_of_keeps hk]
      exact h.kept id' planId c fun hdone => hnot ⟨List.mem_append_left _ hdone.1, hdone.2⟩
    rw [← hkept]
    refine h'.kept id' planId c fun hdrop => hnot ⟨List.mem_append_right _ hdrop.1, ?_⟩
    obtain rfl := List.mem_singleton.mp hdrop.1
    exact (Window.drops_congr (h.others id' hnew) r planId c).mp hdrop.2

theorem mem_ids_of_drops (h : Owned r w s label) {id planId : String} {c : Int}
    (hdrop : w.Drops r id planId c) : id ∈ r.toList.map (·.id) := by
  obtain ⟨p, -, hplan, -⟩ := hdrop
  obtain ⟨x, hx, -⟩ := Option.bind_eq_some_iff.mp hplan
  refine List.mem_map.mpr ⟨x, List.mem_map.mpr ⟨(id, x), ?_, rfl⟩, h.id_eq hx⟩
  exact Std.ExtTreeMap.mem_toList_iff_getElem?_eq_some.mpr hx

/-- **Keeping the active plans of all line items keeps all counts but those of dropped classes.** -/
theorem trackPlans {p : Progress} (h : Owned r p.current s label) :
    Tracking r p.current s (r.toList.map (·.id)) ((p.trackPlans r).run s).1.current
      ((p.trackPlans r).run s).2 := by
  refine run_foldlM_of_prefix (I := fun (done : List LineItem) (p' : Progress) s' =>
    Tracking r p.current s (done.map (·.id)) p'.current s')
    ⟨⟨label, h⟩, fun _ _ => rfl, by simp, fun _ _ _ _ => rfl⟩ fun done x p' s' hdone hc => ?_
  have hnew : x.id ∉ done.map (·.id) :=
    not_mem_of_prefix_concat h.keyed.nodup_ids (by simpa using hdone.map (·.id))
  have hmem : x ∈ r.toList := hdone.subset (by simp)
  have hoverall := Opens.trackPlan p'.overall r x s'
  obtain ⟨label', howned⟩ := hc.owned
  rw [List.map_append]
  exact hc.snoc hoverall hnew ((howned.mono_store hoverall.isOpen).trackPlan
    (h.keyed.get?_of_mem_toList hmem))

end Owned

/-! ## Runs of the engine -/

theorem Opens.rotate (p : Progress) (r : Registry) (reportId : String) (now : Instant) :
    Opens (p.rotate r reportId now) :=
  .bind (.mergeWindow _ _ _) fun _ => .bind .get fun _ => .pure _

/-- What can happen to the engine. -/
inductive Op where
  | update (records : List LineItemRecord) (plannerResponds : Bool) (now : Instant)
  | advance (now : Instant)
  | trackPlans
  | auction (log : AuctionLog) (accountId : String)
  | win (id : String)
  | rotate (now : Instant)

namespace Engine

/-- The engine after an operation. -/
def apply (e : Engine) : Op → Engine
  | .update records plannerResponds now => (e.update records plannerResponds now).1
  | .advance now => (e.advance now).1
  | .trackPlans => e.trackPlans
  | .auction log accountId => e.recordAuction log accountId
  | .win id => e.recordWin id
  | .rotate now => (e.rotate now).1

/-- The serves that an auction takes, with the line items that they are taken from. -/
def serves (e : Engine) (log : AuctionLog) : List (String × TokenSpend) :=
  ((Progress.spendAll log.sentToClientAsTopMatch.toList e.registry).run e.spending).1.2

/-- The classes that an auction notes for plan ids, and replays in the open window. -/
def noted (e : Engine) (log : AuctionLog) : IdMap Int :=
  ((log.sentToClientAsTopMatch.toList.foldlM Progress.serve (e.registry, ∅)).run e.spending).1.2

/-- The step counts what it takes, and drops nothing that was counted. -/
def Faithful (e : Engine) : Op → Prop
  | .auction log _ => ∀ id ∈ log.sentToClientAsTopMatch.toList,
      e.progress.current.counted? e.registry (e.noted log) id = e.registry.grant? e.spending id
  | .trackPlans => ∀ id planId c, e.progress.current.Drops e.registry id planId c →
      e.progress.current.spent id planId c e.spending = 0
  | _ => True

/-- The counters belong to the plans of registered line items and to the copies in the window. -/
def Sound (e : Engine) : Prop :=
  ∃ label, Owned e.registry e.progress.current e.spending label

theorem sound_start (c : Config) (now : Instant) : (start c now).Sound := by
  have hget : ∀ id, (start c now).registry.get? id = none := by
    intro id
    exact Std.ExtTreeMap.getElem?_empty
  have hcopies : ∀ id, (start c now).progress.current.copies id = [] := Window.copies_opened now
  refine ⟨fun _ => (.item "", 0), ?_, ?_, ?_, ?_⟩
  · intro id x hx
    rw [hget] at hx
    cases hx
  · intro id x p hx
    rw [hget] at hx
    cases hx
  · intro id
    rw [hcopies]
    exact List.nodup_nil
  · intro id q hq
    rw [hcopies] at hq
    cases hq

end Engine

/-- An engine, and the serves that the auctions of its open window took. -/
structure Book where
  engine : Engine
  taken : List (String × TokenSpend)

namespace Book

/-- The book of a new engine. -/
def start (c : Config) (now : Instant) : Book := ⟨Engine.start c now, []⟩

/-- The book after an operation. -/
def step (b : Book) (op : Op) : Book where
  engine := b.engine.apply op
  taken :=
    match op with
    | .auction log _ => b.engine.serves log ++ b.taken
    | .rotate _ => []
    | _ => b.taken

/-- The book after some operations. -/
def run (b : Book) (ops : List Op) : Book := ops.foldl step b

theorem run_concat (b : Book) (ops : List Op) (op : Op) :
    b.run (ops ++ [op]) = (b.run ops).step op := by
  simp [run]

/-- The open window counts the serves that its auctions took. -/
def Exact (b : Book) : Prop :=
  ∀ id planId c, b.engine.progress.current.spent id planId c b.engine.spending =
    b.taken.count (id, ⟨planId, c⟩)

/-- The store and the registry may change as long as all counts of the window stay. -/
theorem exact_congr {b b' : Book} (htaken : b'.taken = b.taken)
    (hspent : ∀ id planId c, b'.engine.progress.current.spent id planId c b'.engine.spending =
      b.engine.progress.current.spent id planId c b.engine.spending) : b'.Exact ↔ b.Exact := by
  unfold Exact
  rw [htaken]
  simp only [hspent]

/-- What a step keeps: the owners of the counters, and the exact count if the step is faithful. -/
structure Preserves (b : Book) (op : Op) : Prop where
  sound : (b.step op).engine.Sound
  exact_iff : b.Exact → ((b.step op).Exact ↔ b.engine.Faithful op)

variable {b : Book}

theorem preserves_of_grown {label : Counter → Owner × Int}
    (h : Owned b.engine.registry b.engine.progress.current b.engine.spending label) {op : Op}
    (hop : b.engine.Faithful op) (htaken : (b.step op).taken = b.taken)
    (hw : (b.step op).engine.progress.current.copies = b.engine.progress.current.copies)
    (hg : Owned.Grown b.engine.spending b.engine.progress.current (b.step op).engine.registry
      (b.step op).engine.spending) : b.Preserves op where
  sound := by
    obtain ⟨⟨label', h'⟩, -⟩ := hg
    exact ⟨label', h'.congr_window hw⟩
  exact_iff := by
    intro hexact
    refine iff_of_true ((exact_congr htaken fun id planId c => ?_).mpr hexact) hop
    rw [Owned.spent_congr hw, h.spent_of_keeps hg.2]

theorem preserves_win (h : b.engine.Sound) (id : String) : b.Preserves (.win id) := by
  obtain ⟨label, h⟩ := h
  exact preserves_of_grown h trivial rfl (Window.copies_recordWin _ _ id) ⟨⟨label, h⟩, .refl _⟩

theorem preserves_update (h : b.engine.Sound) (records : List LineItemRecord)
    (plannerResponds : Bool) (now : Instant) :
    b.Preserves (.update records plannerResponds now) := by
  obtain ⟨label, h⟩ := h
  exact preserves_of_grown h trivial rfl rfl
    (h.update b.engine.pricing records plannerResponds now)

theorem preserves_advance (h : b.engine.Sound) (now : Instant) : b.Preserves (.advance now) := by
  obtain ⟨label, h⟩ := h
  exact preserves_of_grown h trivial rfl rfl (h.advance now)

theorem preserves_trackPlans (h : b.engine.Sound) : b.Preserves .trackPlans := by
  obtain ⟨label, h⟩ := h
  have htracking := h.trackPlans
  refine ⟨htracking.owned, fun hexact => ⟨fun hexact' id planId c hdrop => ?_,
    fun hfaithful id planId c => ?_⟩⟩
  · -- what is dropped has no spend left, so nothing of it was taken
    rw [hexact, ← htracking.dropped id planId c (h.mem_ids_of_drops hdrop) hdrop]
    exact (hexact' id planId c).symm
  · by_cases hdrop : b.engine.progress.current.Drops b.engine.registry id planId c
    · have hzero : b.taken.count (id, ⟨planId, c⟩) = 0 := by
        rw [← hexact]
        exact hfaithful id planId c hdrop
      exact (htracking.dropped id planId c (h.mem_ids_of_drops hdrop) hdrop).trans hzero.symm
    · exact (htracking.kept id planId c fun hid => hdrop hid.2).trans (hexact id planId c)

/-- An auction takes at most one serve of a line item. -/
theorem count_serves (h : b.engine.Sound) (log : AuctionLog) (id : String) (serve : TokenSpend) :
    (b.engine.serves log).count (id, serve) =
      if id ∈ log.sentToClientAsTopMatch.toList ∧
        b.engine.registry.grant? b.engine.spending id = some serve then 1 else 0 := by
  obtain ⟨label, h⟩ := h
  have hd := Owned.nodup_toList log.sentToClientAsTopMatch
  obtain ⟨-, -, -, hserves⟩ := h.spendAll hd
  rw [Engine.serves, hserves]
  -- every id occurs once among the first choices, so the induction meets it at most once
  generalize log.sentToClientAsTopMatch.toList = ids at hd
  induction ids with
  | nil => rfl
  | cons id' ids ih =>
    rw [List.nodup_cons] at hd
    rw [List.filterMap_cons]
    by_cases hid : id' = id
    · subst hid
      have hrest := ih hd.2
      rw [if_neg fun e => hd.1 e.1] at hrest
      cases hg : b.engine.registry.grant? b.engine.spending id' with
      | none => simpa [hg] using hrest
      | some taken => simp [List.count_cons, hrest, hd.1]
    · have hrest := ih hd.2
      cases hg : b.engine.registry.grant? b.engine.spending id' with
      | none => simpa [hg, Ne.symm hid] using hrest
      | some taken => simpa [List.count_cons, hid, Ne.symm hid] using hrest

theorem add_ite_eq_ite_add_iff (p q : Prop) [Decidable p] [Decidable q] (n : Nat) :
    n + (if p then 1 else 0) = (if q then 1 else 0) + n ↔ (p ↔ q) := by
  by_cases hp : p <;> by_cases hq : q <;> simp [hp, hq, Nat.add_comm]

theorem preserves_auction (h : b.engine.Sound) (log : AuctionLog) (accountId : String) :
    b.Preserves (.auction log accountId) := by
  have hcount := count_serves h log
  obtain ⟨label, h⟩ := h
  obtain ⟨howned, hspent⟩ := h.recordAuction log accountId
  refine ⟨howned, fun hexact => ?_⟩
  -- both sides grow by what they count for the auction
  have hstep : (b.step (.auction log accountId)).Exact ↔ ∀ id planId c,
      (id ∈ log.sentToClientAsTopMatch.toList ∧
        b.engine.progress.current.counted? b.engine.registry (b.engine.noted log) id =
          some ⟨planId, c⟩) ↔
      (id ∈ log.sentToClientAsTopMatch.toList ∧
        b.engine.registry.grant? b.engine.spending id = some ⟨planId, c⟩) := by
    refine forall_congr' fun id => forall_congr' fun planId => forall_congr' fun c => ?_
    have hafter := hspent id planId c
    rw [hexact] at hafter
    have htaken : (b.step (.auction log accountId)).taken = b.engine.serves log ++ b.taken := rfl
    rw [htaken, List.count_append, hcount]
    exact (Eq.congr_left hafter).trans (add_ite_eq_ite_add_iff _ _ _)
  rw [hstep]
  constructor
  · intro hall id hid
    refine Option.ext fun serve => ?_
    have hserve := hall id serve.planId serve.priorityClass
    simpa [hid] using hserve
  · intro hall id planId c
    refine and_congr_right fun hid => ?_
    rw [hall id hid]

/-- A new window counts nothing, and nothing was taken in it. -/
theorem exact_rotate (b : Book) (now : Instant) : (b.step (.rotate now)).Exact := by
  intro id planId c
  have hcopies : (b.step (.rotate now)).engine.progress.current.copies id = [] :=
    Window.copies_opened now id
  rw [Window.spent, Window.copy?, hcopies]
  rfl

theorem preserves_rotate (h : b.engine.Sound) (now : Instant) : b.Preserves (.rotate now) := by
  obtain ⟨label, h⟩ := h
  have hcopies : ∀ id, (b.step (.rotate now)).engine.progress.current.copies id = [] :=
    Window.copies_opened now
  have hopens : b.engine.spending.Keeps (b.step (.rotate now)).engine.spending :=
    Opens.rotate _ b.engine.registry b.engine.nextReportId now b.engine.spending
  refine ⟨⟨label, h.id_eq, fun hx hp => ?_, fun id => ?_, fun hq => ?_⟩,
    fun _ => iff_of_true (exact_rotate b now) trivial⟩
  · exact (h.items hx hp).mono (.refl _ label) hopens.isOpen
  · rw [hcopies]
    exact List.nodup_nil
  · rw [hcopies] at hq
    cases hq

/-- **A step keeps the owners of the counters, and the count exact if it is faithful, and only
then.** -/
theorem preserves_step (h : b.engine.Sound) (op : Op) : b.Preserves op := by
  cases op with
  | update records plannerResponds now => exact preserves_update h records plannerResponds now
  | advance now => exact preserves_advance h now
  | trackPlans => exact preserves_trackPlans h
  | auction log accountId => exact preserves_auction h log accountId
  | win id => exact preserves_win h id
  | rotate now => exact preserves_rotate h now

theorem sound_run (h : b.engine.Sound) (ops : List Op) : (b.run ops).engine.Sound := by
  induction ops using List.reverseRecOn with
  | nil => exact h
  | append_singleton ops op ih =>
    rw [run_concat]
    exact (preserves_step ih op).sound

theorem exact_start (c : Config) (now : Instant) : (start c now).Exact := by
  intro id planId cl
  have hcopies : (start c now).engine.progress.current.copies id = [] := Window.copies_opened now id
  rw [Window.spent, Window.copy?, hcopies]
  rfl

theorem exact_along_iff (h : b.engine.Sound) (hexact : b.Exact) (ops : List Op) :
    (∀ done, done <+: ops → (b.run done).Exact) ↔
      ∀ done op, done ++ [op] <+: ops → (b.run done).engine.Faithful op := by
  constructor
  · intro hall done op hdone
    have hbefore := hall done ((List.prefix_append done [op]).trans hdone)
    have hafter := hall (done ++ [op]) hdone
    rw [run_concat] at hafter
    exact ((preserves_step (sound_run h done) op).exact_iff hbefore).mp hafter
  · intro hall done
    induction done using List.reverseRecOn with
    | nil => exact fun _ => hexact
    | append_singleton done op ih =>
      intro hdone
      have hbefore := ih ((List.prefix_append done [op]).trans hdone)
      rw [run_concat]
      exact ((preserves_step (sound_run h done) op).exact_iff hbefore).mpr (hall done op hdone)

/-- **The open window counts exactly the serves that its auctions took, all along a run, if all
steps of the run are faithful, and only then.** -/
theorem exact_iff_faithful (c : Config) (now : Instant) (ops : List Op) :
    (∀ done, done <+: ops → ((start c now).run done).Exact) ↔
      ∀ done op, done ++ [op] <+: ops → ((start c now).run done).engine.Faithful op :=
  exact_along_iff (Engine.sound_start c now) (exact_start c now) ops

/-- Whatever happened before, a new window starts over. -/
theorem exact_iff_faithful_of_rotate (c : Config) (now : Instant) (before ops : List Op)
    (opened : Instant) :
    (∀ done, done <+: ops →
        ((((start c now).run before).step (.rotate opened)).run done).Exact) ↔
      ∀ done op, done ++ [op] <+: ops →
        ((((start c now).run before).step (.rotate opened)).run done).engine.Faithful op := by
  have hsound : ((start c now).run before).engine.Sound :=
    sound_run (Engine.sound_start c now) before
  exact exact_along_iff (preserves_step hsound _).sound (exact_rotate _ opened) ops

/-- Two line items with plans of one id, the first of which has no serve left: the serve of the
second is counted for both. -/
theorem not_forall_exact :
    ¬ ∀ (c : Config) (now : Instant) (ops : List Op), ((start c now).run ops).Exact := by
  intro hexact
  have h := hexact {} (hour 0)
    [.update [{ twoHours [⟨1, 1⟩] [] (hour 0) with lineItemId := "a" },
        { twoHours [⟨1, 5⟩] [] (hour 0) with lineItemId := "b" }] true (hour 0),
      .auction { sentToClientAsTopMatch := IdSet.ofList ["a"] } "account",
      .auction { sentToClientAsTopMatch := IdSet.ofList ["a", "b"] } "account"] "a" "first" 1
  revert h
  decide +kernel

end Book

namespace Engine

/-- An auction is faithful if its first choices have plans of different ids, and the copies in the
window list the classes that the serves come from. -/
theorem faithful_auction {e : Engine} (h : e.Sound) (log : AuctionLog) (accountId : String)
    (hids : ∀ id ∈ log.sentToClientAsTopMatch.toList, ∀ id' ∈ log.sentToClientAsTopMatch.toList,
      ∀ p p', e.registry.plan? id = some p → e.registry.plan? id' = some p' → p.id = p'.id →
        id = id')
    (hlisted : ∀ id ∈ log.sentToClientAsTopMatch.toList, ∀ p c, e.registry.plan? id = some p →
      p.highestUnspentClass e.spending = some c →
        c ∈ ((e.progress.current.copy? id p.id).getD p).classes) :
    e.Faithful (.auction log accountId) := by
  obtain ⟨label, h⟩ := h
  obtain ⟨-, -, -, hserves⟩ := h.spendAll (Owned.nodup_toList log.sentToClientAsTopMatch)
  have hnoted : e.noted log = Progress.classesOf ∅ (e.serves log) := by
    rw [noted, Progress.run_foldlM_serve]
    rfl
  -- a serve of the plan id of a line item was taken from that line item
  have howner : ∀ id ∈ log.sentToClientAsTopMatch.toList, ∀ p, e.registry.plan? id = some p →
      ∀ taken ∈ e.serves log, taken.2.planId = p.id →
        e.registry.grant? e.spending id = some taken.2 := by
    intro id hid p hp taken htaken hplan
    rw [serves, hserves] at htaken
    obtain ⟨id', hid', hgrant⟩ := List.mem_filterMap.mp htaken
    obtain ⟨serve, hserve, rfl⟩ := Option.map_eq_some_iff.mp hgrant
    obtain ⟨p', hp', ht⟩ := Option.bind_eq_some_iff.mp hserve
    obtain ⟨t, -, rfl⟩ := Option.map_eq_some_iff.mp ht
    rw [hids id hid id' hid' p p' hp hp' hplan.symm]
    exact hserve
  intro id hid
  cases hp : e.registry.plan? id with
  | none => rw [Window.counted?, Registry.grant?, hp, Option.bind_none, Option.bind_none]
  | some p =>
    have howner' := howner id hid p hp
    rw [Window.counted?, hp, Option.bind_some, hnoted]
    cases hg : e.registry.grant? e.spending id with
    | none =>
      have hne : ∀ taken ∈ e.serves log, taken.2.planId ≠ p.id := by
        intro taken htaken hplan
        rw [howner' taken htaken hplan] at hg
        cases hg
      rw [Progress.getElem?_classesOf_of_ne hne]
      simp
    | some serve =>
      have hserve := hg
      rw [Registry.grant?_eq, hp, Option.bind_some] at hserve
      obtain ⟨c, hc, rfl⟩ := Option.map_eq_some_iff.mp hserve
      have hmem : (id, (⟨p.id, c⟩ : TokenSpend)) ∈ e.serves log := by
        rw [serves, hserves]
        exact List.mem_filterMap.mpr ⟨id, hid, by rw [hg]; rfl⟩
      have hnotedClass : (Progress.classesOf ∅ (e.serves log))[p.id]? = some c := by
        refine Progress.getElem?_classesOf_of_eq (fun taken htaken hplan => ?_) ⟨_, hmem, rfl⟩ ∅
        have htaken' := howner' taken htaken hplan
        rw [hg] at htaken'
        exact (congrArg TokenSpend.priorityClass (Option.some.inj htaken')).symm
      rw [hnotedClass]
      simp [hlisted id hid p c hp hc]

end Engine

end DealPacing
