import DealPacing.Proofs.Progress.Owners

/-!
# What an auction takes and what it counts

A finished auction takes a serve of every line item that the client took as its first choice, and
then replays the classes that the serves came from on the copies in the open window. What it takes
from a line item depends on that line item alone. What it counts for a line item is the class that
the last serve of a plan of that id came from, if the copy lists the class.

## Main definitions

* `Registry.grant?`: the serve that is taken from a line item
* `Progress.spendAll`: the serves of an auction one after the other
* `Window.counted?`: the serve that is counted for a line item

## Main results

* `Owned.spendAll`: an auction takes what each line item grants by itself
* `Owned.recordAuction`: an auction counts each line item's serve once
-/

namespace DealPacing

namespace Registry

/-- The serve that the active plan of a line item grants. -/
def grant? (r : Registry) (s : Spending) (id : String) : Option TokenSpend :=
  (r.plan? id).bind fun p => (p.unspentToken? s).map fun t => ⟨p.id, t.priorityClass⟩

theorem grant?_eq (r : Registry) (s : Spending) (id : String) :
    r.grant? s id =
      (r.plan? id).bind fun p => (p.highestUnspentClass s).map fun c => ⟨p.id, c⟩ := by
  simp only [grant?, Plan.highestUnspentClass, Option.map_map]
  rfl

theorem plan?_put_of_plan_eq {r : Registry} {x y : LineItem} (hx : r.get? x.id = some x)
    (hid : y.id = x.id) (hy : y.plan = x.plan) (id : String) :
    (r.put y).plan? id = r.plan? id := by
  unfold plan?
  rw [get?_put]
  split
  · next e => rw [← e, hid, hx, Option.bind_some, Option.bind_some, hy]
  · rfl

theorem run_spend_of_none {r : Registry} {id : String} (h : r.get? id = none) (s : Spending) :
    (r.spend id).run s = ((r, none), s) := by
  unfold spend
  rw [h]
  rfl

theorem run_spend_of_some {r : Registry} {id : String} {x : LineItem} (h : r.get? id = some x)
    (s : Spending) :
    (r.spend id).run s =
      let out := x.spend.run s
      (({ r with lineItems := r.lineItems.insert id out.1.1 }, out.1.2), out.2) := by
  unfold spend
  rw [h]
  rfl

end Registry

namespace Progress

/-- Take a serve of each line item; the registry then, and the serves by line item. -/
def spendAll : List String → Registry → StateM Spending (Registry × List (String × TokenSpend))
  | [], r => return (r, [])
  | id :: ids, r => do
    let (r, spent) ← r.spend id
    let (r, serves) ← spendAll ids r
    return (r, (spent.map fun serve => (id, serve)).toList ++ serves)

/-- The class that the last serve of each plan id came from. -/
def classesOf (classes : IdMap Int) (serves : List (String × TokenSpend)) : IdMap Int :=
  serves.foldl (fun m e => m.insert e.2.planId e.2.priorityClass) classes

theorem classesOf_concat (classes : IdMap Int) (serves : List (String × TokenSpend))
    (e : String × TokenSpend) :
    classesOf classes (serves ++ [e]) =
      (classesOf classes serves).insert e.2.planId e.2.priorityClass := by
  simp [classesOf]

theorem getElem?_classesOf_of_ne {serves : List (String × TokenSpend)} {planId : String}
    (h : ∀ e ∈ serves, e.2.planId ≠ planId) (classes : IdMap Int) :
    (classesOf classes serves)[planId]? = classes[planId]? := by
  induction serves using List.reverseRecOn with
  | nil => rfl
  | append_singleton serves e ih =>
    rw [classesOf_concat, Std.ExtTreeMap.getElem?_insert, if_neg (by simpa using h e (by simp))]
    exact ih fun e he => h e (List.mem_append_left _ he)

/-- If all serves of a plan id came from one class, it is the class that is noted. -/
theorem getElem?_classesOf_of_eq {serves : List (String × TokenSpend)} {planId : String} {c : Int}
    (h : ∀ e ∈ serves, e.2.planId = planId → e.2.priorityClass = c)
    (hsome : ∃ e ∈ serves, e.2.planId = planId) (classes : IdMap Int) :
    (classesOf classes serves)[planId]? = some c := by
  induction serves using List.reverseRecOn with
  | nil => simp at hsome
  | append_singleton serves e ih =>
    rw [classesOf_concat, Std.ExtTreeMap.getElem?_insert]
    by_cases he : e.2.planId = planId
    · rw [if_pos (by simpa using he), h e (by simp) he]
    · rw [if_neg (by simpa using he)]
      refine ih (fun e he => h e (List.mem_append_left _ he)) ?_
      obtain ⟨e', he', hid⟩ := hsome
      rcases List.mem_append.mp he' with he' | he'
      · exact ⟨e', he', hid⟩
      · exact absurd (List.mem_singleton.mp he' ▸ hid) he

theorem run_spendAll_cons (id : String) (ids : List String) (r : Registry) (s : Spending) :
    (spendAll (id :: ids) r).run s =
      let first := (r.spend id).run s
      let rest := (spendAll ids first.1.1).run first.2
      ((rest.1.1, (first.1.2.map fun serve => (id, serve)).toList ++ rest.1.2), rest.2) := rfl

/-- An auction notes the classes of the serves that it takes. -/
theorem run_foldlM_serve (ids : List String) (r : Registry) (classes : IdMap Int) (s : Spending) :
    (ids.foldlM serve (r, classes)).run s =
      let out := (spendAll ids r).run s
      ((out.1.1, classesOf classes out.1.2), out.2) := by
  induction ids generalizing r classes s with
  | nil => rfl
  | cons id ids ih =>
    have hserve : (serve (r, classes) id).run s =
        let out := (r.spend id).run s
        ((out.1.1, classesOf classes (out.1.2.map fun spent => (id, spent)).toList), out.2) := by
      unfold serve
      simp only
      rw [run_bind_eq]
      obtain ⟨⟨r', spent⟩, s'⟩ := (r.spend id).run s
      cases spent <;> rfl
    rw [List.foldlM_cons, run_bind_eq, hserve, run_spendAll_cons]
    simp only [classesOf, List.foldl_append] at ih ⊢
    exact ih _ _ _

end Progress

namespace Owned

variable {r : Registry} {w : Window} {s s' : Spending} {label label' : Counter → Owner × Int}

/-- A serve of a line item, with what it leaves of the registry and the store. -/
structure Serve (r : Registry) (w : Window) (s : Spending) (label : Counter → Owner × Int)
    (out : (Registry × Option TokenSpend) × Spending) (id : String) : Prop where
  owned : Owned out.1.1 w out.2 label
  plan?_eq : ∀ id', out.1.1.plan? id' = r.plan? id'
  serve_eq : out.1.2 = r.grant? s id
  spent_eq : ∀ id' planId c, w.spent id' planId c out.2 = w.spent id' planId c s
  others : ∀ id', id' ≠ id → out.1.1.grant? out.2 id' = r.grant? s id'

/-- A line item whose plan stays the same is entered. -/
theorem put_of_plan_eq (h : Owned r w s label) {x y : LineItem} (hx : r.get? x.id = some x)
    (hid : y.id = x.id) (hy : y.plan = x.plan) : Owned (r.put y) w s label := by
  refine h.put (.refl s label) (fun hc => hc) fun p hp => ?_
  rw [hid]
  exact h.items hx (hy.symm.trans hp)

theorem spend (h : Owned r w s label) (id : String) :
    Serve r w s label ((r.spend id).run s) id := by
  cases hx : r.get? id with
  | none =>
    rw [Registry.run_spend_of_none hx]
    have hplan : r.plan? id = none := by rw [Registry.plan?, hx, Option.bind_none]
    exact ⟨h, fun _ => rfl, by rw [Registry.grant?, hplan]; rfl, fun _ _ _ => rfl, fun _ _ => rfl⟩
  | some x =>
    obtain rfl := h.id_eq hx
    rw [Registry.run_spend_of_some hx]
    cases hp : x.plan with
    | none =>
      have hplan : r.plan? x.id = none := (Registry.plan?_of_get? hx).trans hp
      rw [LineItem.run_spend_of_none hp]
      have hput := Registry.plan?_put_of_plan_eq hx rfl rfl
      refine ⟨h.put_of_plan_eq hx rfl rfl, hput, by rw [Registry.grant?, hplan]; rfl,
        fun _ _ _ => rfl, fun id' _ => ?_⟩
      exact congrArg (Option.bind · _) (hput id')
    | some p =>
      have hplan : r.plan? x.id = some p := (Registry.plan?_of_get? hx).trans hp
      rw [LineItem.run_spend_of_some hp]
      cases ht : p.unspentToken? s with
      | none =>
        have hput := Registry.plan?_put_of_plan_eq hx rfl rfl
        refine ⟨h.put_of_plan_eq hx rfl rfl, hput, ?_, fun _ _ _ => rfl, fun id' _ => ?_⟩
        · rw [Registry.grant?, hplan, Option.bind_some, ht]
          rfl
        · exact congrArg (Option.bind · _) (hput id')
      | some t =>
        have htm := (Plan.mem_of_unspentToken? ht).1
        let y : LineItem :=
          { x with readyAt := (p.readyAt? (s.raised t.counter 1)).map LineItem.dueAt }
        have hput : ∀ id', (r.put y).plan? id' = r.plan? id' :=
          Registry.plan?_put_of_plan_eq hx rfl rfl
        have howned : Owned (r.put y) w (s.raised t.counter 1) label :=
          (h.put_of_plan_eq (y := y) hx rfl rfl).mono_store (Spending.isOpen_raised s _ _ 1).mpr
        refine ⟨howned, hput, ?_, h.spent_raised_item hplan htm, fun id' hne => ?_⟩
        · rw [Registry.grant?, hplan, Option.bind_some, ht]
          rfl
        · change (r.put y).grant? (s.raised t.counter 1) id' = _
          unfold Registry.grant?
          rw [hput]
          cases hplan' : r.plan? id' with
          | none => rfl
          | some p' =>
            rw [Option.bind_some, Option.bind_some, h.unspentToken?_raised hne hplan hplan' htm]

/-- **An auction takes from every line item what it grants by itself**, and leaves the copies. -/
theorem spendAll (h : Owned r w s label) {ids : List String} (hd : ids.Nodup) :
    let out := (Progress.spendAll ids r).run s
    Owned out.1.1 w out.2 label ∧ (∀ id, out.1.1.plan? id = r.plan? id) ∧
      (∀ id planId c, w.spent id planId c out.2 = w.spent id planId c s) ∧
      out.1.2 = ids.filterMap fun id => (r.grant? s id).map fun serve => (id, serve) := by
  induction ids generalizing r s with
  | nil => exact ⟨h, fun _ => rfl, fun _ _ _ => rfl, rfl⟩
  | cons id ids ih =>
    rw [List.nodup_cons] at hd
    obtain ⟨howned, hplan, hserve, hspent, hothers⟩ := h.spend id
    obtain ⟨howned', hplan', hspent', hserves⟩ := ih howned hd.2
    rw [Progress.run_spendAll_cons]
    refine ⟨howned', fun id' => (hplan' id').trans (hplan id'),
      fun id' planId c => (hspent' id' planId c).trans (hspent id' planId c), ?_⟩
    -- a later line item grants what it would have granted first
    have hrest : ids.filterMap (fun id' => (((r.spend id).run s).1.1.grant?
          ((r.spend id).run s).2 id').map fun serve => (id', serve)) =
        ids.filterMap fun id' => (r.grant? s id').map fun serve => (id', serve) := by
      refine List.filterMap_congr fun id' hid' => ?_
      rw [hothers id' fun e => hd.1 (e ▸ hid')]
    simp only [hserves, hserve, hrest]
    cases hg : r.grant? s id <;> simp [hg]

end Owned

/-! ## Counting -/

/-- The class that a copy is replayed with, if it lists the class. -/
theorem Plan.filter_mem_classes (q : Plan) (c? : Option Int) :
    c?.filter (· ∈ q.classes) = (c?.bind q.token?).map (·.priorityClass) := by
  cases c? with
  | none => rfl
  | some c =>
    rw [Option.bind_some]
    cases ht : q.token? c with
    | none =>
      have hc : c ∉ q.classes := fun hc => by simpa [ht] using token?_isSome_iff.mpr hc
      simp [hc]
    | some t =>
      have hc : c ∈ q.classes := token?_isSome_iff.mp (by rw [ht]; rfl)
      simp [hc, (mem_of_token? ht).2]

/-- The serve that is counted for a line item: of the class that was noted for its plan id, if the
copy of its plan lists that class. -/
def Window.counted? (w : Window) (r : Registry) (classes : IdMap Int) (id : String) :
    Option TokenSpend :=
  (r.plan? id).bind fun p =>
    (classes[p.id]?.filter (· ∈ ((w.copy? id p.id).getD p).classes)).map fun c => ⟨p.id, c⟩

namespace Owned

variable {r : Registry} {w : Window} {s s' : Spending} {label label' : Counter → Owner × Int}

/-- The window after the serves of some line items were counted. -/
structure Counting (r : Registry) (w : Window) (s : Spending) (classes : IdMap Int)
    (done : List String) (w' : Window) (s' : Spending) : Prop where
  owned : ∃ label, Owned r w' s' label
  others : ∀ id, id ∉ done → w'.copies id = w.copies id
  spent_eq : ∀ id planId c, w'.spent id planId c s' =
    w.spent id planId c s + if id ∈ done ∧ w.counted? r classes id = some ⟨planId, c⟩ then 1 else 0

/-- The copy that a serve is counted in is kept, with all counts as before. -/
theorem putServed (h : Owned r w s label) (id : String) (p : Plan) :
    let q := (Status.served p (w.copy? id p.id)).run s
    (∃ label', Owned r (w.putCopy r id q.1) q.2 label') ∧
      ∀ id' planId c, (w.putCopy r id q.1).spent id' planId c q.2 = w.spent id' planId c s := by
  intro q
  have hid : q.1.id = p.id := Window.id_served_copy? w id p s
  have hcontinues := Status.served_continues (p := p) (h.isOpen_copy id p.id)
  refine ⟨h.putCopy_of_continues hid hcontinues, fun id' planId c => ?_⟩
  rw [h.spent_putCopy hcontinues.keeps]
  split
  · next e =>
    rw [Status.spentInClass_served, e.1, e.2, hid]
    rfl
  · rfl

theorem recordServe (h : Owned r w s label) (classes : IdMap Int) (id : String) :
    Counting r w s classes [id] ((Window.recordServe r classes w id).run s).1
      ((Window.recordServe r classes w id).run s).2 := by
  cases hplan : r.plan? id with
  | none =>
    rw [Window.run_recordServe_of_none hplan]
    have hcounted : w.counted? r classes id = none := by rw [Window.counted?, hplan]; rfl
    refine ⟨⟨label, h⟩, fun _ _ => rfl, fun id' planId c => ?_⟩
    have hnot : ¬ (id' ∈ [id] ∧ w.counted? r classes id' = some ⟨planId, c⟩) := by
      rintro ⟨hid, hc⟩
      rw [List.mem_singleton.mp hid, hcounted] at hc
      cases hc
    rw [if_neg hnot, Nat.add_zero]
  | some p =>
    rw [Window.run_recordServe_of_some hplan]
    obtain ⟨⟨label', howned⟩, hspent⟩ := h.putServed id p
    have hid := Window.id_served_copy? w id p s
    have hclasses := Status.classes_served (s := s) (p := p) (w.copy? id p.id)
    -- from here on it does not matter how the copy came about
    generalize (Status.served p (w.copy? id p.id)).run s = out at *
    obtain ⟨q, s₁⟩ := out
    simp only at *
    have hcounted : w.counted? r classes id =
        (classes[p.id]?.bind q.token?).map fun t => ⟨p.id, t.priorityClass⟩ := by
      rw [Window.counted?, hplan, Option.bind_some, ← hclasses, Plan.filter_mem_classes,
        Option.map_map]
      rfl
    have hothers : ∀ id', id' ∉ [id] → (w.putCopy r id q).copies id' = w.copies id' := by
      intro id' hne
      rw [Window.copies_putCopy, if_neg fun e => hne (by simp [e])]
    cases ht : classes[p.id]?.bind q.token? with
    | none =>
      refine ⟨⟨label', howned⟩, hothers, fun id' planId c => ?_⟩
      have hnot : ¬ (id' ∈ [id] ∧ w.counted? r classes id' = some ⟨planId, c⟩) := by
        rintro ⟨hid', hc⟩
        rw [List.mem_singleton.mp hid', hcounted, ht] at hc
        cases hc
      rw [if_neg hnot, Nat.add_zero]
      exact hspent id' planId c
    | some t =>
      have hcopy : (w.putCopy r id q).copy? id p.id = some q := by
        rw [Window.copy?_putCopy, if_pos ⟨rfl, hid.symm⟩]
      obtain ⟨c, -, htoken⟩ := Option.bind_eq_some_iff.mp ht
      have hc : t.priorityClass = c := (Plan.mem_of_token? htoken).2
      refine ⟨⟨label', howned.mono_store (Spending.isOpen_raised s₁ _ _ 1).mpr⟩, hothers,
        fun id' planId c' => ?_⟩
      -- the replayed class shows in one copy, and the counts before are those of `w`
      simp only
      rw [howned.spent_raised_copy hcopy htoken, hspent]
      congr 2
      rw [eq_iff_iff, List.mem_singleton]
      refine and_congr_right fun e => ?_
      rw [e, hcounted, ht, Option.map_some]
      simp [hc, eq_comm]

/-- One more line item is counted; the others do not matter for it. -/
theorem Counting.snoc {classes : IdMap Int} {done : List String} {id : String} {w' w'' : Window}
    {s'' : Spending} (h : Counting r w s classes done w' s') (hnew : id ∉ done)
    (h' : Counting r w' s' classes [id] w'' s'') :
    Counting r w s classes (done ++ [id]) w'' s'' where
  owned := h'.owned
  others := by
    intro id' hid'
    rw [List.mem_append, not_or] at hid'
    rw [h'.others id' hid'.2, h.others id' hid'.1]
  spent_eq := by
    intro id' planId c
    have hcounted : w'.counted? r classes id = w.counted? r classes id := by
      unfold Window.counted? Window.copy?
      rw [h.others id hnew]
    rw [h'.spent_eq, h.spent_eq]
    by_cases hid : id' = id
    · subst hid
      simp [hnew, hcounted]
    · simp [hid]

theorem recordServes (h : Owned r w s label) (classes : IdMap Int) {ids : List String}
    (hd : ids.Nodup) :
    Counting r w s classes ids ((ids.foldlM (Window.recordServe r classes) w).run s).1
      ((ids.foldlM (Window.recordServe r classes) w).run s).2 := by
  refine run_foldlM_of_prefix
    (I := fun done w' s' => Counting r w s classes done w' s') ⟨⟨label, h⟩, fun _ _ => rfl, by simp⟩
    fun done id w' s' hdone hc => ?_
  obtain ⟨label', howned⟩ := hc.owned
  exact hc.snoc (not_mem_of_prefix_concat hd hdone) (howned.recordServe classes id)

theorem nodup_toList (ids : IdSet) : ids.toList.Nodup :=
  Std.ExtTreeSet.distinct_toList.imp fun h e => h (by simp [e])

theorem spent_congr {w' : Window} (hw : w'.copies = w.copies) : w'.spent = w.spent := by
  funext id planId c s
  unfold Window.spent Window.copy?
  rw [hw]

/-- **An auction counts each line item's serve once**: the one that is counted for it. -/
theorem recordAuction {p : Progress} (h : Owned r p.current s label) (log : AuctionLog)
    (accountId : String) :
    let ids := log.sentToClientAsTopMatch.toList
    let classes := ((ids.foldlM Progress.serve (r, ∅)).run s).1.2
    let out := (p.recordAuction r log accountId).run s
    (∃ label', Owned out.1.1 out.1.2.current out.2 label') ∧ ∀ id planId c,
      out.1.2.current.spent id planId c out.2 = p.current.spent id planId c s +
        if id ∈ ids ∧ p.current.counted? r classes id = some ⟨planId, c⟩ then 1 else 0 := by
  intro ids classes out
  have hd := nodup_toList log.sentToClientAsTopMatch
  obtain ⟨howned, hplan, hspent, -⟩ := h.spendAll hd
  have hserve : (ids.foldlM Progress.serve (r, ∅)).run s =
      ((((Progress.spendAll ids r).run s).1.1, classes), ((Progress.spendAll ids r).run s).2) := by
    simp only [classes, Progress.run_foldlM_serve]
  -- the serves left the plans and the copies as they were, which is all that counting needs
  generalize (Progress.spendAll ids r).run s = taken at *
  obtain ⟨⟨r', serves⟩, s₁⟩ := taken
  -- the log is tallied first, and what line items lost to comes last
  let losses := log.lostMatchingTo.toList ++ log.lostAuctionTo.toList
  let served := (ids.foldlM (Window.recordServe r' classes)
    (p.current.tallied r' log accountId)).run s₁
  have hout : out =
      ((r', { p with current := losses.foldl Window.recordLosses served.1 }), served.2) := by
    simp only [out, Progress.recordAuction]
    rw [run_bind_eq, hserve]
    rfl
  have htallied := Window.copies_tallied p.current r' log accountId
  have hcounting := (howned.congr_window htallied).recordServes classes hd
  have hcounted : ∀ id, (p.current.tallied r' log accountId).counted? r' classes id =
      p.current.counted? r classes id := by
    intro id
    unfold Window.counted? Window.copy?
    rw [htallied]
    exact congrArg (Option.bind · _) (hplan id)
  rw [hout]
  obtain ⟨label', howned'⟩ := hcounting.owned
  refine ⟨⟨label', howned'.congr_window (Window.copies_foldl_recordLosses _ _)⟩,
    fun id planId c => ?_⟩
  have hspent' := hcounting.spent_eq id planId c
  rw [spent_congr htallied, hcounted, hspent] at hspent'
  simp only [spent_congr (Window.copies_foldl_recordLosses _ _)]
  exact hspent'

end Owned

end DealPacing
