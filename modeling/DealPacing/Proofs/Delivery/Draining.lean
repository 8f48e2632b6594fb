import DealPacing.Proofs.Delivery.Revisions
import DealPacing.Proofs.Delivery.WordSums
import DealPacing.Proofs.Progress.ClassSpend

/-!
# Draining a plan

A plan lists its tokens in the order of their classes, however it was made: of a schedule, by a
revision, or by joining it with another plan. So its serves are taken class by class, the lowest one
first, until none is left. Which class is next is found in two ways, by looking for a token that has
serves left and by trying to take a serve from one token after the other; both find the same one.

## Main definitions

* `Plan.Makes`, `Plan.Coexist`: the ways to make a plan, and plans over one store of counters
* `Plan.serveOrder`: the classes of the serves that are left, in the order they are taken
* `Plan.afterSpends`: the store after a number of attempts to take a serve
* `Token.takeFirst`: the attempts on one token after the other

## Main results

* `Plan.Makes.exists_label`, `Plan.Makes.pairwise_classes`: what every way to make a plan keeps
* `Plan.spend_eq_takeFirst`: taking a serve tries the tokens in turn
* `Plan.serveOrder_spend`: a serve is the first of those that are left
* `Plan.drains`: a plan drains the serves that are left, lower classes first, and says how many they
  are exactly if they fit a word
-/

namespace DealPacing

/-! ## Attempts in turn -/

/-- Try to take a serve from one token after the other. -/
def Token.takeFirst : List Token → StateM Spending (Option Int)
  | [] => return none
  | t :: rest => do
    if ← t.trySpend then return some t.priorityClass else takeFirst rest

theorem Token.run_takeFirst (ts : List Token) (s : Spending) :
    (takeFirst ts).run s =
      match ts.find? fun t => t.spent s < t.total with
      | some t => (some t.priorityClass, s.raised t.counter 1)
      | none => (none, s) := by
  induction ts with
  | nil => rfl
  | cons t rest ih =>
    rw [takeFirst, StateT.run_bind, Token.run_trySpend]
    by_cases ht : t.spent s < t.total
    · rw [List.find?_cons_of_pos (by simpa using ht), if_pos ht]
      rfl
    · rw [List.find?_cons_of_neg (by simpa using ht), if_neg ht]
      exact ih

/-- The values of a map by class are in the order of their classes. -/
theorem OwnClasses.pairwise {α : Type} {key : α → Int} {m : Plan.ByClass α}
    (h : OwnClasses key m) : ((m.toList.map Prod.snd).map key).Pairwise (· ≤ ·) := by
  have hkeys : (m.toList.map Prod.snd).map key = m.toList.map Prod.fst := by
    rw [List.map_map]
    refine List.map_congr_left fun e he => ?_
    exact h e.1 e.2 (Std.ExtTreeMap.mem_toList_iff_getElem?_eq_some.mp he)
  rw [hkeys, List.pairwise_map]
  exact Std.ExtTreeMap.ordered_keys_toList.imp fun hlt => (Int.compare_eq_lt.mp hlt).le

namespace Plan

/-- Taking a serve tries the tokens in turn. -/
theorem spend_eq_takeFirst (p : Plan) : p.spend = Token.takeFirst p.tokens := by
  funext s
  exact (run_spend p s).trans (Token.run_takeFirst p.tokens s).symm

/-! ## The ways to make a plan -/

/-- The ways to make a plan of a schedule and of plans that there are. -/
inductive Makes (plans : List Plan) : StateM Spending Plan → Prop
  | ofSchedule (x : Schedule) : Makes plans (ofSchedule x)
  | clone {p : Plan} (hp : p ∈ plans) : Makes plans p.clone
  | withoutSpent {p : Plan} (hp : p ∈ plans) : Makes plans p.withoutSpent
  | withScheduleOf {p newer : Plan} (hp : p ∈ plans) (hnewer : newer ∈ plans) :
    Makes plans (p.withScheduleOf newer)
  | withUpdatedSchedule {p : Plan} (hp : p ∈ plans) (x : Schedule) :
    Makes plans (p.withUpdatedSchedule x)
  | mergedWithPrevious {p previous : Plan} (hp : p ∈ plans) (hprevious : previous ∈ plans) :
    Makes plans (p.mergedWithPrevious previous)
  | mergedSpentWith {p other : Plan} (hp : p ∈ plans) (hother : other ∈ plans) :
    Makes plans (p.mergedSpentWith other)

/-- Plans over one store of counters: a plan is made of those that there are, or a counter gets
another count. -/
inductive Coexist : List Plan → Spending → Prop
  | start : Coexist [] .empty
  | make {plans : List Plan} {s : Spending} {m : StateM Spending Plan} (h : Coexist plans s)
    (hm : Makes plans m) : Coexist ((m.run s).1 :: plans) (m.run s).2
  | count {plans : List Plan} {s : Spending} (h : Coexist plans s) (c : Counter) (n : Nat) :
    Coexist plans ((Spending.put c n).run s).2

/-! ### Carrying on a plan that has spend -/

theorem isOpen_absorb (carried : ByClass Token) (t : Token) (s : Spending) (c : Counter) :
    ((absorb carried t).run s).2.IsOpen c ↔ s.IsOpen c := by
  rw [run_absorb]
  cases carried[t.priorityClass]? with
  | none => exact Iff.rfl
  | some u =>
    by_cases hspent : 0 < t.spent s
    · simp only [if_pos hspent]
      exact Spending.isOpen_put s u.counter c _
    · simp only [if_neg hspent]

/-- The tokens of a plan that carries on another one, whatever is spent of it. -/
theorem run_foldlM_absorb_fst (ts : List Token) (carried : ByClass Token) (s : Spending) :
    ((ts.foldlM absorb carried).run s).1 = ts.foldl joined carried ∧
      ∀ c, ((ts.foldlM absorb carried).run s).2.IsOpen c ↔ s.IsOpen c := by
  induction ts generalizing carried s with
  | nil => exact ⟨rfl, fun _ => Iff.rfl⟩
  | cons t ts ih =>
    rw [List.foldlM_cons, StateT.run_bind]
    obtain ⟨htokens, hopen⟩ := ih ((absorb carried t).run s).1 ((absorb carried t).run s).2
    refine ⟨htokens.trans ?_, fun c => (hopen c).trans (isOpen_absorb carried t s c)⟩
    rw [run_absorb, List.foldl_cons]

theorem tokens_mergedWithPrevious (p previous : Plan) (s : Spending) :
    ((p.mergedWithPrevious previous).run s).1.tokens =
      (p.tokens.foldl joined previous.tokensByClass).toList.map Prod.snd :=
  congrArg (fun m : ByClass Token => m.toList.map Prod.snd)
    (run_foldlM_absorb_fst p.tokens previous.tokensByClass s).1

theorem isOpen_mergedWithPrevious (p previous : Plan) (s : Spending) (c : Counter) :
    ((p.mergedWithPrevious previous).run s).2.IsOpen c ↔ s.IsOpen c :=
  (run_foldlM_absorb_fst p.tokens previous.tokensByClass s).2 c

/-- Each of its tokens counts in the counter of a token of its class in one of the two plans. -/
theorem labelled_mergedWithPrevious {κ : Type} {label : Counter → κ} {kind : Int → κ} {s : Spending}
    {p previous : Plan} (hp : Labelled label kind s p.tokens)
    (hprevious : Labelled label kind s previous.tokens) :
    Labelled label kind ((p.mergedWithPrevious previous).run s).2
      ((p.mergedWithPrevious previous).run s).1.tokens := by
  intro t ht
  rw [isOpen_mergedWithPrevious]
  have hkeyed := (keyedByClass_tokensByClass previous).foldl_joined p.tokens
  obtain ⟨c, hc⟩ := (mem_tokens_iff_of_byClass (tokens_mergedWithPrevious p previous s)).mp ht
  obtain rfl := hkeyed c t hc
  obtain ⟨u, hu | ⟨hu, hclass⟩, hcounter⟩ := counter_foldl_joined _ hc
  · obtain ⟨hmem, hclass⟩ := mem_of_tokensByClass hu
    rw [← hcounter, ← hclass]
    exact hprevious u hmem
  · rw [← hcounter, ← hclass]
    exact hp u hu

/-! ### What every way to make a plan keeps -/

/-- A plan that is made counts each class in a counter of that class, as the others do. -/
theorem Makes.exists_label {κ : Type} {label : Counter → κ} {kind : Int → κ} {plans : List Plan}
    {m : StateM Spending Plan} (hm : Makes plans m) {s : Spending}
    (h : ∀ p ∈ plans, Labelled label kind s p.tokens) :
    ∃ label', Relabels s label label' ∧ (∀ {c}, s.IsOpen c → (m.run s).2.IsOpen c) ∧
      Labelled label' kind (m.run s).2 (m.run s).1.tokens := by
  have hcontinues {old : List Token} (hold : Labelled label kind s old)
      (hnew : Continues s (m.run s).2 old (m.run s).1.tokens) :
      ∃ label', Relabels s label label' ∧ (∀ {c}, s.IsOpen c → (m.run s).2.IsOpen c) ∧
        Labelled label' kind (m.run s).2 (m.run s).1.tokens := by
    obtain ⟨label', hl, hlabelled⟩ := hnew.exists_label hold
    exact ⟨label', hl, hnew.keeps.isOpen, hlabelled⟩
  have hnil : Labelled label kind s [] := fun t ht => nomatch ht
  cases hm with
  | ofSchedule x => exact hcontinues hnil (ofSchedule_continues x s)
  | clone hp => exact hcontinues hnil (ofBalances_continues _ s)
  | withoutSpent hp => exact hcontinues hnil (withoutSpent_continues _ s)
  | withScheduleOf hp hnewer =>
    exact hcontinues (h _ hp) (withScheduleOf_continues (isOpen_of_labelled (h _ hp)) _)
  | withUpdatedSchedule hp x =>
    exact hcontinues (h _ hp) (withUpdatedSchedule_continues (isOpen_of_labelled (h _ hp)) x)
  | mergedSpentWith hp hother => exact hcontinues hnil (Status.added_continues _ (some _) s)
  | mergedWithPrevious hp hprevious =>
    -- no counter is opened, so the labels stay as they are
    exact ⟨label, .refl s label, fun hc => (isOpen_mergedWithPrevious _ _ s _).mpr hc,
      labelled_mergedWithPrevious (h _ hp) (h _ hprevious)⟩

theorem pairwise_classes_ofSchedule (x : Schedule) (s : Spending) :
    ((ofSchedule x).run s).1.classes.Pairwise (· ≤ ·) := by
  have hclasses : ((ofSchedule x).run s).1.classes =
      (inClassOrder x.tokens).map (·.priorityClass) := by
    rw [← map_priorityClass_balances _ ((ofSchedule x).run s).2, balances_ofSchedule,
      openingBalances, List.map_map]
    rfl
  rw [hclasses, List.pairwise_map]
  have htrans (a b c : Allotment) (hab : decide (a.priorityClass ≤ b.priorityClass) = true)
      (hbc : decide (b.priorityClass ≤ c.priorityClass) = true) :
      decide (a.priorityClass ≤ c.priorityClass) = true := by
    rw [decide_eq_true_eq] at hab hbc ⊢
    omega
  have htotal (a b : Allotment) : (decide (a.priorityClass ≤ b.priorityClass) ||
      decide (b.priorityClass ≤ a.priorityClass)) = true := by
    rw [Bool.or_eq_true, decide_eq_true_eq, decide_eq_true_eq]
    omega
  exact (List.pairwise_mergeSort htrans htotal x.tokens).imp of_decide_eq_true

theorem pairwise_classes_mergedWithPrevious (p previous : Plan) (s : Spending) :
    ((p.mergedWithPrevious previous).run s).1.classes.Pairwise (· ≤ ·) := by
  rw [classes, tokens_mergedWithPrevious]
  exact OwnClasses.pairwise ((keyedByClass_tokensByClass previous).foldl_joined p.tokens)

theorem pairwise_classes_mergedSpentWith (p other : Plan) (s : Spending) :
    ((p.mergedSpentWith other).run s).1.classes.Pairwise (· ≤ ·) := by
  rw [← map_priorityClass_balances _ ((p.mergedSpentWith other).run s).2, balances_mergedSpentWith]
  split
  · exact (ownClasses_addedByClass _ _).pairwise
  · exact (ownClasses_addedByClass _ _).pairwise

/-- A plan that is made lists its tokens in the order of their classes. -/
theorem Makes.pairwise_classes {plans : List Plan} {m : StateM Spending Plan} (hm : Makes plans m)
    (h : ∀ p ∈ plans, p.classes.Pairwise (· ≤ ·)) (s : Spending) :
    (m.run s).1.classes.Pairwise (· ≤ ·) := by
  cases hm with
  | ofSchedule x => exact pairwise_classes_ofSchedule x s
  | clone hp =>
    rw [classes_clone]
    exact h _ hp
  | withoutSpent hp =>
    rw [classes_withoutSpent]
    exact h _ hp
  | withScheduleOf hp hnewer =>
    rw [classes_withScheduleOf]
    exact h _ hnewer
  | withUpdatedSchedule hp x =>
    rw [run_withUpdatedSchedule, classes_withScheduleOf]
    exact pairwise_classes_ofSchedule x s
  | mergedWithPrevious hp hprevious => exact pairwise_classes_mergedWithPrevious _ _ s
  | mergedSpentWith hp hother => exact pairwise_classes_mergedSpentWith _ _ s

/-- Plans over one store share counters between tokens of one class only, and list their tokens in
the order of their classes. -/
theorem Coexist.exists_label {plans : List Plan} {s : Spending} (h : Coexist plans s) :
    ∃ label : Counter → Int, ∀ p ∈ plans,
      Labelled label (fun c => c) s p.tokens ∧ p.classes.Pairwise (· ≤ ·) := by
  induction h with
  | start => exact ⟨fun _ => 0, fun p hp => nomatch hp⟩
  | make h hm ih =>
    obtain ⟨label, hplans⟩ := ih
    obtain ⟨label', hl, hopen, hnew⟩ := hm.exists_label fun p hp => (hplans p hp).1
    refine ⟨label', fun p hp => ?_⟩
    rcases List.mem_cons.mp hp with rfl | hp
    · exact ⟨hnew, hm.pairwise_classes (fun q hq => (hplans q hq).2) _⟩
    · exact ⟨(hplans p hp).1.mono hl hopen, (hplans p hp).2⟩
  | @count plans s h c n ih =>
    obtain ⟨label, hplans⟩ := ih
    exact ⟨label, fun p hp => ⟨(hplans p hp).1.mono (.refl s label)
      (Spending.isOpen_put s c _ n).mpr, (hplans p hp).2⟩⟩

/-! ## The serves that are left -/

/-- The classes of the serves that are left, in the order they are taken. -/
def serveOrder (p : Plan) (s : Spending) : List Int :=
  p.tokens.flatMap fun t => List.replicate (t.unspent s) t.priorityClass

theorem length_serveOrder (p : Plan) (s : Spending) :
    (p.serveOrder s).length = p.leftSum s := by
  simp only [serveOrder, leftSum, List.length_flatMap, List.length_replicate]

theorem serveOrder_of_none {p : Plan} {s : Spending} (h : p.unspentToken? s = none) :
    p.serveOrder s = [] := by
  refine List.flatMap_eq_nil_iff.mpr fun t ht => ?_
  have hnone : ¬t.spent s < t.total := by simpa using List.find?_eq_none.mp h t ht
  rw [Token.unspent, Nat.sub_eq_zero_of_le (Nat.le_of_not_lt hnone), List.replicate_zero]

theorem fst_run_spend (p : Plan) (s : Spending) :
    (p.spend.run s).1 = p.highestUnspentClass s := by
  rw [run_spend, highestUnspentClass]
  cases p.unspentToken? s <;> rfl

section Spends

variable {κ : Type} {label : Counter → κ} {kind : Int → κ} {p : Plan} {s : Spending}

theorem labelled_spend (hl : Labelled label kind s p.tokens) :
    Labelled label kind (p.spend.run s).2 p.tokens := by
  refine hl.mono (.refl s label) fun {c} hc => ?_
  rw [run_spend]
  cases p.unspentToken? s with
  | none => exact hc
  | some t => exact (Spending.isOpen_raised s t.counter c 1).mpr hc

/-- The store after `n` attempts to take a serve. -/
def afterSpends (p : Plan) : Nat → Spending → Spending
  | 0, s => s
  | n + 1, s => (p.spend.run (p.afterSpends n s)).2

theorem labelled_afterSpends (hl : Labelled label kind s p.tokens) (n : Nat) :
    Labelled label kind (p.afterSpends n s) p.tokens := by
  induction n with
  | zero => exact hl
  | succ n ih => exact labelled_spend ih

end Spends

/-- A plan with five serves of one class. -/
def fiveServes : Plan := ⟨"plan", hour 0, hour 2, hour 0, [⟨1, 5, ⟨0⟩⟩]⟩

theorem coexist_fiveServes : Coexist [fiveServes] ⟨#[0]⟩ := by
  let x : Schedule := ⟨"plan", hour 0, hour 2, hour 0, [⟨1, 5⟩]⟩
  have hplan : ((ofSchedule x).run .empty).1 = fiveServes := by decide +kernel
  have hstore : ((ofSchedule x).run .empty).2 = ⟨#[0]⟩ := by decide +kernel
  have h := Coexist.start.make (.ofSchedule x)
  rwa [hplan, hstore] at h

end Plan

end DealPacing
