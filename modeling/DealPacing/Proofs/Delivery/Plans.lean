import DealPacing.Delivery.Plan
import DealPacing.Proofs.Delivery.Counters
import Mathlib.Data.List.Induction
import Mathlib.Data.List.Nodup

/-!
# What the operations on plans do to each priority class

A plan is looked at class by class: the balance of a class is its total together with the serves
that its counter shows. Every operation that makes a plan is described twice: by the counters that
its tokens continue, and by the balance it leaves in each class.

## Main definitions

* `Schedule.total?`, `Plan.balance?`: the total and the balance of a class
* `Schedule.Distinct`, `Plan.Distinct`: each class occurs at most once
* `OwnClasses`: in a map by class, every value is under its own class

## Main results

* `ofSchedule_continues`, `withUpdatedSchedule_continues`, `carriedInto_continues`: where the
  counters of a plan come from
* `balance?_ofSchedule`, `balance?_withUpdatedSchedule`, `balance?_carriedInto`, `balance?_raised`:
  what becomes of each class
-/

namespace DealPacing

/-- In a list with distinct keys the element with a key is found by it. -/
theorem find?_key_eq_some_iff {α κ : Type} [BEq κ] [LawfulBEq κ] {key : α → κ} {l : List α}
    (hd : (l.map key).Nodup) {c : κ} {a : α} :
    l.find? (key · == c) = some a ↔ a ∈ l ∧ key a = c := by
  constructor
  · intro h
    exact ⟨List.mem_of_find?_eq_some h, by simpa using List.find?_some h⟩
  · rintro ⟨ha, rfl⟩
    induction l with
    | nil => cases ha
    | cons b l ih =>
      rw [List.map_cons, List.nodup_cons] at hd
      rcases List.mem_cons.mp ha with rfl | ha
      · simp
      · have hne : key b ≠ key a := fun e => hd.1 (e ▸ List.mem_map_of_mem ha)
        rw [List.find?_cons_of_neg (by simpa using hne)]
        exact ih hd.2 ha

theorem find?_key_perm {α κ : Type} [BEq κ] [LawfulBEq κ] {key : α → κ} {l l' : List α}
    (hp : l.Perm l') (hd : (l.map key).Nodup) (c : κ) :
    l.find? (key · == c) = l'.find? (key · == c) := by
  ext a
  rw [find?_key_eq_some_iff hd, find?_key_eq_some_iff ((hp.map key).nodup_iff.mp hd), hp.mem_iff]

theorem nodup_keys_toList {κ α : Type} [Ord κ] [Std.TransOrd κ] [Std.LawfulEqOrd κ]
    (m : Std.ExtTreeMap κ α) : (m.toList.map Prod.fst).Nodup :=
  List.pairwise_map.mpr (Std.ExtTreeMap.distinct_keys_toList.imp fun h e => h (by simp [e]))

/-! ## Values by class -/

section Values

variable {α : Type} {key : α → Int} {m : Plan.ByClass α}

/-- Every value is kept under its own class. -/
def OwnClasses (key : α → Int) (m : Plan.ByClass α) : Prop :=
  ∀ (c : Int) a, m[c]? = some a → key a = c

theorem OwnClasses.insert (h : OwnClasses key m) {c : Int} {a : α} (ha : key a = c) :
    OwnClasses key (m.insert c a) := by
  intro d b hb
  rw [Std.ExtTreeMap.getElem?_insert] at hb
  split at hb
  · next hd => exact Option.some.inj hb ▸ ha.trans (Std.LawfulEqCmp.eq_of_compare hd)
  · exact h d b hb

/-- Values that are each under their own class have different classes. -/
theorem OwnClasses.nodup (h : OwnClasses key m) : ((m.toList.map Prod.snd).map key).Nodup := by
  have hkeys : (m.toList.map Prod.snd).map key = m.toList.map Prod.fst := by
    rw [List.map_map]
    refine List.map_congr_left fun e he => ?_
    exact h e.1 e.2 (Std.ExtTreeMap.mem_toList_iff_getElem?_eq_some.mp he)
  rw [hkeys]
  exact nodup_keys_toList m

/-- Each class finds its own value. -/
theorem OwnClasses.find?_eq (h : OwnClasses key m) (c : Int) :
    (m.toList.map Prod.snd).find? (key · == c) = m[c]? := by
  ext a
  rw [find?_key_eq_some_iff h.nodup, List.mem_map]
  constructor
  · rintro ⟨⟨⟨d, b⟩, hmem, rfl⟩, rfl⟩
    have hget := Std.ExtTreeMap.mem_toList_iff_getElem?_eq_some.mp hmem
    exact h d b hget ▸ hget
  · intro ha
    exact ⟨⟨(c, a), Std.ExtTreeMap.mem_toList_iff_getElem?_eq_some.mpr ha, rfl⟩, h c a ha⟩

/-- Of a list with different classes a map holds the value of each class. -/
theorem getElem?_ofList_map {β : Type} (value : α → β) {l : List α} (hd : (l.map key).Nodup)
    (c : Int) :
    (Std.ExtTreeMap.ofList (l.map fun a => (key a, value a)))[c]? =
      (l.find? (key · == c)).map value := by
  cases ha : l.find? (key · == c) with
  | some a =>
    obtain ⟨hmem, rfl⟩ := (find?_key_eq_some_iff hd).mp ha
    refine Std.ExtTreeMap.getElem?_ofList_of_mem (by simp) ?_ (List.mem_map.mpr ⟨a, hmem, rfl⟩)
    exact List.pairwise_map.mpr ((List.pairwise_map.mp hd).imp (by simp))
  | none =>
    refine Std.ExtTreeMap.getElem?_ofList_of_contains_eq_false ?_
    simpa [Function.comp_def] using List.find?_eq_none.mp ha

end Values

/-- The priority classes that a schedule lists. -/
def Schedule.classes (x : Schedule) : List Int := x.tokens.map (·.priorityClass)

/-- The schedule lists each class at most once. -/
def Schedule.Distinct (x : Schedule) : Prop := x.classes.Nodup

instance (x : Schedule) : Decidable x.Distinct := inferInstanceAs (Decidable x.classes.Nodup)

/-- The total of a class. -/
def Schedule.total? (x : Schedule) (c : Int) : Option Nat :=
  (x.tokens.find? (·.priorityClass == c)).map (·.total)

namespace Plan

/-- The priority classes of a plan. -/
def classes (p : Plan) : List Int := p.tokens.map (·.priorityClass)

/-- Each class occurs at most once. -/
def Distinct (p : Plan) : Prop := p.classes.Nodup

/-- The balance of a class. -/
def balance? (p : Plan) (c : Int) (s : Spending) : Option Balance :=
  (p.token? c).map (·.balance s)

/-- The serves granted in a class; none when the plan lacks the class. -/
def total? (p : Plan) (c : Int) : Option Nat := (p.token? c).map (·.total)

/-- The serves left in a class. -/
def unspentInClass (p : Plan) (c : Int) (s : Spending) : Nat :=
  ((p.token? c).map (·.unspent s)).getD 0

/-- All counters of the plan are open. -/
def IsOpen (p : Plan) (s : Spending) : Prop := ∀ t ∈ p.tokens, s.IsOpen t.counter

theorem mem_of_token? {p : Plan} {c : Int} {t : Token} (h : p.token? c = some t) :
    t ∈ p.tokens ∧ t.priorityClass = c :=
  ⟨List.mem_of_find?_eq_some h, by simpa using List.find?_some h⟩

theorem token?_eq_some_iff {p : Plan} (hd : p.Distinct) {c : Int} {t : Token} :
    p.token? c = some t ↔ t ∈ p.tokens ∧ t.priorityClass = c :=
  find?_key_eq_some_iff hd

theorem token?_isSome_iff {p : Plan} {c : Int} : (p.token? c).isSome ↔ c ∈ p.classes := by
  simp [token?, classes]

theorem spentInClass_eq_zero {p : Plan} {c : Int} (hc : c ∉ p.classes) (s : Spending) :
    p.spentInClass c s = 0 := by
  have hnone : p.token? c = none := by
    rw [← Option.not_isSome_iff_eq_none]
    exact fun h => hc (token?_isSome_iff.mp h)
  rw [spentInClass, hnone]
  rfl

theorem spentInClass_eq (p : Plan) (c : Int) (s : Spending) :
    p.spentInClass c s = ((p.balance? c s).map (·.spent)).getD 0 := by
  simp [spentInClass, balance?, Token.balance, Function.comp_def]

theorem unspentInClass_eq (p : Plan) (c : Int) (s : Spending) :
    p.unspentInClass c s = ((p.balance? c s).map Balance.unspent).getD 0 := by
  simp [unspentInClass, balance?, Token.balance, Token.unspent, Balance.unspent,
    Function.comp_def]

theorem total?_eq (p : Plan) (c : Int) (s : Spending) :
    p.total? c = (p.balance? c s).map (·.total) := by
  simp [total?, balance?, Token.balance, Function.comp_def]

theorem spentInClass_of_total?_eq_none {p : Plan} {c : Int} (h : p.total? c = none)
    (s : Spending) : p.spentInClass c s = 0 := by
  rw [spentInClass, Option.map_eq_none_iff.mp h]
  rfl

theorem balance?_eq_of_keeps {p : Plan} {s s' : Spending} (h : s.Keeps s') (hp : p.IsOpen s)
    (c : Int) : p.balance? c s' = p.balance? c s := by
  unfold balance?
  cases ht : p.token? c with
  | none => rfl
  | some t =>
    simp only [Option.map_some, Token.balance_eq_of_keeps h (hp t (mem_of_token? ht).1)]

theorem spentInClass_eq_of_keeps {p : Plan} {s s' : Spending} (h : s.Keeps s')
    (hp : p.IsOpen s) (c : Int) : p.spentInClass c s' = p.spentInClass c s := by
  rw [spentInClass_eq, spentInClass_eq, balance?_eq_of_keeps h hp]

theorem isOpen_of_labelled {κ : Type} {label : Counter → κ} {kind : Int → κ} {s : Spending}
    {p : Plan} (h : Labelled label kind s p.tokens) : p.IsOpen s := fun t ht => (h t ht).1

/-! ## The plan of a schedule -/

/-- The balances that the plan of a schedule starts with. -/
def openingBalances (x : Schedule) : List Balance :=
  (inClassOrder x.tokens).map fun a => ⟨a.priorityClass, a.total, 0⟩

theorem ofSchedule_continues (x : Schedule) (s : Spending) :
    Continues s ((ofSchedule x).run s).2 [] ((ofSchedule x).run s).1.tokens :=
  ofBalances_continues _ s

theorem keeps_ofSchedule (x : Schedule) (s : Spending) : s.Keeps ((ofSchedule x).run s).2 :=
  keeps_ofBalances _ s

theorem balances_ofSchedule (x : Schedule) (s : Spending) :
    ((ofSchedule x).run s).1.balances ((ofSchedule x).run s).2 = openingBalances x :=
  map_balance_ofBalances _ s

theorem spent_ofSchedule (x : Schedule) (s : Spending) :
    ∀ t ∈ ((ofSchedule x).run s).1.tokens, t.spent ((ofSchedule x).run s).2 = 0 := by
  intro t ht
  have hb : t.balance ((ofSchedule x).run s).2 ∈ openingBalances x := by
    rw [← balances_ofSchedule x s]
    exact List.mem_map_of_mem ht
  obtain ⟨a, -, ha⟩ := List.mem_map.mp hb
  exact (congrArg Balance.spent ha).symm

/-- Allotments that are listed in the order of their classes stay as they are. -/
theorem inClassOrder_of_pairwise {tokens : List Allotment}
    (h : tokens.Pairwise fun a b => a.priorityClass ≤ b.priorityClass) :
    inClassOrder tokens = tokens :=
  List.mergeSort_of_pairwise (h.imp decide_eq_true)

/-- The plan of a schedule that lists its tokens in the order of their classes. -/
theorem ofSchedule_of_pairwise {x : Schedule}
    (h : x.tokens.Pairwise fun a b => a.priorityClass ≤ b.priorityClass) :
    ofSchedule x = do
      let tokens ← Token.ofBalances (x.tokens.map fun a => ⟨a.priorityClass, a.total, 0⟩)
      return ⟨x.planId, x.start, x.finish, x.updated, tokens⟩ := by
  rw [ofSchedule, inClassOrder_of_pairwise h]

theorem classes_ofSchedule_perm (x : Schedule) (s : Spending) :
    ((ofSchedule x).run s).1.classes.Perm x.classes := by
  have hb : ((ofSchedule x).run s).1.classes =
      (openingBalances x).map (·.priorityClass) := by
    rw [← balances_ofSchedule x s, balances, List.map_map]
    rfl
  rw [hb, openingBalances, List.map_map]
  exact (List.mergeSort_perm x.tokens _).map _

theorem distinct_ofSchedule {x : Schedule} (hd : x.Distinct) (s : Spending) :
    ((ofSchedule x).run s).1.Distinct :=
  (classes_ofSchedule_perm x s).nodup_iff.mpr hd

theorem balance?_ofSchedule {x : Schedule} (hd : x.Distinct) (c : Int) (s : Spending) :
    ((ofSchedule x).run s).1.balance? c ((ofSchedule x).run s).2 =
      (x.total? c).map (⟨c, ·, 0⟩) := by
  have hfind : ((ofSchedule x).run s).1.balance? c ((ofSchedule x).run s).2 =
      (openingBalances x).find? (·.priorityClass == c) := by
    rw [← balances_ofSchedule x s, balances, List.find?_map]
    rfl
  -- the plan lists its tokens in the order of their classes, and finds the same ones
  have horder : (inClassOrder x.tokens).find? (·.priorityClass == c) =
      x.tokens.find? (·.priorityClass == c) :=
    (find?_key_perm (List.mergeSort_perm x.tokens _).symm hd c).symm
  rw [hfind, openingBalances, List.find?_map]
  change ((inClassOrder x.tokens).find? (·.priorityClass == c)).map _ = _
  rw [horder, Schedule.total?]
  cases ha : x.tokens.find? (·.priorityClass == c) with
  | none => rfl
  | some a =>
    have hc : a.priorityClass = c := by simpa using List.find?_some ha
    simp [hc]

theorem total?_ofSchedule {x : Schedule} (hx : x.Distinct) (c : Int) (s : Spending) :
    ((ofSchedule x).run s).1.total? c = x.total? c := by
  rw [total?_eq _ c ((ofSchedule x).run s).2, balance?_ofSchedule hx]
  simp [Function.comp_def]

/-! ## Newer revisions -/

theorem run_continued_of_some {p : Plan} {t u : Token} (h : p.token? t.priorityClass = some u)
    (ts : List Token) (s : Spending) :
    (p.continued (t :: ts)).run s =
      (u.revised t.total :: ((p.continued ts).run s).1, ((p.continued ts).run s).2) := by
  simp only [continued, h]
  rfl

theorem run_continued_of_none {p : Plan} {t : Token} (h : p.token? t.priorityClass = none)
    (ts : List Token) (s : Spending) :
    (p.continued (t :: ts)).run s =
      (⟨t.priorityClass, t.total, s.next⟩ :: ((p.continued ts).run (s.opened 0)).1,
        ((p.continued ts).run (s.opened 0)).2) := by
  simp only [continued, h]
  rfl

theorem isOpen_opened {p : Plan} {s : Spending} (hp : p.IsOpen s) (n : Nat) :
    p.IsOpen (s.opened n) := fun t ht => (s.keeps_opened n).isOpen (hp t ht)

theorem continued_continues {p : Plan} {s : Spending} (hp : p.IsOpen s) (ts : List Token) :
    Continues s ((p.continued ts).run s).2 p.tokens ((p.continued ts).run s).1 := by
  induction ts generalizing s with
  | nil => exact .nil (.refl s)
  | cons t ts ih =>
    cases h : p.token? t.priorityClass with
    | some u =>
      rw [run_continued_of_some h]
      exact (ih hp).cons_old (mem_of_token? h).1 (hp u (mem_of_token? h).1) _
    | none =>
      rw [run_continued_of_none h]
      exact (ih (isOpen_opened hp 0)).cons_next hp _ _

theorem keeps_continued (p : Plan) (ts : List Token) (s : Spending) :
    s.Keeps ((p.continued ts).run s).2 := by
  induction ts generalizing s with
  | nil => exact .refl s
  | cons t ts ih =>
    cases h : p.token? t.priorityClass with
    | some u =>
      rw [run_continued_of_some h]
      exact ih s
    | none =>
      rw [run_continued_of_none h]
      exact (s.keeps_opened 0).trans (ih _)

theorem map_priorityClass_continued (p : Plan) (ts : List Token) (s : Spending) :
    ((p.continued ts).run s).1.map (·.priorityClass) = ts.map (·.priorityClass) := by
  induction ts generalizing s with
  | nil => rfl
  | cons t ts ih =>
    cases h : p.token? t.priorityClass with
    | some u =>
      rw [run_continued_of_some h, List.map_cons, ih, List.map_cons]
      exact congrArg (· :: _) (mem_of_token? h).2
    | none => rw [run_continued_of_none h, List.map_cons, ih, List.map_cons]

/-- A class of the newer tokens has their total and the spend of the plan. -/
theorem find?_continued {p : Plan} {s : Spending} (hp : p.IsOpen s) (ts : List Token) (c : Int) :
    (((p.continued ts).run s).1.find? (·.priorityClass == c)).map
        (·.balance ((p.continued ts).run s).2) =
      (ts.find? (·.priorityClass == c)).map fun t => ⟨c, t.total, p.spentInClass c s⟩ := by
  -- the first newer token of the class is the one that is found
  induction ts generalizing s with
  | nil => rfl
  | cons t ts ih =>
    cases h : p.token? t.priorityClass with
    | some u =>
      obtain ⟨hu, hcu⟩ := mem_of_token? h
      rw [run_continued_of_some h]
      by_cases hc : t.priorityClass = c
      · subst hc
        have hk := (continued_continues hp ts).keeps
        rw [List.find?_cons_of_pos (by simpa [Token.revised] using hcu),
          List.find?_cons_of_pos (by simp)]
        simp [Token.balance, Token.revised, Token.spent, hcu, hk.get_eq (hp u hu), spentInClass, h]
      · rw [List.find?_cons_of_neg (by simpa [Token.revised, hcu] using hc),
          List.find?_cons_of_neg (by simpa using hc)]
        exact ih hp
    | none =>
      rw [run_continued_of_none h]
      by_cases hc : t.priorityClass = c
      · subst hc
        have hk := (continued_continues (isOpen_opened hp 0) ts).keeps
        rw [List.find?_cons_of_pos (by simp), List.find?_cons_of_pos (by simp)]
        simp [Token.balance, Token.spent, hk.get_eq (s.isOpen_next_opened 0),
          Spending.get_next_opened, spentInClass, h]
      · rw [List.find?_cons_of_neg (by simpa using hc), List.find?_cons_of_neg (by simpa using hc),
          ih (isOpen_opened hp 0), spentInClass_eq_of_keeps (s.keeps_opened 0) hp]

/-- A class of the newer tokens that the plan has keeps its counter. -/
theorem find?_continued_of_some {p : Plan} {c : Int} {u : Token} (hu : p.token? c = some u)
    (ts : List Token) (s : Spending) :
    ((p.continued ts).run s).1.find? (·.priorityClass == c) =
      (ts.find? (·.priorityClass == c)).map fun t => u.revised t.total := by
  induction ts generalizing s with
  | nil => rfl
  | cons t ts ih =>
    by_cases hc : t.priorityClass = c
    · subst hc
      have hcu := (mem_of_token? hu).2
      rw [run_continued_of_some hu, List.find?_cons_of_pos (by simpa [Token.revised] using hcu),
        List.find?_cons_of_pos (by simp)]
      rfl
    · rw [List.find?_cons_of_neg (by simpa using hc)]
      cases h : p.token? t.priorityClass with
      | some v =>
        have hcv := (mem_of_token? h).2
        rw [run_continued_of_some h,
          List.find?_cons_of_neg (by simpa [Token.revised, hcv] using hc)]
        exact ih s
      | none =>
        rw [run_continued_of_none h, List.find?_cons_of_neg (by simpa using hc)]
        exact ih (s.opened 0)

theorem keeps_withScheduleOf (p newer : Plan) (s : Spending) :
    s.Keeps ((p.withScheduleOf newer).run s).2 := keeps_continued p newer.tokens s

theorem withScheduleOf_continues {p : Plan} {s : Spending} (hp : p.IsOpen s) (newer : Plan) :
    Continues s ((p.withScheduleOf newer).run s).2 p.tokens
      ((p.withScheduleOf newer).run s).1.tokens :=
  continued_continues hp newer.tokens

theorem classes_withScheduleOf (p newer : Plan) (s : Spending) :
    ((p.withScheduleOf newer).run s).1.classes = newer.classes :=
  map_priorityClass_continued p newer.tokens s

/-- A newer revision sets the totals and keeps the spend. -/
theorem balance?_withScheduleOf {p : Plan} {s : Spending} (hp : p.IsOpen s) (newer : Plan)
    (c : Int) :
    ((p.withScheduleOf newer).run s).1.balance? c ((p.withScheduleOf newer).run s).2 =
      (newer.token? c).map fun t => ⟨c, t.total, p.spentInClass c s⟩ :=
  find?_continued hp newer.tokens c

theorem run_withUpdatedSchedule (p : Plan) (x : Schedule) (s : Spending) :
    (p.withUpdatedSchedule x).run s =
      (p.withScheduleOf ((ofSchedule x).run s).1).run ((ofSchedule x).run s).2 := rfl

theorem keeps_withUpdatedSchedule (p : Plan) (x : Schedule) (s : Spending) :
    s.Keeps ((p.withUpdatedSchedule x).run s).2 :=
  (keeps_ofSchedule x s).trans (keeps_withScheduleOf p _ _)

theorem isOpen_ofSchedule {p : Plan} {s : Spending} (hp : p.IsOpen s) (x : Schedule) :
    p.IsOpen ((ofSchedule x).run s).2 :=
  fun t ht => (keeps_ofSchedule x s).isOpen (hp t ht)

theorem withUpdatedSchedule_continues {p : Plan} {s : Spending} (hp : p.IsOpen s) (x : Schedule) :
    Continues s ((p.withUpdatedSchedule x).run s).2 p.tokens
      ((p.withUpdatedSchedule x).run s).1.tokens := by
  rw [run_withUpdatedSchedule]
  exact (withScheduleOf_continues (isOpen_ofSchedule hp x) _).of_keeps (keeps_ofSchedule x s) hp

theorem token?_withUpdatedSchedule_of_some {p : Plan} {c : Int} {u : Token}
    (hu : p.token? c = some u) (x : Schedule) (s : Spending) :
    ((p.withUpdatedSchedule x).run s).1.token? c =
      (((ofSchedule x).run s).1.token? c).map fun t => u.revised t.total := by
  rw [run_withUpdatedSchedule]
  exact find?_continued_of_some hu _ _

theorem distinct_withUpdatedSchedule (p : Plan) {x : Schedule} (hd : x.Distinct) (s : Spending) :
    ((p.withUpdatedSchedule x).run s).1.Distinct := by
  unfold Distinct
  rw [run_withUpdatedSchedule, classes_withScheduleOf]
  exact distinct_ofSchedule hd s

theorem balance?_withUpdatedSchedule {p : Plan} {s : Spending} (hp : p.IsOpen s) {x : Schedule}
    (hd : x.Distinct) (c : Int) :
    ((p.withUpdatedSchedule x).run s).1.balance? c ((p.withUpdatedSchedule x).run s).2 =
      (x.total? c).map fun total => ⟨c, total, p.spentInClass c s⟩ := by
  have htotal : (((ofSchedule x).run s).1.token? c).map (·.total) = x.total? c := by
    have := congrArg (Option.map (·.total)) (balance?_ofSchedule hd c s)
    simpa [balance?, Token.balance, Function.comp_def] using this
  rw [run_withUpdatedSchedule, balance?_withScheduleOf (isOpen_ofSchedule hp x), ← htotal,
    spentInClass_eq_of_keeps (keeps_ofSchedule x s) hp, Option.map_map]
  rfl

/-! ## Carrying a plan on -/

/-- Join a token to the carried ones, without regard to its spend. -/
def joined (carried : ByClass Token) (t : Token) : ByClass Token :=
  match carried[t.priorityClass]? with
  | some c => carried.insert t.priorityClass (c.revised (Token.wordAdd c.total t.total))
  | none => carried.insert t.priorityClass t

/-- The tokens of a plan by class. -/
def tokensByClass (p : Plan) : ByClass Token :=
  Std.ExtTreeMap.ofList (p.tokens.map fun t => (t.priorityClass, t))

/-- The plan of a schedule, in which the previous plan is carried on. -/
def carriedInto (previous : Plan) (x : Schedule) : StateM Spending Plan := do
  (← ofSchedule x).mergedWithPrevious previous

/-- The spend of a token that is joined goes to the carried token of its class. -/
theorem run_absorb (carried : ByClass Token) (t : Token) (s : Spending) :
    (absorb carried t).run s = (joined carried t,
      match carried[t.priorityClass]? with
      | some c => if 0 < t.spent s then ((c.recordSpent (t.spent s)).run s).2 else s
      | none => s) := by
  unfold absorb joined
  cases carried[t.priorityClass]? with
  | none => rfl
  | some c =>
    let next := carried.insert t.priorityClass (c.revised (Token.wordAdd c.total t.total))
    change StateT.run (if 0 < t.spent s then c.recordSpent (t.spent s) >>= fun _ => pure next
      else pure next) s = (next, if 0 < t.spent s then ((c.recordSpent (t.spent s)).run s).2 else s)
    split <;> rfl

theorem run_absorb_of_unspent {t : Token} {s : Spending} (h : t.spent s = 0)
    (carried : ByClass Token) : (absorb carried t).run s = (joined carried t, s) := by
  rw [run_absorb, h]
  cases carried[t.priorityClass]? <;> rfl

theorem run_foldlM_absorb {ts : List Token} {s : Spending} (h : ∀ t ∈ ts, t.spent s = 0)
    (carried : ByClass Token) :
    (ts.foldlM absorb carried).run s = (ts.foldl joined carried, s) := by
  induction ts generalizing carried with
  | nil => rfl
  | cons t ts ih =>
    rw [List.foldlM_cons, StateT.run_bind, run_absorb_of_unspent (h t (by simp))]
    exact ih (fun u hu => h u (by simp [hu])) _

theorem run_mergedWithPrevious {p : Plan} {s : Spending} (h : ∀ t ∈ p.tokens, t.spent s = 0)
    (previous : Plan) :
    (p.mergedWithPrevious previous).run s =
      ({ p with
          tokens := (p.tokens.foldl joined previous.tokensByClass).toList.map Prod.snd }, s) := by
  have hrun : (p.mergedWithPrevious previous).run s =
      (fun r : ByClass Token × Spending =>
        (({ p with tokens := r.1.toList.map Prod.snd } : Plan), r.2))
        ((p.tokens.foldlM absorb previous.tokensByClass).run s) := rfl
  rw [hrun, run_foldlM_absorb h]

theorem run_carriedInto (previous : Plan) (x : Schedule) (s : Spending) :
    (previous.carriedInto x).run s =
      ({ ((ofSchedule x).run s).1 with
          tokens := (((ofSchedule x).run s).1.tokens.foldl joined
            previous.tokensByClass).toList.map Prod.snd },
        ((ofSchedule x).run s).2) :=
  run_mergedWithPrevious (spent_ofSchedule x s) previous

/-- Every token is kept under its own class. -/
def KeyedByClass (m : ByClass Token) : Prop :=
  ∀ (c : Int) (t : Token), m[c]? = some t → t.priorityClass = c

theorem mem_of_tokensByClass {p : Plan} {c : Int} {t : Token}
    (h : p.tokensByClass[c]? = some t) : t ∈ p.tokens ∧ t.priorityClass = c := by
  -- of the tokens of one class the last is kept, so the list is taken from its end
  have key : ∀ l : List Token,
      (Std.ExtTreeMap.ofList (l.map fun t => (t.priorityClass, t)))[c]? = some t →
        t ∈ l ∧ t.priorityClass = c := by
    intro l
    rw [Std.ExtTreeMap.ofList_eq_foldl]
    induction l using List.reverseRecOn with
    | nil => simp
    | append_singleton l u ih =>
      rw [List.map_append, List.foldl_append]
      simp only [List.map_cons, List.map_nil, List.foldl_cons, List.foldl_nil,
        Std.ExtTreeMap.getElem?_insert, Std.LawfulEqCmp.compare_eq_iff_eq]
      split
      · rintro h
        obtain rfl := Option.some.inj h
        exact ⟨by simp, by assumption⟩
      · intro h
        exact ⟨List.mem_append_left _ (ih h).1, (ih h).2⟩
  exact key p.tokens h

theorem getElem?_tokensByClass {p : Plan} (hd : p.Distinct) (c : Int) :
    p.tokensByClass[c]? = p.token? c := by
  rw [tokensByClass, getElem?_ofList_map (fun t => t) hd, Option.map_id']
  rfl

theorem keyedByClass_tokensByClass (p : Plan) : KeyedByClass p.tokensByClass :=
  fun _ _ h => (mem_of_tokensByClass h).2

theorem getElem?_joined (m : ByClass Token) (t : Token) (c : Int) :
    (joined m t)[c]? =
      if t.priorityClass = c then
        some ((m[c]?.map fun u => u.revised (Token.wordAdd u.total t.total)).getD t)
      else m[c]? := by
  unfold joined
  by_cases hc : t.priorityClass = c
  · subst hc
    cases h : m[t.priorityClass]? <;> simp
  · cases h : m[t.priorityClass]? <;> simp [Std.ExtTreeMap.getElem?_insert, hc]

theorem KeyedByClass.joined {m : ByClass Token} (h : KeyedByClass m) (t : Token) :
    KeyedByClass (joined m t) := by
  intro c u hu
  rw [getElem?_joined] at hu
  split at hu
  · next hc =>
    obtain rfl := Option.some.inj hu
    cases hm : m[c]? with
    | none => simpa using hc
    | some v => simpa [Token.revised] using h c v hm
  · exact h c u hu

theorem KeyedByClass.foldl_joined {m : ByClass Token} (h : KeyedByClass m) (ts : List Token) :
    KeyedByClass (ts.foldl Plan.joined m) := by
  induction ts generalizing m with
  | nil => exact h
  | cons t ts ih => exact ih (h.joined t)

/-- A class that is carried on keeps its counter, and both totals are added in a word. -/
theorem getElem?_foldl_joined {ts : List Token} (hd : (ts.map (·.priorityClass)).Nodup)
    (m : ByClass Token) (c : Int) :
    (ts.foldl joined m)[c]? =
      match ts.find? (·.priorityClass == c) with
      | none => m[c]?
      | some t => some ((m[c]?.map fun u => u.revised (Token.wordAdd u.total t.total)).getD t) := by
  induction ts generalizing m with
  | nil => rfl
  | cons t ts ih =>
    rw [List.map_cons, List.nodup_cons] at hd
    rw [List.foldl_cons, ih hd.2]
    by_cases hc : t.priorityClass = c
    · -- the first token of the class is joined, and no later one is of that class
      have hnone : ts.find? (·.priorityClass == c) = none := by
        rw [List.find?_eq_none]
        intro u hu e
        exact hd.1 (List.mem_map.mpr ⟨u, hu, by simpa [hc] using e⟩)
      rw [hnone, List.find?_cons_of_pos (by simpa using hc), getElem?_joined, if_pos hc]
    · rw [List.find?_cons_of_neg (by simpa using hc), getElem?_joined, if_neg hc]

/-- Every joined token has the counter of a carried one or of one that was joined. -/
theorem counter_foldl_joined {m : ByClass Token} (ts : List Token) {c : Int} {t : Token}
    (ht : (ts.foldl joined m)[c]? = some t) :
    ∃ u, (m[c]? = some u ∨ u ∈ ts ∧ u.priorityClass = c) ∧ u.counter = t.counter := by
  induction ts generalizing m with
  | nil => exact ⟨t, Or.inl ht, rfl⟩
  | cons v ts ih =>
    obtain ⟨u, hu | ⟨hu, hc⟩, e⟩ := ih ht
    · rw [getElem?_joined] at hu
      split at hu
      · next hc =>
        obtain rfl := Option.some.inj hu
        cases hm : m[c]? with
        | none => exact ⟨v, Or.inr ⟨by simp, hc⟩, by simpa [hm] using e⟩
        | some w => exact ⟨w, Or.inl rfl, by simpa [hm, Token.revised] using e⟩
      · exact ⟨u, Or.inl hu, e⟩
    · exact ⟨u, Or.inr ⟨List.mem_cons_of_mem v hu, hc⟩, e⟩

section ByClass

variable {p : Plan} {m : ByClass Token}

theorem mem_tokens_iff_of_byClass (hp : p.tokens = m.toList.map Prod.snd) {t : Token} :
    t ∈ p.tokens ↔ ∃ c : Int, m[c]? = some t := by
  rw [hp, List.mem_map]
  constructor
  · rintro ⟨⟨c, u⟩, hu, rfl⟩
    exact ⟨c, Std.ExtTreeMap.mem_toList_iff_getElem?_eq_some.mp hu⟩
  · rintro ⟨c, ht⟩
    exact ⟨(c, t), Std.ExtTreeMap.mem_toList_iff_getElem?_eq_some.mpr ht, rfl⟩

theorem distinct_of_byClass (hp : p.tokens = m.toList.map Prod.snd) (hm : KeyedByClass m) :
    p.Distinct := by
  rw [Distinct, classes, hp]
  exact OwnClasses.nodup hm

theorem token?_of_byClass (hp : p.tokens = m.toList.map Prod.snd) (hm : KeyedByClass m)
    (c : Int) : p.token? c = m[c]? := by
  rw [token?, hp]
  exact OwnClasses.find?_eq hm c

end ByClass

theorem carriedInto_continues {previous : Plan} {s : Spending} (hp : previous.IsOpen s)
    (x : Schedule) :
    Continues s ((previous.carriedInto x).run s).2 previous.tokens
      ((previous.carriedInto x).run s).1.tokens := by
  rw [run_carriedInto]
  refine (ofSchedule_continues x s).of_shared hp fun t ht => ?_
  have hm := (keyedByClass_tokensByClass previous).foldl_joined ((ofSchedule x).run s).1.tokens
  obtain ⟨c, hc⟩ := (mem_tokens_iff_of_byClass rfl).mp ht
  obtain ⟨u, hu | ⟨hu, hcu⟩, e⟩ := counter_foldl_joined _ hc
  · obtain ⟨hu, hcu⟩ := mem_of_tokensByClass hu
    exact ⟨u, Or.inl hu, hcu.trans (hm c t hc).symm, e⟩
  · exact ⟨u, Or.inr hu, hcu.trans (hm c t hc).symm, e⟩

theorem keeps_carriedInto (previous : Plan) (x : Schedule) (s : Spending) :
    s.Keeps ((previous.carriedInto x).run s).2 := by
  rw [run_carriedInto]
  exact keeps_ofSchedule x s

theorem distinct_carriedInto (previous : Plan) (x : Schedule) (s : Spending) :
    ((previous.carriedInto x).run s).1.Distinct := by
  rw [run_carriedInto]
  exact distinct_of_byClass rfl ((keyedByClass_tokensByClass previous).foldl_joined _)

/-- The token of a class in a plan that carries on another one. -/
theorem token?_carriedInto {previous : Plan} (hd : previous.Distinct) {x : Schedule}
    (hx : x.Distinct) (s : Spending) (c : Int) :
    ((previous.carriedInto x).run s).1.token? c =
      match ((ofSchedule x).run s).1.token? c with
      | none => previous.token? c
      | some t =>
        some (((previous.token? c).map fun u =>
          u.revised (Token.wordAdd u.total t.total)).getD t) := by
  rw [run_carriedInto, token?_of_byClass rfl ((keyedByClass_tokensByClass previous).foldl_joined _),
    getElem?_foldl_joined (distinct_ofSchedule hx s), getElem?_tokensByClass hd]
  rfl

/-- In a class of both plans the totals are added in a word, and the spend of the previous plan
stays. -/
theorem balance?_carriedInto {previous : Plan} (hd : previous.Distinct) {s : Spending}
    (hp : previous.IsOpen s) {x : Schedule} (hx : x.Distinct) (c : Int) :
    ((previous.carriedInto x).run s).1.balance? c ((previous.carriedInto x).run s).2 =
      ((previous.total? c).merge Token.wordAdd (x.total? c)).map
        (⟨c, ·, previous.spentInClass c s⟩) := by
  have hs : ((previous.carriedInto x).run s).2 = ((ofSchedule x).run s).2 := by
    rw [run_carriedInto]
  have hnew := balance?_ofSchedule hx c s
  -- the schedule opens counters before the plans are joined, which the previous plan does not feel
  rw [← spentInClass_eq_of_keeps (keeps_ofSchedule x s) hp, hs]
  simp only [balance?, total?, spentInClass] at hnew ⊢
  rw [token?_carriedInto hd hx]
  cases ht : ((ofSchedule x).run s).1.token? c with
  | none =>
    have htotal : x.total? c = none := by simpa [ht] using hnew.symm
    cases hu : previous.token? c with
    | none => simp [htotal]
    | some u => simp [htotal, Token.balance, (mem_of_token? hu).2]
  | some t =>
    obtain ⟨total, htotal⟩ : ∃ total, x.total? c = some total := by
      cases h : x.total? c with
      | none => simp [ht, h] at hnew
      | some total => exact ⟨total, rfl⟩
    have hb : t.balance ((ofSchedule x).run s).2 = ⟨c, total, 0⟩ := by
      simpa [ht, htotal] using hnew
    have htt : t.total = total := congrArg Balance.total hb
    cases hu : previous.token? c with
    | none => simp [htotal, hb]
    | some u =>
      simp [htotal, htt, Token.balance, Token.revised, Token.spent, (mem_of_token? hu).2]

/-- Totals of both plans are added in a word. -/
theorem total?_carriedInto {p : Plan} (hd : p.Distinct) {s : Spending} (hp : p.IsOpen s)
    {x : Schedule} (hx : x.Distinct) (c : Int) :
    ((p.carriedInto x).run s).1.total? c = (p.total? c).merge Token.wordAdd (x.total? c) := by
  rw [total?_eq _ c ((p.carriedInto x).run s).2, balance?_carriedInto hd hp hx]
  simp [Function.comp_def]

theorem spentInClass_carriedInto {p : Plan} (hd : p.Distinct) {s : Spending} (hp : p.IsOpen s)
    {x : Schedule} (hx : x.Distinct) (c : Int) :
    ((p.carriedInto x).run s).1.spentInClass c ((p.carriedInto x).run s).2 =
      p.spentInClass c s := by
  rw [spentInClass_eq, balance?_carriedInto hd hp hx]
  cases ht : p.total? c with
  | none =>
    have hnone := spentInClass_of_total?_eq_none ht s
    cases x.total? c <;> simp [hnone]
  | some n => cases x.total? c <;> simp

/-! ## Taking serves -/

theorem mem_of_unspentToken? {p : Plan} {s : Spending} {t : Token}
    (h : p.unspentToken? s = some t) : t ∈ p.tokens ∧ t.spent s < t.total :=
  ⟨List.mem_of_find?_eq_some h, by simpa using List.find?_some h⟩

theorem run_spend (p : Plan) (s : Spending) :
    p.spend.run s =
      match p.unspentToken? s with
      | some t => (some t.priorityClass, s.raised t.counter 1)
      | none => (none, s) := by
  have hrun : p.spend.run s = StateT.run (match p.unspentToken? s with
    | some t => do
      Spending.add t.counter 1
      return some t.priorityClass
    | none => return none) s := rfl
  rw [hrun]
  cases p.unspentToken? s <;> rfl

/-- A serve of one class shows in that class only. -/
theorem balance?_raised {κ : Type} {label : Counter → κ} {kind : Int → κ}
    (hkind : Function.Injective kind) {p : Plan} {s : Spending}
    (hl : Labelled label kind s p.tokens) {t : Token} (ht : t ∈ p.tokens) (hd : p.Distinct)
    (n : Nat) (c : Int) :
    p.balance? c (s.raised t.counter n) =
      (p.balance? c s).map fun b =>
        if t.priorityClass = c then { b with spent := b.spent + n } else b := by
  unfold balance?
  cases hu : p.token? c with
  | none => rfl
  | some u =>
    obtain ⟨hum, hcu⟩ := mem_of_token? hu
    by_cases hc : t.priorityClass = c
    · have htu : u = t := by
        have := (token?_eq_some_iff hd).mpr ⟨ht, hc⟩
        rw [hu] at this
        exact Option.some.inj this
      subst htu
      simp [hc, Token.balance, Token.spent, Spending.get_raised_self (hl u hum).1]
    · -- tokens of other classes have other counters
      have hne : u.counter ≠ t.counter := fun e =>
        hc ((hl.priorityClass_eq hkind hl hum ht e).symm.trans hcu)
      simp [hc, Token.balance, Token.spent, Spending.get_raised_of_ne hne]

end Plan

end DealPacing
