import DealPacing.Delivery.Spending
import Mathlib.Logic.Function.Defs

/-!
# Opening and sharing spend counters

The store of counts only grows: a counter that is open stays open, and the operations that open
further counters leave its count alone. What a counter counts is written down by a label. Labels
never change while a counter is open, so tokens with different labels never share a counter.

## Main definitions

* `Spending.IsOpen`, `Spending.Keeps`: open counters, and stores that keep them
* `Continues s s' old new`: the tokens `new` share counters with `old`, or have new ones
* `Labelled`: every token counts in an open counter that is labelled by its class

## Main results

* `ofBalances_continues`, `map_balance_ofBalances`: tokens with counters of their own
* `Continues.exists_label`: continued tokens extend the labels
* `Labelled.priorityClass_eq`: a shared counter means the same class
-/

namespace DealPacing

namespace Spending

/-- The counter was opened. -/
def IsOpen (s : Spending) (c : Counter) : Prop := c.index < s.counts.size

/-- The counter that is opened next. -/
def next (s : Spending) : Counter := ⟨s.counts.size⟩

/-- The store with one more counter, which starts at `n`. -/
def opened (s : Spending) (n : Nat) : Spending := ⟨s.counts.push n⟩

/-- The store with `n` added to a counter. -/
def raised (s : Spending) (c : Counter) (n : Nat) : Spending :=
  ⟨s.counts.setIfInBounds c.index (s.get c + n)⟩

@[simp] theorem run_fresh (n : Nat) (s : Spending) : (fresh n).run s = (s.next, s.opened n) := rfl

@[simp] theorem run_add (c : Counter) (n : Nat) (s : Spending) :
    (add c n).run s = ((), s.raised c n) := rfl

theorem isOpen_opened (s : Spending) (n : Nat) (c : Counter) :
    (s.opened n).IsOpen c ↔ s.IsOpen c ∨ c = s.next := by
  obtain ⟨i⟩ := c
  simp only [IsOpen, opened, next, Array.size_push, Counter.mk.injEq]
  omega

theorem isOpen_next_opened (s : Spending) (n : Nat) : (s.opened n).IsOpen s.next :=
  (s.isOpen_opened n s.next).mpr (Or.inr rfl)

theorem not_isOpen_next (s : Spending) : ¬ s.IsOpen s.next := Nat.lt_irrefl _

theorem get_next_opened (s : Spending) (n : Nat) : (s.opened n).get s.next = n := by
  simp [get, opened, next, Array.getD]

theorem get_opened {s : Spending} {c : Counter} (h : s.IsOpen c) (n : Nat) :
    (s.opened n).get c = s.get c := by
  have h' : c.index < s.counts.size := h
  have h'' : c.index < s.counts.size + 1 := by omega
  simp [get, opened, Array.getD, h', h'', Array.getElem_push_lt]

theorem isOpen_put (s : Spending) (c d : Counter) (n : Nat) :
    ((put c n).run s).2.IsOpen d ↔ s.IsOpen d := by
  simp [IsOpen, put, StateT.run]

@[simp] theorem isOpen_raised (s : Spending) (c d : Counter) (n : Nat) :
    (s.raised c n).IsOpen d ↔ s.IsOpen d := by
  simp [IsOpen, raised]

theorem get_raised_self {s : Spending} {c : Counter} (h : s.IsOpen c) (n : Nat) :
    (s.raised c n).get c = s.get c + n := by
  have h' : c.index < s.counts.size := h
  simp [get, raised, Array.getD, h']

theorem get_raised_of_ne {c d : Counter} (h : d ≠ c) (s : Spending) (n : Nat) :
    (s.raised c n).get d = s.get d := by
  have h' : c.index ≠ d.index := fun e => h (by cases c; cases d; simp_all)
  by_cases hd : d.index < s.counts.size <;> simp [get, raised, Array.getD, hd, h']

/-- Every open counter of `s` is open in `s'`, with the same count. -/
structure Keeps (s s' : Spending) : Prop where
  isOpen : ∀ {c}, s.IsOpen c → s'.IsOpen c
  get_eq : ∀ {c}, s.IsOpen c → s'.get c = s.get c

theorem Keeps.refl (s : Spending) : s.Keeps s := ⟨id, fun _ => rfl⟩

theorem Keeps.trans {s s' s'' : Spending} (h : s.Keeps s') (h' : s'.Keeps s'') : s.Keeps s'' :=
  ⟨fun hc => h'.isOpen (h.isOpen hc), fun hc => (h'.get_eq (h.isOpen hc)).trans (h.get_eq hc)⟩

theorem keeps_opened (s : Spending) (n : Nat) : s.Keeps (s.opened n) :=
  ⟨fun hc => (s.isOpen_opened n _).mpr (Or.inl hc), fun hc => get_opened hc n⟩

end Spending

theorem Token.spent_eq_of_keeps {s s' : Spending} (h : s.Keeps s') {t : Token}
    (ht : s.IsOpen t.counter) : t.spent s' = t.spent s := h.get_eq ht

theorem Token.balance_eq_of_keeps {s s' : Spending} (h : s.Keeps s') {t : Token}
    (ht : s.IsOpen t.counter) : t.balance s' = t.balance s := by
  simp only [Token.balance, Token.spent_eq_of_keeps h ht]

/-! ## Tokens that continue others -/

/-- On the way from `s` to `s'` the tokens `new` were made to continue `old`: each shares the
counter of an old token of its class, or has a counter that was opened on the way. -/
structure Continues (s s' : Spending) (old new : List Token) : Prop where
  keeps : s.Keeps s'
  isOpen : ∀ t ∈ new, ¬ s.IsOpen t.counter → s'.IsOpen t.counter
  origin : ∀ t ∈ new, s.IsOpen t.counter →
    ∃ u ∈ old, u.priorityClass = t.priorityClass ∧ u.counter = t.counter
  apart : ∀ t ∈ new, ∀ u ∈ new, ¬ s.IsOpen t.counter → t.counter = u.counter →
    t.priorityClass = u.priorityClass

namespace Continues

variable {s s' s'' : Spending} {old new : List Token}

theorem nil (h : s.Keeps s') : Continues s s' old [] where
  keeps := h
  isOpen := by simp
  origin := by simp
  apart := by simp

/-- One more token that shares the counter of an old one. -/
theorem cons_old (h : Continues s s' old new) {u : Token} (hu : u ∈ old)
    (hopen : s.IsOpen u.counter) (total : Nat) : Continues s s' old (u.revised total :: new) where
  keeps := h.keeps
  isOpen := by
    intro t ht hc
    rcases List.mem_cons.mp ht with rfl | ht
    · exact absurd hopen hc
    · exact h.isOpen t ht hc
  origin := by
    intro t ht hc
    rcases List.mem_cons.mp ht with rfl | ht
    · exact ⟨u, hu, rfl, rfl⟩
    · exact h.origin t ht hc
  apart := by
    intro t ht v hv hc e
    rcases List.mem_cons.mp ht with rfl | ht
    · exact absurd hopen hc
    · rcases List.mem_cons.mp hv with rfl | hv
      · exact absurd hopen (e ▸ hc)
      · exact h.apart t ht v hv hc e

/-- One more token, with a counter that is opened before those of the others. -/
theorem cons_next {n : Nat} (h : Continues (s.opened n) s' old new)
    (hold : ∀ u ∈ old, s.IsOpen u.counter) (priorityClass : Int) (total : Nat) :
    Continues s s' old (⟨priorityClass, total, s.next⟩ :: new) := by
  -- the later tokens never share the counter opened first: the old tokens do not have it
  have hne : ∀ t ∈ new, t.counter ≠ s.next := by
    intro t ht e
    obtain ⟨u, hu, -, hc⟩ := h.origin t ht (e ▸ s.isOpen_next_opened n)
    exact s.not_isOpen_next (e ▸ hc ▸ hold u hu)
  have hopened : ∀ t ∈ new, ¬ s.IsOpen t.counter → ¬ (s.opened n).IsOpen t.counter := by
    intro t ht hc ho
    rcases (s.isOpen_opened n _).mp ho with ho | ho
    · exact hc ho
    · exact hne t ht ho
  refine ⟨(s.keeps_opened n).trans h.keeps, ?_, ?_, ?_⟩
  · intro t ht hc
    rcases List.mem_cons.mp ht with rfl | ht
    · exact h.keeps.isOpen (s.isOpen_next_opened n)
    · exact h.isOpen t ht (hopened t ht hc)
  · intro t ht hc
    rcases List.mem_cons.mp ht with rfl | ht
    · exact absurd hc s.not_isOpen_next
    · exact h.origin t ht ((s.isOpen_opened n _).mpr (Or.inl hc))
  · intro t ht u hu hc e
    rcases List.mem_cons.mp ht with rfl | ht <;> rcases List.mem_cons.mp hu with rfl | hu
    · rfl
    · exact absurd e.symm (hne u hu)
    · exact absurd e (hne t ht)
    · exact h.apart t ht u hu (hopened t ht hc) e

/-- Counters that were opened before the tokens were made do not matter. -/
theorem of_keeps (h : Continues s' s'' old new) (hk : s.Keeps s')
    (hold : ∀ u ∈ old, s.IsOpen u.counter) : Continues s s'' old new where
  keeps := hk.trans h.keeps
  isOpen := by
    intro t ht _
    by_cases ho : s'.IsOpen t.counter
    · exact h.keeps.isOpen ho
    · exact h.isOpen t ht ho
  origin := fun t ht hc => h.origin t ht (hk.isOpen hc)
  apart := by
    intro t ht u hu hc e
    by_cases ho : s'.IsOpen t.counter
    · obtain ⟨v, hv, -, e'⟩ := h.origin t ht ho
      exact absurd (e' ▸ hold v hv) hc
    · exact h.apart t ht u hu ho e

/-- Tokens that share their counters with old ones or with new ones. -/
theorem of_shared {mid : List Token} (h : Continues s s' [] mid)
    (hold : ∀ u ∈ old, s.IsOpen u.counter)
    (hshared : ∀ t ∈ new, ∃ u, (u ∈ old ∨ u ∈ mid) ∧ u.priorityClass = t.priorityClass ∧
      u.counter = t.counter) : Continues s s' old new := by
  -- `mid` continues nothing, so its counters are all new
  have hmid : ∀ u ∈ mid, ¬ s.IsOpen u.counter := by
    intro u hu hc
    obtain ⟨v, hv, -⟩ := h.origin u hu hc
    cases hv
  refine ⟨h.keeps, ?_, ?_, ?_⟩
  · intro t ht hc
    obtain ⟨u, hu | hu, -, e⟩ := hshared t ht
    · exact absurd (e ▸ hold u hu) hc
    · exact e ▸ h.isOpen u hu (e ▸ hc)
  · intro t ht hc
    obtain ⟨u, hu | hu, ec, e⟩ := hshared t ht
    · exact ⟨u, hu, ec, e⟩
    · exact absurd (e ▸ hc) (hmid u hu)
  · intro t ht v hv hc e
    obtain ⟨u, hu | hu, ec, eu⟩ := hshared t ht
    · exact absurd (eu ▸ hold u hu) hc
    · obtain ⟨w, hw | hw, ed, ew⟩ := hshared v hv
      · exact absurd (ew ▸ hold w hw) (e ▸ hc)
      · rw [← ec, ← ed]
        exact h.apart u hu w hw (hmid u hu) (eu.trans (e.trans ew.symm))

theorem isOpen_of_mem (h : Continues s s' old new) {t : Token} (ht : t ∈ new) :
    s'.IsOpen t.counter := by
  by_cases ho : s.IsOpen t.counter
  · exact h.keeps.isOpen ho
  · exact h.isOpen t ht ho

end Continues

/-! ## Tokens with counters of their own -/

theorem run_ofBalances_cons (b : Balance) (bs : List Balance) (s : Spending) :
    (Token.ofBalances (b :: bs)).run s =
      (⟨b.priorityClass, b.total, s.next⟩ :: ((Token.ofBalances bs).run (s.opened b.spent)).1,
        ((Token.ofBalances bs).run (s.opened b.spent)).2) := rfl

theorem ofBalances_continues (bs : List Balance) (s : Spending) :
    Continues s ((Token.ofBalances bs).run s).2 [] ((Token.ofBalances bs).run s).1 := by
  induction bs generalizing s with
  | nil => exact .nil (.refl s)
  | cons b bs ih =>
    rw [run_ofBalances_cons]
    exact (ih (s.opened b.spent)).cons_next (by simp) _ _

theorem keeps_ofBalances (bs : List Balance) (s : Spending) :
    s.Keeps ((Token.ofBalances bs).run s).2 := (ofBalances_continues bs s).keeps

/-- New tokens have the balances they were made of. -/
theorem map_balance_ofBalances (bs : List Balance) (s : Spending) :
    ((Token.ofBalances bs).run s).1.map (·.balance ((Token.ofBalances bs).run s).2) = bs := by
  induction bs generalizing s with
  | nil => rfl
  | cons b bs ih =>
    have hk := (ofBalances_continues bs (s.opened b.spent)).keeps
    have hb : (⟨b.priorityClass, b.total, s.next⟩ : Token).balance
        ((Token.ofBalances bs).run (s.opened b.spent)).2 = b := by
      rw [Token.balance_eq_of_keeps hk (s.isOpen_next_opened _)]
      simp only [Token.balance, Token.spent, Spending.get_next_opened]
    rw [run_ofBalances_cons, List.map_cons, hb, ih]

/-! ## Labels -/

variable {κ : Type}

/-- The labels of open counters stay. -/
def Relabels (s : Spending) (label label' : Counter → κ) : Prop :=
  ∀ c, s.IsOpen c → label' c = label c

theorem Relabels.refl (s : Spending) (label : Counter → κ) : Relabels s label label :=
  fun _ _ => rfl

/-- Every token counts in an open counter that is labelled by its class. -/
def Labelled (label : Counter → κ) (kind : Int → κ) (s : Spending) (ts : List Token) : Prop :=
  ∀ t ∈ ts, s.IsOpen t.counter ∧ label t.counter = kind t.priorityClass

namespace Labelled

variable {label label' : Counter → κ} {kind : Int → κ} {s s' : Spending} {ts us : List Token}

theorem mono (h : Labelled label kind s ts) (hl : Relabels s label label')
    (hs : ∀ {c}, s.IsOpen c → s'.IsOpen c) : Labelled label' kind s' ts :=
  fun t ht => ⟨hs (h t ht).1, (hl _ (h t ht).1).trans (h t ht).2⟩

/-- Tokens that share a counter are of one class. -/
theorem priorityClass_eq (hkind : Function.Injective kind) (ht : Labelled label kind s ts)
    (hu : Labelled label kind s us) {t u : Token} (htm : t ∈ ts) (hum : u ∈ us)
    (e : t.counter = u.counter) : t.priorityClass = u.priorityClass :=
  hkind ((ht t htm).2.symm.trans ((congrArg label e).trans (hu u hum).2))

end Labelled

/-- Tokens that continue labelled ones can be labelled, without a change to older labels. -/
theorem Continues.exists_label {s s' : Spending} {old new : List Token}
    (h : Continues s s' old new) {label : Counter → κ} {kind : Int → κ}
    (hold : Labelled label kind s old) :
    ∃ label', Relabels s label label' ∧ Labelled label' kind s' new := by
  classical
  -- a counter that was opened on the way is labelled by the first token that counts in it
  let label' (c : Counter) : κ :=
    if s.IsOpen c then label c
    else ((new.find? (·.counter = c)).map (kind ·.priorityClass)).getD (label c)
  refine ⟨label', fun c hc => if_pos hc, fun t ht => ⟨h.isOpen_of_mem ht, ?_⟩⟩
  by_cases hc : s.IsOpen t.counter
  · obtain ⟨u, hu, e, e'⟩ := h.origin t ht hc
    simp only [label', if_pos hc]
    rw [← e', (hold u hu).2, e]
  · -- tokens that share a new counter are of one class, so the first stands for all
    cases hf : new.find? (·.counter = t.counter) with
    | none => exact absurd (List.find?_eq_none.mp hf t ht) (by simp)
    | some u =>
      have hcu : t.counter = u.counter := by simpa [eq_comm] using List.find?_some hf
      have := h.apart t ht u (List.mem_of_find?_eq_some hf) hc hcu
      simp [label', if_neg hc, hf, this]

end DealPacing
