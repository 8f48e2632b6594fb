import DealPacing.Proofs.Delivery.Draining

/-!
# What a plan answers

A plan takes serves and tells how many were spent, how many are left, which class is next and when
the next serve is due. In a plan whose tokens count apart, every serve shows in one balance and in
no other one. Such a plan answers by its balances alone: the names of its counters do not matter,
nor does what other plans count in them.

## Main definitions

* `Balance.takeFirst`: take a serve of the first balance that has one left
* `Plan.CountsApart`: tokens that grant serves have counters of their own
* `Plan.Call`, `Plan.answers`: calls on a plan and what it answers

## Main results

* `Plan.CountsApart.takeFirst_balances`: to take a serve is to take it of the balances
* `Plan.answers_eq_of_value_eq`: plans that show the same and count apart answer alike
* `Plan.CountsApart.exists_spend_eq`: a class with a serve left is reached
* `Plan.countsApart_ofSchedule`: the plan of a schedule counts apart, whatever classes it lists
-/

namespace DealPacing

/-! ## Serves of balances -/

namespace Balance

/-- Take a serve of the first balance that has one left. -/
def takeFirst : List Balance → Option Int × List Balance
  | [] => (none, [])
  | b :: rest =>
    if b.spent < b.total then (some b.priorityClass, { b with spent := b.spent + 1 } :: rest)
    else ((takeFirst rest).1, b :: (takeFirst rest).2)

theorem takeFirst_cons_of_lt {b : Balance} (h : b.spent < b.total) (rest : List Balance) :
    takeFirst (b :: rest) = (some b.priorityClass, { b with spent := b.spent + 1 } :: rest) :=
  if_pos h

theorem takeFirst_cons_of_not_lt {b : Balance} (h : ¬ b.spent < b.total) (rest : List Balance) :
    takeFirst (b :: rest) = ((takeFirst rest).1, b :: (takeFirst rest).2) :=
  if_neg h

/-- A serve is spent once. -/
theorem sumSpent_takeFirst (bs : List Balance) :
    sumSpent (takeFirst bs).2 = sumSpent bs + (takeFirst bs).1.toList.length := by
  unfold sumSpent
  induction bs with
  | nil => rfl
  | cons b rest ih =>
    by_cases h : b.spent < b.total
    · rw [takeFirst_cons_of_lt h]
      simp only [List.map_cons, List.sum_cons, Option.toList_some, List.length_singleton]
      omega
    · rw [takeFirst_cons_of_not_lt h]
      simp only [List.map_cons, List.sum_cons, ih]
      omega

/-- A serve that is taken is no longer left. -/
theorem sum_unspent_takeFirst (bs : List Balance) :
    ((takeFirst bs).2.map (·.unspent)).sum + (takeFirst bs).1.toList.length =
      (bs.map (·.unspent)).sum := by
  induction bs with
  | nil => rfl
  | cons b rest ih =>
    by_cases h : b.spent < b.total
    · rw [takeFirst_cons_of_lt h]
      simp only [List.map_cons, List.sum_cons, Option.toList_some, List.length_singleton, unspent]
      omega
    · rw [takeFirst_cons_of_not_lt h]
      simp only [List.map_cons, List.sum_cons]
      omega

theorem isSome_takeFirst {bs : List Balance} {b : Balance} (hb : b ∈ bs)
    (h : b.spent < b.total) : (takeFirst bs).1.isSome := by
  induction bs with
  | nil => cases hb
  | cons a rest ih =>
    by_cases ha : a.spent < a.total
    · rw [takeFirst_cons_of_lt ha]
      rfl
    · rw [takeFirst_cons_of_not_lt ha]
      rcases List.mem_cons.mp hb with rfl | hb
      · exact absurd h ha
      · exact ih hb

/-- The balances of other classes stay. -/
theorem mem_takeFirst {bs : List Balance} {b : Balance} (hb : b ∈ bs)
    (h : (takeFirst bs).1 ≠ some b.priorityClass) : b ∈ (takeFirst bs).2 := by
  induction bs with
  | nil => cases hb
  | cons a rest ih =>
    by_cases ha : a.spent < a.total
    · rw [takeFirst_cons_of_lt ha] at h ⊢
      rcases List.mem_cons.mp hb with rfl | hb
      · exact absurd rfl h
      · exact List.mem_cons_of_mem _ hb
    · rw [takeFirst_cons_of_not_lt ha] at h ⊢
      rcases List.mem_cons.mp hb with rfl | hb
      · exact List.mem_cons_self
      · exact List.mem_cons_of_mem _ (ih hb h)

/-- A class with a serve left is reached after some serves. -/
theorem exists_takeFirst_eq {bs : List Balance} {b : Balance} (hb : b ∈ bs)
    (h : b.spent < b.total) :
    ∃ n, (takeFirst ((fun l => (takeFirst l).2)^[n] bs)).1 = some b.priorityClass := by
  -- every serve that goes to another class leaves one serve less
  induction hleft : (bs.map (·.unspent)).sum using Nat.strong_induction_on generalizing bs with
  | _ left ih =>
    by_cases hnext : (takeFirst bs).1 = some b.priorityClass
    · exact ⟨0, hnext⟩
    · have hsome := isSome_takeFirst hb h
      have hsum := sum_unspent_takeFirst bs
      rw [Option.length_toList, if_pos hsome, hleft] at hsum
      obtain ⟨n, hn⟩ := ih _ (by omega) (mem_takeFirst hb hnext) rfl
      exact ⟨n + 1, hn⟩

end Balance

/-! ## Plans that count apart -/

namespace Plan

/-- All counters of the plan are open, and a counter that two tokens share belongs to tokens that
grant no serve. -/
structure CountsApart (p : Plan) (s : Spending) : Prop where
  isOpen : p.IsOpen s
  apart : p.tokens.Pairwise fun t u => t.counter = u.counter → t.total = 0 ∧ u.total = 0

/-- In a list of tokens that count apart, the token that a serve is taken of is the only one that
shows it. -/
theorem takeFirst_map_balance {ts : List Token} {s : Spending}
    (hopen : ∀ t ∈ ts, s.IsOpen t.counter)
    (hapart : ts.Pairwise fun t u => t.counter = u.counter → t.total = 0 ∧ u.total = 0) :
    Balance.takeFirst (ts.map (·.balance s)) =
      match ts.find? fun t => t.spent s < t.total with
      | some t => (some t.priorityClass, ts.map (·.balance (s.raised t.counter 1)))
      | none => (none, ts.map (·.balance s)) := by
  induction ts with
  | nil => rfl
  | cons t ts ih =>
    obtain ⟨hfirst, hrest⟩ := List.pairwise_cons.mp hapart
    have hsame {u v : Token} (hne : u.counter ≠ v.counter) :
        u.balance (s.raised v.counter 1) = u.balance s := by
      simp only [Token.balance, Token.spent, Spending.get_raised_of_ne hne]
    by_cases ht : t.spent s < t.total
    · rw [List.map_cons, Balance.takeFirst_cons_of_lt ht,
        List.find?_cons_of_pos (by simpa using ht)]
      have hthis : t.balance (s.raised t.counter 1) =
          ⟨t.priorityClass, t.total, t.spent s + 1⟩ := by
        simp only [Token.balance, Token.spent, Spending.get_raised_self (hopen t (by simp))]
      have hothers : ts.map (·.balance (s.raised t.counter 1)) = ts.map (·.balance s) := by
        refine List.map_congr_left fun u hu => hsame fun e => ?_
        have := (hfirst u hu e.symm).1
        omega
      simp only [List.map_cons, hothers, hthis]
      rfl
    · have ih := ih (fun u hu => hopen u (List.mem_cons_of_mem t hu)) hrest
      rw [List.map_cons, Balance.takeFirst_cons_of_not_lt ht, ih,
        List.find?_cons_of_neg (by simpa using ht)]
      cases hu : ts.find? fun t => t.spent s < t.total with
      | none => rfl
      | some u =>
        have hleft : u.spent s < u.total := by simpa using List.find?_some hu
        have hne : t.counter ≠ u.counter := fun e => by
          have := (hfirst u (List.mem_of_find?_eq_some hu) e).2
          omega
        simp only [List.map_cons, hsame hne]

namespace CountsApart

variable {p : Plan} {s : Spending}

/-- To take a serve is to take it of the first balance that has one left. -/
theorem takeFirst_balances (h : p.CountsApart s) :
    Balance.takeFirst (p.balances s) = ((p.spend.run s).1, p.balances (p.spend.run s).2) := by
  rw [balances, takeFirst_map_balance h.isOpen h.apart, run_spend, unspentToken?]
  cases p.tokens.find? fun t => t.spent s < t.total <;> rfl

theorem spend (h : p.CountsApart s) : p.CountsApart (p.spend.run s).2 := by
  refine ⟨fun t ht => ?_, h.apart⟩
  rw [run_spend]
  cases p.unspentToken? s with
  | none => exact h.isOpen t ht
  | some u => exact (Spending.isOpen_raised s u.counter t.counter 1).mpr (h.isOpen t ht)

/-- A serve is spent once. -/
theorem spentSum_spend (h : p.CountsApart s) :
    p.spentSum (p.spend.run s).2 = p.spentSum s + (p.spend.run s).1.toList.length := by
  have hsum := Balance.sumSpent_takeFirst (p.balances s)
  rw [h.takeFirst_balances] at hsum
  rw [spentSum_eq, spentSum_eq]
  exact hsum

theorem balances_afterSpends (h : p.CountsApart s) (n : Nat) :
    p.CountsApart (p.afterSpends n s) ∧
      p.balances (p.afterSpends n s) = (fun l => (Balance.takeFirst l).2)^[n] (p.balances s) := by
  induction n with
  | zero => exact ⟨h, rfl⟩
  | succ n ih =>
    refine ⟨ih.1.spend, ?_⟩
    rw [Function.iterate_succ_apply', ← ih.2, ih.1.takeFirst_balances]
    rfl

/-- A class with a serve left is reached after some serves. -/
theorem exists_spend_eq (h : p.CountsApart s) {t : Token} (ht : t ∈ p.tokens)
    (hleft : t.spent s < t.total) :
    ∃ n, (p.spend.run (p.afterSpends n s)).1 = some t.priorityClass := by
  have hmem : t.balance s ∈ p.balances s := List.mem_map_of_mem ht
  obtain ⟨n, hn⟩ := Balance.exists_takeFirst_eq hmem hleft
  obtain ⟨hapart, hbalances⟩ := h.balances_afterSpends n
  refine ⟨n, ?_⟩
  rw [← hbalances, hapart.takeFirst_balances] at hn
  exact hn

end CountsApart

/-! ## Calls and answers -/

/-- What can be asked of a plan. -/
inductive Call where
  | spend
  | spentTokens
  | unspentTokens
  | highestUnspentClass
  | readyAt
deriving DecidableEq

/-- What a plan answers. -/
inductive Answer where
  | priorityClass (c : Option Int)
  | count (n : Nat)
  | instant (t : Option Instant)
deriving DecidableEq

/-- The answer to a call. -/
def answer (p : Plan) : Call → StateM Spending Answer
  | .spend => do return .priorityClass (← p.spend)
  | .spentTokens => do return .count (p.spentTokens (← get))
  | .unspentTokens => do return .count (p.unspentTokens (← get))
  | .highestUnspentClass => do return .priorityClass (p.highestUnspentClass (← get))
  | .readyAt => do return .instant (p.readyAt? (← get))

/-- The answers to calls, one after the other. -/
def answers (p : Plan) (calls : List Call) : StateM Spending (List Answer) := calls.mapM p.answer

theorem run_answers_cons (p : Plan) (call : Call) (calls : List Call) (s : Spending) :
    (p.answers (call :: calls)).run s =
      (((p.answer call).run s).1 :: ((p.answers calls).run ((p.answer call).run s).2).1,
        ((p.answers calls).run ((p.answer call).run s).2).2) := by
  rw [answers, List.mapM_cons]
  rfl

theorem run_answers_concat (p : Plan) (calls : List Call) (call : Call) (s : Spending) :
    (p.answers (calls ++ [call])).run s =
      (((p.answers calls).run s).1 ++ [((p.answer call).run ((p.answers calls).run s).2).1],
        ((p.answer call).run ((p.answers calls).run s).2).2) := by
  induction calls generalizing s with
  | nil => rfl
  | cons c calls ih =>
    rw [List.cons_append, run_answers_cons, ih, run_answers_cons]
    rfl

/-- After some attempts to take a serve. -/
theorem snd_run_answers_replicate (p : Plan) (n : Nat) (s : Spending) :
    ((p.answers (List.replicate n .spend)).run s).2 = p.afterSpends n s := by
  induction n with
  | zero => rfl
  | succ n ih =>
    rw [List.replicate_succ', run_answers_concat, ih]
    rfl

/-- Plans that show the same and count apart give one answer, and show the same afterwards. -/
theorem answer_eq_of_value_eq {p q : Plan} {s s' : Spending} (hp : p.CountsApart s)
    (hq : q.CountsApart s') (h : p.value s = q.value s') (call : Call) :
    ((p.answer call).run s).1 = ((q.answer call).run s').1 ∧
      p.value ((p.answer call).run s).2 = q.value ((q.answer call).run s').2 := by
  obtain ⟨hid, hstart, hfinish, hupdated, hbalances⟩ := PlanValue.mk.inj h
  have htaken : ((p.spend.run s).1, p.balances (p.spend.run s).2) =
      ((q.spend.run s').1, q.balances (q.spend.run s').2) := by
    rw [← hp.takeFirst_balances, ← hq.takeFirst_balances, hbalances]
  obtain ⟨hclass, hafter⟩ := Prod.mk.inj htaken
  cases call with
  | spend =>
    refine ⟨congrArg Answer.priorityClass hclass, ?_⟩
    exact PlanValue.mk.injEq .. ▸ ⟨hid, hstart, hfinish, hupdated, hafter⟩
  | spentTokens => exact ⟨congrArg Answer.count (spentTokens_eq_of_balances_eq hbalances), h⟩
  | unspentTokens => exact ⟨congrArg Answer.count (unspentTokens_eq_of_balances_eq hbalances), h⟩
  | highestUnspentClass =>
    refine ⟨congrArg Answer.priorityClass ?_, h⟩
    rw [← fst_run_spend, ← fst_run_spend]
    exact hclass
  | readyAt => exact ⟨congrArg Answer.instant (readyAt?_eq_of_value_eq h), h⟩

theorem CountsApart.answer {p : Plan} {s : Spending} (h : p.CountsApart s) (call : Call) :
    p.CountsApart ((p.answer call).run s).2 := by
  cases call with
  | spend => exact h.spend
  | _ => exact h

/-- **Plans that show the same and count apart answer alike.** -/
theorem answers_eq_of_value_eq {p q : Plan} {s s' : Spending} (hp : p.CountsApart s)
    (hq : q.CountsApart s') (h : p.value s = q.value s') (calls : List Call) :
    ((p.answers calls).run s).1 = ((q.answers calls).run s').1 := by
  induction calls generalizing s s' with
  | nil => rfl
  | cons call calls ih =>
    obtain ⟨hanswer, hvalue⟩ := answer_eq_of_value_eq hp hq h call
    rw [run_answers_cons, run_answers_cons]
    exact congrArg₂ List.cons hanswer (ih (hp.answer call) (hq.answer call) hvalue)

/-! ## The plan of a schedule -/

/-- New tokens count in counters that were not open. -/
theorem not_isOpen_of_mem_ofBalances {bs : List Balance} {s : Spending} {t : Token}
    (ht : t ∈ ((Token.ofBalances bs).run s).1) : ¬ s.IsOpen t.counter := by
  intro hc
  obtain ⟨u, hu, -⟩ := (ofBalances_continues bs s).origin t ht hc
  cases hu

theorem pairwise_counter_ofBalances (bs : List Balance) (s : Spending) :
    ((Token.ofBalances bs).run s).1.Pairwise fun t u => t.counter ≠ u.counter := by
  induction bs generalizing s with
  | nil => exact List.Pairwise.nil
  | cons b bs ih =>
    rw [run_ofBalances_cons]
    refine List.pairwise_cons.mpr ⟨fun u hu e => ?_, ih _⟩
    -- the first counter is open before the others are opened
    exact not_isOpen_of_mem_ofBalances hu (e ▸ s.isOpen_next_opened b.spent)

/-- The plan of a schedule counts apart, whatever classes the schedule lists. -/
theorem countsApart_ofSchedule (x : Schedule) (s : Spending) :
    ((ofSchedule x).run s).1.CountsApart ((ofSchedule x).run s).2 where
  isOpen := fun _ ht => (ofSchedule_continues x s).isOpen_of_mem ht
  apart := (pairwise_counter_ofBalances _ s).imp fun hne e => absurd e hne

end Plan

end DealPacing
