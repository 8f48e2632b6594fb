import DealPacing.Proofs.Delivery.Answers

/-!
# Schedules that list a class more than once

The plan of a schedule opens a counter for each listed token, also when the schedule lists a class
more than once. A newer revision looks up its tokens by class, so that all tokens of a class that
the older plan has count in one counter, and a serve of such a class is spent once for each of them.
As long as nothing was spent, this is the only difference between a revision and a fresh plan. It
shows in the answers as long as the listed tokens, and so the serves spent at once, fit a word.

## Main definitions

* `Plan.Repeats`: the schedule lists a class of the plan more than once, with serves in it

## Main results

* `Plan.countsApart_withUpdatedSchedule`: a revision that repeats no class counts apart
* `Plan.exists_spentSum_afterSpends`: a serve of a repeated class is spent more than once
* `Plan.answers_revision_iff`: when a revision answers as the fresh plan does
-/

namespace DealPacing

theorem PlanValue.revised_eq_ofSchedule {v : PlanValue} (h : ∀ c, v.spentInClass c = 0)
    (x : Schedule) : v.revised x = ofSchedule x := by
  have hbalances : (Plan.openingBalances x).map (fun b : Balance =>
      { b with spent := v.spentInClass b.priorityClass }) = Plan.openingBalances x := by
    simp only [h, Plan.openingBalances, List.map_map]
    rfl
  rw [revised, hbalances]
  rfl

namespace Plan

/-- The schedule lists a class of the plan more than once, and grants serves in it. -/
def Repeats (p : Plan) (x : Schedule) : Prop :=
  ∃ c ∈ p.classes, 1 < x.classes.count c ∧ ∃ a ∈ x.tokens, a.priorityClass = c ∧ 0 < a.total

/-! ## Nothing spent -/

/-- A revision of a plan of which nothing was spent shows what the fresh plan shows. -/
theorem value_revision {p : Plan} {s : Spending} (hp : p.IsOpen s) (h : p.spentSum s = 0)
    (x : Schedule) :
    ((p.withUpdatedSchedule x).run s).1.value ((p.withUpdatedSchedule x).run s).2 =
      ((ofSchedule x).run s).1.value ((ofSchedule x).run s).2 := by
  have hnone (c : Int) : (p.value s).spentInClass c = 0 := by
    rw [spentInClass_value, spentInClass]
    cases ht : p.token? c with
    | none => rfl
    | some t => exact spentSum_eq_zero_iff.mp h t (mem_of_token? ht).1
  rw [value_withUpdatedSchedule hp, value_ofSchedule, PlanValue.revised_eq_ofSchedule hnone]

/-! ## The tokens of a schedule and of a revision -/

theorem exists_allotment_of_mem {x : Schedule} {s : Spending} {t : Token}
    (ht : t ∈ ((ofSchedule x).run s).1.tokens) :
    ∃ a ∈ x.tokens, a.priorityClass = t.priorityClass ∧ a.total = t.total := by
  have hb : t.balance ((ofSchedule x).run s).2 ∈ openingBalances x := by
    rw [← balances_ofSchedule x s]
    exact List.mem_map_of_mem ht
  obtain ⟨a, ha, hbalance⟩ := List.mem_map.mp hb
  exact ⟨a, (List.mergeSort_perm x.tokens _).mem_iff.mp ha,
    congrArg Balance.priorityClass hbalance, congrArg Balance.total hbalance⟩

theorem exists_mem_of_allotment {x : Schedule} {a : Allotment} (ha : a ∈ x.tokens) (s : Spending) :
    ∃ t ∈ ((ofSchedule x).run s).1.tokens,
      t.priorityClass = a.priorityClass ∧ t.total = a.total := by
  have hb : (⟨a.priorityClass, a.total, 0⟩ : Balance) ∈
      ((ofSchedule x).run s).1.balances ((ofSchedule x).run s).2 := by
    rw [balances_ofSchedule x s]
    exact List.mem_map.mpr ⟨a, (List.mergeSort_perm x.tokens _).mem_iff.mpr ha, rfl⟩
  obtain ⟨t, ht, hbalance⟩ := List.mem_map.mp hb
  exact ⟨t, ht, congrArg Balance.priorityClass hbalance, congrArg Balance.total hbalance⟩

/-- Tokens of one class show that the class is listed more than once. -/
theorem one_lt_count_of_sublist {ts : List Token} {t u : Token} (h : [t, u].Sublist ts)
    (hclass : t.priorityClass = u.priorityClass) :
    1 < (ts.map (·.priorityClass)).count t.priorityClass := by
  have hcount := (h.map (·.priorityClass)).count_le t.priorityClass
  rw [List.map_cons, List.map_singleton, ← hclass, List.count_cons_self,
    List.count_singleton_self] at hcount
  exact hcount

/-- In the plan of a schedule that repeats no class of `p`, tokens of one class of `p` grant no
serve. -/
theorem pairwise_tokens_ofSchedule {p : Plan} {x : Schedule} (h : ¬ p.Repeats x) (s : Spending) :
    ((ofSchedule x).run s).1.tokens.Pairwise fun t u => t.priorityClass = u.priorityClass →
      t.priorityClass ∈ p.classes → t.total = 0 ∧ u.total = 0 := by
  refine List.pairwise_iff_forall_sublist.mpr fun {t u} hsub hclass hp => ?_
  have hcount := one_lt_count_of_sublist hsub hclass
  change 1 < ((ofSchedule x).run s).1.classes.count _ at hcount
  rw [(classes_ofSchedule_perm x s).count_eq] at hcount
  have hzero {v : Token} (hv : v ∈ ((ofSchedule x).run s).1.tokens)
      (hc : v.priorityClass = t.priorityClass) : v.total = 0 := by
    obtain ⟨a, ha, hac, htotal⟩ := exists_allotment_of_mem hv
    by_contra hpos
    exact h ⟨t.priorityClass, hp, hcount, a, ha, hac.trans hc, by omega⟩
  exact ⟨hzero (hsub.subset (by simp)) rfl, hzero (hsub.subset (by simp)) hclass.symm⟩

theorem exists_mem_of_mem_continued {p : Plan} {ts : List Token} {s : Spending} {v : Token}
    (hv : v ∈ ((p.continued ts).run s).1) :
    ∃ t ∈ ts, t.priorityClass = v.priorityClass ∧ t.total = v.total := by
  induction ts generalizing s with
  | nil => cases hv
  | cons t ts ih =>
    have hlater {s' : Spending} (hmem : v ∈ ((p.continued ts).run s').1) :
        ∃ t' ∈ t :: ts, t'.priorityClass = v.priorityClass ∧ t'.total = v.total := by
      obtain ⟨t', ht', hsame⟩ := ih hmem
      exact ⟨t', List.mem_cons_of_mem t ht', hsame⟩
    cases h : p.token? t.priorityClass with
    | some u =>
      rw [run_continued_of_some h] at hv
      rcases List.mem_cons.mp hv with rfl | hv
      · exact ⟨t, by simp, (mem_of_token? h).2.symm, rfl⟩
      · exact hlater hv
    | none =>
      rw [run_continued_of_none h] at hv
      rcases List.mem_cons.mp hv with rfl | hv
      · exact ⟨t, by simp, rfl, rfl⟩
      · exact hlater hv

/-- All tokens of a class that the plan has count in its counter. -/
theorem counter_of_mem_continued {p : Plan} {c : Int} {u : Token} (hu : p.token? c = some u)
    {ts : List Token} {s : Spending} {v : Token} (hv : v ∈ ((p.continued ts).run s).1)
    (hc : v.priorityClass = c) : v.counter = u.counter := by
  induction ts generalizing s with
  | nil => cases hv
  | cons t ts ih =>
    cases h : p.token? t.priorityClass with
    | some w =>
      rw [run_continued_of_some h] at hv
      rcases List.mem_cons.mp hv with rfl | hv
      · have htc : t.priorityClass = c := (mem_of_token? h).2.symm.trans hc
        obtain rfl := Option.some.inj (hu.symm.trans (htc ▸ h))
        rfl
      · exact ih hv
    | none =>
      rw [run_continued_of_none h] at hv
      rcases List.mem_cons.mp hv with rfl | hv
      · obtain rfl : t.priorityClass = c := hc
        rw [hu] at h
        cases h
      · exact ih hv

/-! ## Revisions that repeat no class -/

theorem pairwise_continued {κ : Type} {label : Counter → κ} {kind : Int → κ}
    (hkind : Function.Injective kind) {p : Plan} {s : Spending}
    (hl : Labelled label kind s p.tokens) {ts : List Token}
    (h : ts.Pairwise fun t u => t.priorityClass = u.priorityClass →
      t.priorityClass ∈ p.classes → t.total = 0 ∧ u.total = 0) :
    ((p.continued ts).run s).1.Pairwise fun t u =>
      t.counter = u.counter → t.total = 0 ∧ u.total = 0 := by
  induction ts generalizing s with
  | nil => exact List.Pairwise.nil
  | cons t ts ih =>
    obtain ⟨hfirst, hrest⟩ := List.pairwise_cons.mp h
    cases hu : p.token? t.priorityClass with
    | some u =>
      rw [run_continued_of_some hu]
      refine List.pairwise_cons.mpr ⟨fun v hv e => ?_, ih hl hrest⟩
      -- the shared counter is an old one, so both tokens are of one class of the plan
      have hmem := (mem_of_token? hu).1
      have hopen : s.IsOpen v.counter := e ▸ (hl u hmem).1
      obtain ⟨w, hw, hwc, hwk⟩ :=
        (continued_continues (isOpen_of_labelled hl) ts).origin v hv hopen
      have hclass : w.priorityClass = u.priorityClass :=
        hl.priorityClass_eq hkind hl hw hmem (hwk.trans e.symm)
      obtain ⟨t', ht', htc, htotal⟩ := exists_mem_of_mem_continued hv
      have hzero := hfirst t' ht' ((mem_of_token? hu).2.symm.trans
        (hclass.symm.trans (hwc.trans htc.symm)))
        (token?_isSome_iff.mp (Option.isSome_iff_exists.mpr ⟨u, hu⟩))
      exact ⟨hzero.1, htotal ▸ hzero.2⟩
    | none =>
      rw [run_continued_of_none hu]
      have hl' := hl.mono (.refl s label) (s.keeps_opened 0).isOpen
      refine List.pairwise_cons.mpr ⟨fun v hv e => ?_, ih hl' hrest⟩
      -- the plan has no token with the counter that was opened last
      have hopen : (s.opened 0).IsOpen v.counter := e ▸ s.isOpen_next_opened 0
      obtain ⟨w, hw, -, hwk⟩ :=
        (continued_continues (isOpen_of_labelled hl') ts).origin v hv hopen
      have hnext : w.counter = s.next := hwk.trans e.symm
      exact absurd (hnext ▸ (hl w hw).1) s.not_isOpen_next

/-- A revision by a schedule that repeats no class counts apart. -/
theorem countsApart_withUpdatedSchedule {κ : Type} {label : Counter → κ} {kind : Int → κ}
    (hkind : Function.Injective kind) {p : Plan} {s : Spending}
    (hl : Labelled label kind s p.tokens) {x : Schedule} (h : ¬ p.Repeats x) :
    ((p.withUpdatedSchedule x).run s).1.CountsApart ((p.withUpdatedSchedule x).run s).2 where
  isOpen := fun _ ht =>
    (withUpdatedSchedule_continues (isOpen_of_labelled hl) x).isOpen_of_mem ht
  apart := by
    rw [run_withUpdatedSchedule]
    exact pairwise_continued hkind (hl.mono (.refl s label) (keeps_ofSchedule x s).isOpen)
      (pairwise_tokens_ofSchedule h s)

/-! ## Revisions that repeat a class -/

/-- Every token that counts in a counter shows what is added to it. -/
theorem spentSum_raised (p : Plan) {s : Spending} {k : Counter} (hk : s.IsOpen k) :
    p.spentSum (s.raised k 1) = p.spentSum s + p.tokens.countP (·.counter = k) := by
  unfold spentSum
  induction p.tokens with
  | nil => rfl
  | cons t ts ih =>
    rw [List.map_cons, List.sum_cons, List.map_cons, List.sum_cons, ih, List.countP_cons]
    by_cases ht : t.counter = k
    · have hspent : t.spent (s.raised k 1) = t.spent s + 1 := by
        rw [Token.spent, ht, Spending.get_raised_self hk, Token.spent, ht]
      rw [hspent, if_pos (by simpa using ht)]
      omega
    · have hspent : t.spent (s.raised k 1) = t.spent s := Spending.get_raised_of_ne ht s 1
      rw [hspent, if_neg (by simpa using ht)]
      omega

/-- The counter of a repeated class is that of at least two tokens. -/
theorem two_le_countP_counter {p : Plan} {c : Int} (hc : c ∈ p.classes) {x : Schedule}
    (hcount : 1 < x.classes.count c) {s : Spending} {t : Token}
    (ht : t ∈ ((p.withUpdatedSchedule x).run s).1.tokens) (htc : t.priorityClass = c) :
    2 ≤ ((p.withUpdatedSchedule x).run s).1.tokens.countP (·.counter = t.counter) := by
  obtain ⟨u, hu⟩ := Option.isSome_iff_exists.mp (token?_isSome_iff.mpr hc)
  have hcounter {v : Token} (hv : v ∈ ((p.withUpdatedSchedule x).run s).1.tokens)
      (hvc : v.priorityClass = c) : v.counter = u.counter := by
    rw [run_withUpdatedSchedule] at hv
    exact counter_of_mem_continued hu hv hvc
  have hclasses : ((p.withUpdatedSchedule x).run s).1.classes.count c = x.classes.count c := by
    rw [run_withUpdatedSchedule, classes_withScheduleOf, (classes_ofSchedule_perm x s).count_eq]
  calc 2 ≤ ((p.withUpdatedSchedule x).run s).1.classes.count c := hclasses ▸ hcount
    _ = ((p.withUpdatedSchedule x).run s).1.tokens.countP (·.priorityClass == c) := by
      rw [classes, List.count, List.countP_map]
      rfl
    _ ≤ ((p.withUpdatedSchedule x).run s).1.tokens.countP (·.counter = t.counter) := by
      refine List.countP_mono_left fun v hv hvc => ?_
      rw [hcounter ht htc]
      simpa using hcounter hv (by simpa using hvc)

/-- A serve of a repeated class is spent more than once by the revision, and no more often than the
schedule lists tokens. -/
theorem exists_spentSum_afterSpends {p : Plan} {s : Spending} (hp : p.IsOpen s) {c : Int}
    (hc : c ∈ p.classes) {x : Schedule} (hcount : 1 < x.classes.count c) {n : Nat} :
    let revision := (p.withUpdatedSchedule x).run s
    let after := revision.1.afterSpends n revision.2
    (revision.1.spend.run after).1 = some c → ∃ k, 1 < k ∧ k ≤ x.tokens.length ∧
      revision.1.spentSum (revision.1.spend.run after).2 = revision.1.spentSum after + k := by
  intro revision after hclass
  rw [run_spend] at hclass ⊢
  cases hu : revision.1.unspentToken? after with
  | none =>
    rw [hu] at hclass
    cases hclass
  | some u =>
    rw [hu] at hclass
    have hmem := (mem_of_unspentToken? hu).1
    -- attempts to take a serve leave the counters open
    have hlabelled : Labelled (fun _ => ()) (fun _ => ()) revision.2 revision.1.tokens :=
      fun t ht => ⟨(withUpdatedSchedule_continues hp x).isOpen_of_mem ht, rfl⟩
    have hopen := (labelled_afterSpends hlabelled n u hmem).1
    have hlength : revision.1.tokens.length = x.tokens.length := by
      have hclasses := congrArg List.length
        (classes_withScheduleOf p ((ofSchedule x).run s).1 ((ofSchedule x).run s).2)
      have hperm := (classes_ofSchedule_perm x s).length_eq
      simp only [classes, Schedule.classes, List.length_map] at hclasses hperm
      exact hclasses.trans hperm
    have hshared : 1 < revision.1.tokens.countP (·.counter = u.counter) :=
      two_le_countP_counter hc hcount hmem (Option.some.inj hclass)
    exact ⟨_, hshared, hlength ▸ List.countP_le_length, spentSum_raised revision.1 hopen⟩

/-- A plan that spends serves of a class more than once answers otherwise than one that counts apart
and has a serve of the class left. -/
theorem CountsApart.exists_answers_ne {q : Plan} {s' : Spending} (hq : q.CountsApart s') {t : Token}
    (ht : t ∈ q.tokens) (hleft : t.spent s' < t.total) {r : Plan} {s : Spending}
    (hr : ∀ n, (r.spend.run (r.afterSpends n s)).1 = some t.priorityClass →
      ∃ k, 1 < k ∧ k < Token.wordSize ∧
        r.spentSum (r.spend.run (r.afterSpends n s)).2 = r.spentSum (r.afterSpends n s) + k) :
    ∃ calls, ((r.answers calls).run s).1 ≠ ((q.answers calls).run s').1 := by
  by_contra hne
  have hsame (calls : List Call) : ((r.answers calls).run s).1 = ((q.answers calls).run s').1 :=
    by_contra fun h => hne ⟨calls, h⟩
  -- after any calls the next one is answered alike
  have hnext (calls : List Call) (call : Call) :
      ((r.answer call).run ((r.answers calls).run s).2).1 =
        ((q.answer call).run ((q.answers calls).run s').2).1 := by
    have hall := hsame (calls ++ [call])
    rw [run_answers_concat, run_answers_concat] at hall
    exact (List.cons.inj (List.append_inj_right' hall rfl)).1
  -- after some serves the class is reached, and its serve is spent once
  obtain ⟨n, hn⟩ := hq.exists_spend_eq ht hleft
  have honce := (hq.balances_afterSpends n).1.spentSum_spend
  have hclass := hnext (.replicate n .spend) .spend
  have hbefore := hnext (.replicate n .spend) .spentTokens
  have hthen := hnext (.replicate n .spend ++ [.spend]) .spentTokens
  rw [run_answers_concat, run_answers_concat] at hthen
  simp only [snd_run_answers_replicate] at hclass hbefore hthen
  obtain ⟨k, hmore, hword, hshared⟩ := hr n ((Answer.priorityClass.inj hclass).trans hn)
  have hcount : r.spentTokens (r.afterSpends n s) = q.spentTokens (q.afterSpends n s') :=
    Answer.count.inj hbefore
  have hcount' : r.spentTokens (r.spend.run (r.afterSpends n s)).2 =
      q.spentTokens (q.spend.run (q.afterSpends n s')).2 := Answer.count.inj hthen
  rw [hn] at honce
  simp only [spentTokens_eq, hshared, honce, Option.toList_some, List.length_singleton,
    Token.wordSize] at hcount hcount' hword
  -- as words the sums were equal, and one of them grew by one and the other by more
  omega

/-! ## When a revision answers as the fresh plan does -/

/-- **A revision of a plan of which nothing was spent shows what the fresh plan of its schedule
shows, and answers as that does unless the schedule repeats a class of the plan.** If it does, some
calls tell the two apart; a list of the schedule has fewer tokens than a word counts. -/
theorem answers_revision_iff {plans : List Plan} {s : Spending} (h : Coexist plans s) {p : Plan}
    (hp : p ∈ plans) (hnone : p.spentSum s = 0) (x : Schedule) :
    let revision := (p.withUpdatedSchedule x).run s
    let fresh := (ofSchedule x).run s
    revision.1.value revision.2 = fresh.1.value fresh.2 ∧
      (¬ p.Repeats x → ∀ calls, ((revision.1.answers calls).run revision.2).1 =
        ((fresh.1.answers calls).run fresh.2).1) ∧
      (x.tokens.length < Token.wordSize → p.Repeats x →
        ∃ calls, ((revision.1.answers calls).run revision.2).1 ≠
          ((fresh.1.answers calls).run fresh.2).1) := by
  intro revision fresh
  obtain ⟨label, hplans⟩ := h.exists_label
  obtain ⟨hl, -⟩ := hplans p hp
  have hopen := isOpen_of_labelled hl
  have hvalue := value_revision hopen hnone x
  refine ⟨hvalue, fun hrepeats calls => ?_, fun hlength hrepeats => ?_⟩
  · have hkind : Function.Injective fun c : Int => c := fun _ _ h => h
    exact answers_eq_of_value_eq (countsApart_withUpdatedSchedule hkind hl hrepeats)
      (countsApart_ofSchedule x s) hvalue calls
  · obtain ⟨c, hc, hcount, a, ha, hac, hpos⟩ := hrepeats
    obtain ⟨t, ht, htc, htotal⟩ := exists_mem_of_allotment ha s
    have hleft : t.spent fresh.2 < t.total := by
      rw [spent_ofSchedule x s t ht, htotal]
      exact hpos
    refine (countsApart_ofSchedule x s).exists_answers_ne ht hleft fun n hclass => ?_
    obtain ⟨k, hmore, hle, hshared⟩ :=
      exists_spentSum_afterSpends hopen hc hcount (hclass.trans (by rw [htc, hac]))
    exact ⟨k, hmore, Nat.lt_of_le_of_lt hle hlength, hshared⟩

/-- A newer schedule that lists the class twice: its counter is full after one serve, while the
fresh plan grants two. -/
theorem not_forall_answers_revision : ¬ ∀ {plans : List Plan} {s : Spending} {p : Plan}
    {x : Schedule}, Coexist plans s → p ∈ plans → p.spentSum s = 0 → x.planId = p.id →
      p.updated < x.updated → ∀ calls,
        ((((p.withUpdatedSchedule x).run s).1.answers calls).run
          ((p.withUpdatedSchedule x).run s).2).1 =
        ((((ofSchedule x).run s).1.answers calls).run ((ofSchedule x).run s).2).1 := by
  intro halike
  let x : Schedule := ⟨"plan", hour 0, hour 2, hour 1, [⟨1, 1⟩, ⟨1, 1⟩]⟩
  have htwo := @halike _ _ _ x coexist_fiveServes List.mem_cons_self rfl rfl (by decide)
    [.spend, .spend]
  have hfresh : (ofSchedule x).run ⟨#[0]⟩ =
      (⟨"plan", hour 0, hour 2, hour 1, [⟨1, 1, ⟨1⟩⟩, ⟨1, 1, ⟨2⟩⟩]⟩, ⟨#[0, 0, 0]⟩) := by
    rw [ofSchedule_of_pairwise (by decide)]
    rfl
  rw [run_withUpdatedSchedule, hfresh] at htwo
  revert htwo
  decide +kernel

/-- A newer schedule that lists another class twice. -/
theorem answers_revision_iff_otherClass : ∃ plans s p, Coexist plans s ∧ p ∈ plans ∧
    p.spentSum s = 0 ∧ ∀ calls,
      let x : Schedule := ⟨"plan", hour 0, hour 2, hour 1, [⟨1, 1⟩, ⟨2, 1⟩, ⟨2, 3⟩]⟩
      ((((p.withUpdatedSchedule x).run s).1.answers calls).run
        ((p.withUpdatedSchedule x).run s).2).1 =
      ((((ofSchedule x).run s).1.answers calls).run ((ofSchedule x).run s).2).1 := by
  refine ⟨_, _, _, coexist_fiveServes, List.mem_cons_self, rfl, ?_⟩
  refine (answers_revision_iff coexist_fiveServes List.mem_cons_self rfl _).2.1 ?_
  rintro ⟨c, hc, hcount, -⟩
  obtain rfl : c = 1 := List.mem_singleton.mp hc
  revert hcount
  decide

end Plan

end DealPacing
