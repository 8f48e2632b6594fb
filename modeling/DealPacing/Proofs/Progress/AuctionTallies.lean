import DealPacing.Proofs.Progress.Recording

/-!
# How often an auction counts a line item

The log of an auction names a line item in sets, so that every counter should rise by one at most,
however many impressions the auction has. That holds for the counters with a set of their own. Three
counters have a set for each source, and the window counts every one of these sets: a line item that
is named under several sources is counted once for each of them.

## Main definitions

* `AuctionLog.bySource`, `AuctionLog.Repeats`: a line item that is named under two sources
* `Window.CountedOnce`: a counter rises by one for a line item that the log names under it

## Main results

* `Window.tally_recordAuction`: an auction counts every set that names a line item
* `Window.countedOnce_iff`: when a counter rises as it should
* `Window.auction_counts`: what an auction counts in all
-/

namespace DealPacing

/-- Of different elements at most one has a property if those that have it are equal. -/
theorem countP_le_one_iff {α : Type} {p : α → Bool} {l : List α} (hd : l.Nodup) :
    l.countP p ≤ 1 ↔ ∀ a ∈ l, ∀ b ∈ l, p a → p b → a = b := by
  induction l with
  | nil => simp
  | cons c l ih =>
    rw [List.nodup_cons] at hd
    by_cases hc : p c
    · -- no other element may have the property
      rw [List.countP_cons_of_pos hc]
      constructor
      · intro hle a ha b hb hpa hpb
        have hnone : ∀ a ∈ l, ¬ p a := List.countP_eq_zero.mp (by omega)
        have hfirst {a : α} (ha : a ∈ c :: l) (hpa : p a) : a = c := by
          rcases List.mem_cons.mp ha with rfl | ha
          · rfl
          · exact absurd hpa (hnone a ha)
        exact (hfirst ha hpa).trans (hfirst hb hpb).symm
      · intro h
        have hzero : l.countP p = 0 := by
          refine List.countP_eq_zero.mpr fun a ha hpa => hd.1 ?_
          have hac := h a (List.mem_cons_of_mem c ha) c List.mem_cons_self hpa hc
          exact hac ▸ ha
        omega
    · rw [List.countP_cons_of_neg hc, ih hd.2]
      constructor
      · intro h a ha b hb hpa hpb
        have hrest {a : α} (ha : a ∈ c :: l) (hpa : p a) : a ∈ l := by
          rcases List.mem_cons.mp ha with rfl | ha
          · exact absurd hpa hc
          · exact ha
        exact h a (hrest ha hpa) b (hrest hb hpb) hpa hpb
      · intro h a ha b hb
        exact h a (List.mem_cons_of_mem c ha) b (List.mem_cons_of_mem c hb)

namespace AuctionLog

/-- The sets of each source for a counter that has them. -/
def bySource (log : AuctionLog) : Tally → IdMap IdSet
  | .sentToBidder => log.sentToBidder
  | .sentToBidderAsTopMatch => log.sentToBidderAsTopMatch
  | .receivedFromBidder => log.receivedFromBidder
  | _ => ∅

/-- The log names a line item for a counter. -/
def Names (log : AuctionLog) (t : Tally) (id : String) : Prop := ∃ ids ∈ log.setsOf t, id ∈ ids

/-- The log names a line item for a counter under two sources. -/
def Repeats (log : AuctionLog) (t : Tally) (id : String) : Prop :=
  ∃ (a b : String) (ids ids' : IdSet), a ≠ b ∧ (log.bySource t)[a]? = some ids ∧
    (log.bySource t)[b]? = some ids' ∧ id ∈ ids ∧ id ∈ ids'

variable {log : AuctionLog} {t : Tally} {id : String}

/-- A counter has one set, or one for each source. -/
theorem setsOf_eq (log : AuctionLog) (t : Tally) :
    (∃ ids, log.setsOf t = [ids] ∧ log.bySource t = ∅) ∨
      log.setsOf t = (log.bySource t).toList.map Prod.snd := by
  cases t with
  | sentToBidder | sentToBidderAsTopMatch | receivedFromBidder => exact .inr rfl
  | _ => exact .inl ⟨_, rfl, rfl⟩

theorem countP_setsOf_pos_iff : 0 < (log.setsOf t).countP (·.contains id) ↔ log.Names t id := by
  rw [List.countP_pos_iff]
  simp only [Names, Std.ExtTreeSet.contains_iff_mem]

/-- A line item is named in two sets just when it is named under two sources. -/
theorem countP_setsOf_le_one_iff :
    (log.setsOf t).countP (·.contains id) ≤ 1 ↔ ¬ log.Repeats t id := by
  rcases log.setsOf_eq t with ⟨ids, hsets, hnone⟩ | hsets
  · -- there is one set, and there are no sources
    have hrepeats : ¬ log.Repeats t id := by
      rintro ⟨a, b, ids, ids', -, ha, -⟩
      rw [hnone, Std.ExtTreeMap.getElem?_empty] at ha
      cases ha
    rw [hsets]
    exact iff_of_true (List.countP_le_length) hrepeats
  · rw [hsets, List.countP_map, countP_le_one_iff (nodup_keys_toList _).of_map]
    constructor
    · rintro h ⟨a, b, ids, ids', hne, ha, hb, hid, hid'⟩
      have heq := h (a, ids) (Std.ExtTreeMap.mem_toList_iff_getElem?_eq_some.mpr ha) (b, ids')
        (Std.ExtTreeMap.mem_toList_iff_getElem?_eq_some.mpr hb)
        (Std.ExtTreeSet.contains_iff_mem.mpr hid) (Std.ExtTreeSet.contains_iff_mem.mpr hid')
      exact hne (congrArg Prod.fst heq)
    · rintro h ⟨a, ids⟩ ha ⟨b, ids'⟩ hb hid hid'
      have hget := Std.ExtTreeMap.mem_toList_iff_getElem?_eq_some.mp ha
      have hget' := Std.ExtTreeMap.mem_toList_iff_getElem?_eq_some.mp hb
      have hab : a = b := by
        by_contra hne
        exact h ⟨a, b, ids, ids', hne, hget, hget', Std.ExtTreeSet.contains_iff_mem.mp hid,
          Std.ExtTreeSet.contains_iff_mem.mp hid'⟩
      subst hab
      rw [hget] at hget'
      rw [Option.some.inj hget']

end AuctionLog

namespace Window

/-- A counter of a line item rose by one if the log names the line item for it, and not at all
otherwise. -/
def CountedOnce (w w' : Window) (log : AuctionLog) (id : String) (t : Tally) : Prop :=
  (log.Names t id → w'.tally id t = w.tally id t + 1) ∧
    (¬ log.Names t id → w'.tally id t = w.tally id t)

section Auction

variable (w : Window) (r : Registry) (log : AuctionLog) (classes : IdMap Int) (accountId : String)
  (s : Spending)

/-- An auction counts every set that names a line item. -/
theorem tally_recordAuction (id : String) (t : Tally) :
    ((w.recordAuction r log classes accountId).run s).1.tally id t =
      w.tally id t + (log.setsOf t).countP (·.contains id) := by
  rw [← log.count_records_tally accountId]
  exact w.adds_recordLog r log classes accountId s (.tally id t)

theorem eventCount_recordAuction (id name : String) :
    ((w.recordAuction r log classes accountId).run s).1.eventCount id name =
      w.eventCount id name := by
  have hzero : (log.records accountId).count (.event id name) = 0 := by
    have hnone (t : Tally) (ids : IdSet) : .event id name ∉ AuctionLog.tallyRecords t ids :=
      List.count_eq_zero.mp (AuctionLog.count_tallyRecords_of_forall_ne (by simp) t ids)
    have hno (entry : String × IdSet) : .event id name ∉ AuctionLog.lossRecords entry :=
      List.count_eq_zero.mp (AuctionLog.count_lossRecords_of_forall_ne (by simp))
    rw [List.count_eq_zero, AuctionLog.records, List.mem_append, List.mem_append]
    simp [hnone, hno]
  have hadds := w.adds_recordLog r log classes accountId s (.event id name)
  rw [hzero] at hadds
  exact hadds

/-- A counter rises as it should unless the line item is named under two sources. -/
theorem countedOnce_iff (id : String) (t : Tally) :
    w.CountedOnce ((w.recordAuction r log classes accountId).run s).1 log id t ↔
      ¬ log.Repeats t id := by
  have hnames : 0 < (log.setsOf t).countP (·.contains id) ↔ log.Names t id :=
    AuctionLog.countP_setsOf_pos_iff
  rw [← AuctionLog.countP_setsOf_le_one_iff, CountedOnce, tally_recordAuction, ← hnames]
  omega

end Auction

/-- **What an auction counts.** The counters of a line item rise by the number of sets that name it
for them, so one counter rises as it should, by one if the log names the line item for it and not at
all otherwise, just when the log does not name the line item for it under two sources. The counters
with a set of their own always do. Events are not counted. -/
theorem auction_counts (w : Window) (r : Registry) (log : AuctionLog) (classes : IdMap Int)
    (accountId : String) (s : Spending) :
    let w' := ((w.recordAuction r log classes accountId).run s).1
    (∀ id t, w'.tally id t = w.tally id t + (log.setsOf t).countP (·.contains id)) ∧
      (∀ id t, w.CountedOnce w' log id t ↔ ¬ log.Repeats t id) ∧
      ∀ id name, w'.eventCount id name = w.eventCount id name :=
  ⟨w.tally_recordAuction r log classes accountId s, w.countedOnce_iff r log classes accountId s,
    w.eventCount_recordAuction r log classes accountId s⟩

/-- Two bidders answer with one line item, which is then counted twice. -/
theorem not_forall_countedOnce : ¬ ∀ (w : Window) (r : Registry) (log : AuctionLog)
    (classes : IdMap Int) (accountId : String) (s : Spending) (id : String) (t : Tally),
    w.CountedOnce ((w.recordAuction r log classes accountId).run s).1 log id t := by
  intro h
  let ids : IdSet := (∅ : IdSet).insert "lineItem"
  let log : AuctionLog :=
    { receivedFromBidder := ((∅ : IdMap IdSet).insert "bidder" ids).insert "alias" ids }
  have hid : "lineItem" ∈ ids := Std.ExtTreeSet.mem_insert_self
  have hbidder : (log.bySource .receivedFromBidder)["bidder"]? = some ids := by
    refine Std.ExtTreeMap.getElem?_insert.trans ((if_neg (by decide)).trans ?_)
    exact Std.ExtTreeMap.getElem?_insert_self
  have halias : (log.bySource .receivedFromBidder)["alias"]? = some ids :=
    Std.ExtTreeMap.getElem?_insert_self
  have hrepeats : log.Repeats .receivedFromBidder "lineItem" :=
    ⟨"bidder", "alias", ids, ids, by decide, hbidder, halias, hid, hid⟩
  have honce := h (opened (hour 0)) .empty log ∅ "account" {} "lineItem" .receivedFromBidder
  exact (countedOnce_iff _ _ _ _ _ _ _ _).mp honce hrepeats

end Window

end DealPacing
