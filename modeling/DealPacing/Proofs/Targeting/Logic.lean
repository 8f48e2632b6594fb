import DealPacing.Proofs.Targeting.Evaluation
import DealPacing.Proofs.Targeting.Grammar
import Mathlib.Data.List.Perm.Basic

/-!
# The logic of targeting expressions

A leaf is true of an opportunity if some value that it looks up is one that it accepts, and the
operators are those of classical logic. Evaluation yields this truth value whatever the auction log
is, and the order of children does not matter to it. What evaluation files in the log are owners of
domain tests that are true, so a parsed expression files the line item it was parsed for or nothing.

## Main definitions

* `Opportunity.lookup`, `Leaf.Accepts`: the values that a leaf looks up and those that it accepts
* `Expression.IsTrue`: the truth of an expression in classical logic
* `Expression.Reordered`: expressions that differ in the order of children
* `Expression.Part`: the expressions inside an expression

## Main results

* `Expression.holds_iff`: the truth value of an expression is that of classical logic
* `Expression.Reordered.holds_eq`: the order of children does not matter
* `Expression.evaluate_eq`: an evaluation files its domain matches and nothing else
* `Expression.evaluate_classical`: value and effect of an evaluation
-/

namespace DealPacing.Targeting

/-! ## Leaves -/

/-- A value of a request attribute. -/
inductive Value where
  | text (s : String)
  | integer (n : Int)
  | size (size : Size)
  | point (lat lon : Float)

/-- The values of an opportunity that a leaf looks up. -/
def Opportunity.lookup (o : Opportunity) : Leaf → List Value
  | .pattern category _ _ | .inStrings category _ => (o.string category).map .text
  | .inIntegers category _ => (o.integer category).map .integer
  | .intersectsStrings category _ => (o.strings category).map .text
  | .intersectsIntegers category _ => (o.integers category).map .integer
  | .intersectsSizes _ _ => o.sizes.map .size
  | .within _ _ => o.location?.toList.map fun (lat, lon) => .point lat lon

/-- A text is described by a constant that is open in front, behind, on both sides or not at all. -/
def Pattern.Describes (shape : Pattern) (constant text : List Char) : Prop :=
  match shape with
  | .equals => text = constant
  | .startsWith => constant <+: text
  | .endsWith => constant <:+ text
  | .contains => constant <:+: text

/-- The values that a leaf accepts; texts are compared in lower case. -/
def Leaf.Accepts : Leaf → Value → Prop
  | .pattern _ shape constant, .text s =>
    shape.Describes constant.toList (Text.lowercase s).toList
  | .inStrings _ constants, .text s | .intersectsStrings _ constants, .text s =>
    Text.lowercase s ∈ constants
  | .inIntegers _ constants, .integer n | .intersectsIntegers _ constants, .integer n =>
    n ∈ constants
  | .intersectsSizes _ constants, .size size => size ∈ constants
  | .within _ region, .point lat lon => region.contains lat lon
  | _, _ => False

/-- A leaf is true if it accepts some value that it looks up. -/
def Leaf.IsTrue (o : Opportunity) (test : Leaf) : Prop :=
  ∃ value ∈ o.lookup test, test.Accepts value

theorem occursIn_iff {part text : List Char} : occursIn part text = true ↔ part <:+: text := by
  induction text with
  | nil => simp [occursIn]
  | cons c text ih => simp [occursIn, ih, List.infix_cons_iff]

theorem Pattern.fits_iff {shape : Pattern} {constant text : String} :
    shape.fits constant text = true ↔ shape.Describes constant.toList text.toList := by
  cases shape with
  | equals => simp [fits, Describes, String.toList_inj]
  | startsWith => simp [fits, Describes]
  | endsWith => simp [fits, Describes]
  | contains => simp [fits, Describes, occursIn_iff]

/-- The truth value of a leaf. -/
theorem Leaf.holds_iff {o : Opportunity} {test : Leaf} :
    test.holds o = true ↔ test.IsTrue o := by
  unfold IsTrue
  cases test with
  | within category region =>
    simp only [holds, Opportunity.lookup]
    cases o.location? <;> simp [Accepts]
  | _ => simp [holds, Opportunity.lookup, Accepts, Pattern.fits_iff]

/-! ## Expressions -/

namespace Expression

/-- The truth of an expression, by classical logic from that of its leaves. -/
def IsTrue (o : Opportunity) : Expression → Prop
  | .and children => ∀ child, child ∈ children → child.IsTrue o
  | .or children => ∃ child, ∃ _ : child ∈ children, child.IsTrue o
  | .not child => ¬child.IsTrue o
  | .leaf test => test.IsTrue o
  | .domainLeaf _ test => test.IsTrue o

variable {o : Opportunity}

theorem allHold_iff {children : List Expression} :
    allHold o children = true ↔ ∀ child ∈ children, child.holds o = true := by
  induction children with
  | nil => simp [allHold]
  | cons child rest ih => simp [allHold, ih]

theorem anyHolds_iff {children : List Expression} :
    anyHolds o children = true ↔ ∃ child ∈ children, child.holds o = true := by
  induction children with
  | nil => simp [anyHolds]
  | cons child rest ih => simp [anyHolds, ih]

/-- **The truth value of an expression is that of classical logic.** -/
theorem holds_iff : ∀ e : Expression, e.holds o = true ↔ e.IsTrue o
  | .and children => by
    rw [holds, allHold_iff, IsTrue]
    exact forall₂_congr fun child _ => holds_iff child
  | .or children => by
    rw [holds, anyHolds_iff, IsTrue]
    simp only [exists_prop]
    exact exists_congr fun child => and_congr_right fun _ => holds_iff child
  | .not child => by
    rw [holds, IsTrue, ← holds_iff child, Bool.not_eq_true', Bool.not_eq_true]
  | .leaf test | .domainLeaf _ test => by
    rw [holds, IsTrue, Leaf.holds_iff]

/-- Expressions that differ in the order of the children of operators. -/
inductive Reordered : Expression → Expression → Prop
  | refl (e) : Reordered e e
  | trans {e e' e''} (h : Reordered e e') (h' : Reordered e' e'') : Reordered e e''
  | and {children children'} (h : children.Perm children') :
    Reordered (.and children) (.and children')
  | or {children children'} (h : children.Perm children') :
    Reordered (.or children) (.or children')
  | inAnd {e e'} (before after) (h : Reordered e e') :
    Reordered (.and (before ++ e :: after)) (.and (before ++ e' :: after))
  | inOr {e e'} (before after) (h : Reordered e e') :
    Reordered (.or (before ++ e :: after)) (.or (before ++ e' :: after))
  | inNot {e e'} (h : Reordered e e') : Reordered (.not e) (.not e')

/-- **The order of children does not matter** to the truth value. -/
theorem Reordered.holds_eq {e e' : Expression} (h : Reordered e e') : e.holds o = e'.holds o := by
  induction h with
  | refl e => rfl
  | trans _ _ ih ih' => exact ih.trans ih'
  | and h =>
    rw [holds, holds, Bool.eq_iff_iff, allHold_iff, allHold_iff]
    exact forall_congr' fun child => imp_congr_left h.mem_iff
  | or h =>
    rw [holds, holds, Bool.eq_iff_iff, anyHolds_iff, anyHolds_iff]
    exact exists_congr fun child => and_congr_left fun _ => h.mem_iff
  | inAnd before after _ ih =>
    rw [holds, holds, Bool.eq_iff_iff, allHold_iff, allHold_iff]
    simp only [List.forall_mem_append, List.forall_mem_cons, ih]
  | inOr before after _ ih =>
    rw [holds, holds, Bool.eq_iff_iff, anyHolds_iff, anyHolds_iff]
    simp only [List.mem_append, List.mem_cons, or_and_right, exists_or, exists_eq_left, ih]
  | inNot _ ih => rw [holds, holds, ih]

/-! ## Effects -/

/-- The expressions inside an expression, itself included. -/
inductive Part : Expression → Expression → Prop
  | refl (e) : Part e e
  | and {e child children} (hmem : child ∈ children) (h : Part e child) : Part e (.and children)
  | or {e child children} (hmem : child ∈ children) (h : Part e child) : Part e (.or children)
  | not {e child} (h : Part e child) : Part e (.not child)

/-- There is a domain test of the line item inside the expression, and it is true. -/
def Credits (o : Opportunity) (id : String) (e : Expression) : Prop :=
  ∃ test, Part (.domainLeaf (some id) test) e ∧ test.IsTrue o

mutual

/-- The domain matches of an expression are owners of domain tests that are true. -/
theorem credits_of_mem_domainMatches {id : String} :
    ∀ e : Expression, id ∈ e.domainMatches o → Credits o id e
  | .and children, h => by
    obtain ⟨child, hmem, test, hpart, htrue⟩ := exists_credits_of_mem_domainMatchesAll children h
    exact ⟨test, .and hmem hpart, htrue⟩
  | .or children, h => by
    obtain ⟨child, hmem, test, hpart, htrue⟩ := exists_credits_of_mem_domainMatchesAny children h
    exact ⟨test, .or hmem hpart, htrue⟩
  | .not child, h => by
    obtain ⟨test, hpart, htrue⟩ := credits_of_mem_domainMatches child h
    exact ⟨test, .not hpart, htrue⟩
  | .leaf _, h => by
    rw [domainMatches] at h
    cases h
  | .domainLeaf owner test, h => by
    rw [domainMatches] at h
    split at h
    · next htrue =>
      rw [Option.mem_toList] at h
      exact ⟨test, h ▸ .refl _, Leaf.holds_iff.mp htrue⟩
    · cases h

theorem exists_credits_of_mem_domainMatchesAll {id : String} :
    ∀ children : List Expression, id ∈ domainMatchesAll o children →
      ∃ child ∈ children, Credits o id child
  | [], h => by
    rw [domainMatchesAll] at h
    cases h
  | child :: rest, h => by
    rw [domainMatchesAll, List.mem_append] at h
    rcases h with h | h
    · exact ⟨child, List.mem_cons_self, credits_of_mem_domainMatches child h⟩
    · -- the other children are evaluated only if this one holds
      split at h
      · obtain ⟨other, hmem, hcredits⟩ := exists_credits_of_mem_domainMatchesAll rest h
        exact ⟨other, List.mem_cons_of_mem _ hmem, hcredits⟩
      · cases h

theorem exists_credits_of_mem_domainMatchesAny {id : String} :
    ∀ children : List Expression, id ∈ domainMatchesAny o children →
      ∃ child ∈ children, Credits o id child
  | [], h => by
    rw [domainMatchesAny] at h
    cases h
  | child :: rest, h => by
    rw [domainMatchesAny, List.mem_append] at h
    rcases h with h | h
    · exact ⟨child, List.mem_cons_self, credits_of_mem_domainMatches child h⟩
    · -- the other children are evaluated only if this one does not hold
      split at h
      · cases h
      · obtain ⟨other, hmem, hcredits⟩ := exists_credits_of_mem_domainMatchesAny rest h
        exact ⟨other, List.mem_cons_of_mem _ hmem, hcredits⟩

end

/-- The children of a conjunction that is true are all evaluated. -/
theorem mem_domainMatchesAll {id : String} {child : Expression} {children : List Expression}
    (htrue : allHold o children = true) (hmem : child ∈ children)
    (h : id ∈ child.domainMatches o) : id ∈ domainMatchesAll o children := by
  induction children with
  | nil => cases hmem
  | cons first rest ih =>
    rw [allHold, Bool.and_eq_true] at htrue
    rw [domainMatchesAll, if_pos htrue.1, List.mem_append]
    rcases List.mem_cons.mp hmem with rfl | hmem
    · exact .inl h
    · exact .inr (ih htrue.2 hmem)

/-- **An evaluation files its domain matches**, and nothing else. -/
theorem evaluate_eq (e : Expression) (log : AuctionLog) :
    e.evaluate o log = (e.holds o,
      { log with matchedDomain := log.matchedDomain.insertMany (e.domainMatches o) }) := by
  obtain ⟨domains, h⟩ := e.exists_evaluate o log
  have hdomains : domains = log.matchedDomain.insertMany (e.domainMatches o) := by
    refine Std.ExtTreeSet.ext_mem fun id => ?_
    have hmem := e.mem_matchedDomain_evaluate o log id
    rw [h] at hmem
    simpa using hmem
  rw [h, hdomains]

/-- To add the same id any number of times is to add it once or not at all. -/
theorem insertMany_eq_or_eq {ids : List String} {id : String} (h : ∀ other ∈ ids, other = id)
    (domains : IdSet) :
    domains.insertMany ids = domains ∨ domains.insertMany ids = domains.insert id := by
  cases ids with
  | nil => exact .inl (Std.ExtTreeSet.ext_mem fun _ => by simp)
  | cons first rest =>
    refine .inr (Std.ExtTreeSet.ext_mem fun other => ?_)
    have hids : other ∈ first :: rest ↔ other = id := by
      refine ⟨h other, ?_⟩
      rintro rfl
      exact h first List.mem_cons_self ▸ List.mem_cons_self
    rw [Std.ExtTreeSet.mem_insertMany_list, Std.ExtTreeSet.mem_insert, List.contains_iff_mem, hids,
      Std.LawfulEqCmp.compare_eq_iff_eq, or_comm, eq_comm]

/-! ## Parsed expressions -/

theorem exists_rel_of_mem {α β : Type} {R : α → β → Prop} {as : List α} {bs : List β}
    (h : List.Forall₂ R as bs) {b : β} (hb : b ∈ bs) : ∃ a ∈ as, R a b := by
  induction h with
  | nil => cases hb
  | cons hrel _ ih =>
    rcases List.mem_cons.mp hb with rfl | hb
    · exact ⟨_, List.mem_cons_self, hrel⟩
    · obtain ⟨a, ha, hrel⟩ := ih hb
      exact ⟨a, List.mem_cons_of_mem _ ha, hrel⟩

/-- The domain tests of a parsed expression belong to the owner it was parsed for. -/
theorem Reads.owner_eq {owner owner' : Option String} {test : Leaf} {v : Json} {e : Expression}
    (h : Reads owner v e) (hpart : Part (.domainLeaf owner' test) e) : owner' = owner := by
  generalize hp : Expression.domainLeaf owner' test = p at hpart
  -- along the way from the expression to the test, every child was read for the same owner
  induction hpart generalizing v with
  | refl =>
    subst hp
    cases h with
    | domainLeaf _ _ => rfl
  | and hmem _ ih =>
    cases h with
    | and h =>
      obtain ⟨w, -, hw⟩ := exists_rel_of_mem h hmem
      exact ih hw
  | or hmem _ ih =>
    cases h with
    | or h =>
      obtain ⟨w, -, hw⟩ := exists_rel_of_mem h hmem
      exact ih hw
  | not _ ih =>
    cases h with
    | not h => exact ih h

/-- The domain matches of a parsed expression are its owner or none. -/
theorem Reads.eq_of_mem_domainMatches {lineItemId id : String} {v : Json} {e : Expression}
    (h : Reads (some lineItemId) v e) (hid : id ∈ e.domainMatches o) : id = lineItemId := by
  obtain ⟨test, hpart, -⟩ := credits_of_mem_domainMatches e hid
  exact Option.some.inj (h.owner_eq hpart)

/-- A conjunction that was parsed and is true files its owner for a domain test among its children.
-/
theorem Reads.mem_domainMatches {lineItemId : String} {v : Json} {children : List Expression}
    (h : Reads (some lineItemId) v (.and children)) {owner : Option String} {test : Leaf}
    (hmem : .domainLeaf owner test ∈ children) (htrue : (Expression.and children).IsTrue o) :
    lineItemId ∈ (Expression.and children).domainMatches o := by
  have howner : owner = some lineItemId := h.owner_eq (.and hmem (.refl _))
  subst howner
  have hall : allHold o children = true := (holds_iff _).mpr htrue
  have htest : test.holds o = true := allHold_iff.mp hall _ hmem
  refine mem_domainMatchesAll hall hmem ?_
  rw [domainMatches, if_pos htest]
  exact List.mem_singleton.mpr rfl

/-- **Evaluation is classical logic with one bounded effect.** Whatever the auction log is, and
however children are ordered, an evaluation yields the truth of the expression. It adds some ids to
the domain matches of the log, each of which owns a domain test inside the expression that is true.
So an expression that was parsed for a line item files this line item or nothing, and it does file
it if it is a conjunction, true, with a domain test among its children. -/
theorem evaluate_classical (o : Opportunity) (e : Expression) : ∃ ids : List String,
    (∀ log, (e.evaluate o log).1 = true ↔ e.IsTrue o) ∧
    (∀ e' log log', Reordered e e' → (e'.evaluate o log').1 = (e.evaluate o log).1) ∧
    (∀ log, (e.evaluate o log).2 =
      { log with matchedDomain := log.matchedDomain.insertMany ids }) ∧
    (∀ id ∈ ids, ∃ test, Part (.domainLeaf (some id) test) e ∧ test.IsTrue o) ∧
    ∀ v lineItemId, parse v (some lineItemId) = .ok e → ∀ log,
      ((e.evaluate o log).2 = log ∨ (e.evaluate o log).2 =
        { log with matchedDomain := log.matchedDomain.insert lineItemId }) ∧
      ∀ children owner test, e = .and children → .domainLeaf owner test ∈ children →
        e.IsTrue o → lineItemId ∈ (e.evaluate o log).2.matchedDomain := by
  have hvalue (e : Expression) (log) : (e.evaluate o log).1 = e.holds o := e.fst_evaluate o log
  refine ⟨e.domainMatches o, ?_, ?_, ?_, fun id => credits_of_mem_domainMatches e, ?_⟩
  · intro log
    rw [hvalue, holds_iff]
  · intro e' log log' h
    rw [hvalue, hvalue, h.holds_eq]
  · intro log
    rw [evaluate_eq]
  · intro v lineItemId hparse log
    have hreads := ((parse_reads v (some lineItemId)).1 e).mp hparse
    refine ⟨?_, ?_⟩
    · rw [evaluate_eq]
      rcases insertMany_eq_or_eq (fun id => hreads.eq_of_mem_domainMatches) log.matchedDomain with
        h | h <;> rw [h]
      · exact .inl rfl
      · exact .inr rfl
    · rintro children owner test rfl hmem htrue
      rw [mem_matchedDomain_evaluate]
      exact .inr (hreads.mem_domainMatches hmem htrue)

end Expression

end DealPacing.Targeting
