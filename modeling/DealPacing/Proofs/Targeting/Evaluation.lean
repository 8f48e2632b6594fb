import DealPacing.Targeting.Evaluation

/-!
# What evaluation yields

Evaluating a targeting expression yields its truth value, whatever is in the auction log, and
touches no other heading of the log than that of domain matches. What it files there depends on the
expression and the opportunity only.

## Main definitions

* `Expression.domainMatches`: the line items that an evaluation files under domain matches

## Main results

* `Expression.exists_evaluate`: the value and the log of an evaluation
* `Expression.mem_matchedDomain_evaluate`: the domain matches of an evaluation
-/

namespace DealPacing.Targeting

variable (o : Opportunity)

theorem exists_recordDomainMatch (owner : Option String) (held : Bool) (log : AuctionLog) :
    ∃ domains, recordDomainMatch owner held log = { log with matchedDomain := domains } := by
  unfold recordDomainMatch
  split
  · exact ⟨_, rfl⟩
  · exact ⟨_, rfl⟩

mutual

/-- An evaluation yields the truth value and records domain matches only. -/
theorem Expression.exists_evaluate : ∀ (e : Expression) (log : AuctionLog), ∃ domains,
    e.evaluate o log = (e.holds o, { log with matchedDomain := domains })
  | .and children, log => Expression.exists_evaluateAll children log
  | .or children, log => Expression.exists_evaluateAny children log
  | .not child, log => by
    obtain ⟨domains, h⟩ := Expression.exists_evaluate child log
    exact ⟨domains, by rw [Expression.evaluate, h, Expression.holds]⟩
  | .leaf _, log => ⟨log.matchedDomain, rfl⟩
  | .domainLeaf owner test, log => by
    obtain ⟨domains, h⟩ := exists_recordDomainMatch owner (test.holds o) log
    exact ⟨domains, by rw [Expression.evaluate, h, Expression.holds]⟩

theorem Expression.exists_evaluateAll : ∀ (es : List Expression) (log : AuctionLog), ∃ domains,
    Expression.evaluateAll o es log =
      (Expression.allHold o es, { log with matchedDomain := domains })
  | [], log => ⟨log.matchedDomain, rfl⟩
  | e :: rest, log => by
    obtain ⟨domains, h⟩ := Expression.exists_evaluate e log
    rw [Expression.evaluateAll, Expression.allHold, h]
    cases e.holds o with
    | false => exact ⟨domains, rfl⟩
    | true => exact Expression.exists_evaluateAll rest { log with matchedDomain := domains }

theorem Expression.exists_evaluateAny : ∀ (es : List Expression) (log : AuctionLog), ∃ domains,
    Expression.evaluateAny o es log =
      (Expression.anyHolds o es, { log with matchedDomain := domains })
  | [], log => ⟨log.matchedDomain, rfl⟩
  | e :: rest, log => by
    obtain ⟨domains, h⟩ := Expression.exists_evaluate e log
    rw [Expression.evaluateAny, Expression.anyHolds, h]
    cases e.holds o with
    | true => exact ⟨domains, rfl⟩
    | false => exact Expression.exists_evaluateAny rest { log with matchedDomain := domains }

end

theorem Expression.fst_evaluate (e : Expression) (log : AuctionLog) :
    (e.evaluate o log).1 = e.holds o := by
  obtain ⟨domains, h⟩ := e.exists_evaluate o log
  rw [h]

/-! ## Domain matches -/

mutual

/-- The owners of the domain tests that hold while the expression is evaluated from left to right,
as far as the evaluation goes. -/
def Expression.domainMatches : Expression → List String
  | .and children => Expression.domainMatchesAll children
  | .or children => Expression.domainMatchesAny children
  | .not child => Expression.domainMatches child
  | .leaf _ => []
  | .domainLeaf owner test => if test.holds o then owner.toList else []

/-- The domain matches of expressions that are evaluated until one fails. -/
def Expression.domainMatchesAll : List Expression → List String
  | [] => []
  | e :: rest =>
    Expression.domainMatches e ++ if e.holds o then Expression.domainMatchesAll rest else []

/-- The domain matches of expressions that are evaluated until one holds. -/
def Expression.domainMatchesAny : List Expression → List String
  | [] => []
  | e :: rest =>
    Expression.domainMatches e ++ if e.holds o then [] else Expression.domainMatchesAny rest

end

theorem mem_matchedDomain_recordDomainMatch {owner : Option String} {held : Bool}
    {log : AuctionLog} {id : String} :
    id ∈ (recordDomainMatch owner held log).matchedDomain ↔
      id ∈ log.matchedDomain ∨ id ∈ if held then owner.toList else [] := by
  cases owner <;> cases held <;> simp [recordDomainMatch, or_comm, eq_comm (a := id)]

mutual

/-- An evaluation files its domain matches, and keeps those that were filed before. -/
theorem Expression.mem_matchedDomain_evaluate : ∀ (e : Expression) (log : AuctionLog) (id : String),
    id ∈ (e.evaluate o log).2.matchedDomain ↔ id ∈ log.matchedDomain ∨ id ∈ e.domainMatches o
  | .and children, log, id => Expression.mem_matchedDomain_evaluateAll children log id
  | .or children, log, id => Expression.mem_matchedDomain_evaluateAny children log id
  | .not child, log, id => Expression.mem_matchedDomain_evaluate child log id
  | .leaf _, log, id => by simp [Expression.evaluate, Expression.domainMatches]
  | .domainLeaf owner test, log, id => mem_matchedDomain_recordDomainMatch

theorem Expression.mem_matchedDomain_evaluateAll :
    ∀ (es : List Expression) (log : AuctionLog) (id : String),
      id ∈ (Expression.evaluateAll o es log).2.matchedDomain ↔
        id ∈ log.matchedDomain ∨ id ∈ Expression.domainMatchesAll o es
  | [], log, id => by simp [Expression.evaluateAll, Expression.domainMatchesAll]
  | e :: rest, log, id => by
    have hvalue := e.fst_evaluate o log
    have hhead := Expression.mem_matchedDomain_evaluate e log id
    rw [Expression.evaluateAll, Expression.domainMatchesAll, ← hvalue]
    -- the rest is evaluated only if the first expression holds
    rcases heval : e.evaluate o log with ⟨held, log'⟩
    rw [heval] at hhead
    cases held with
    | false => simpa using hhead
    | true =>
      have hrest := Expression.mem_matchedDomain_evaluateAll rest log' id
      simp only [if_true, List.mem_append]
      rw [hrest, hhead, or_assoc]

theorem Expression.mem_matchedDomain_evaluateAny :
    ∀ (es : List Expression) (log : AuctionLog) (id : String),
      id ∈ (Expression.evaluateAny o es log).2.matchedDomain ↔
        id ∈ log.matchedDomain ∨ id ∈ Expression.domainMatchesAny o es
  | [], log, id => by simp [Expression.evaluateAny, Expression.domainMatchesAny]
  | e :: rest, log, id => by
    have hvalue := e.fst_evaluate o log
    have hhead := Expression.mem_matchedDomain_evaluate e log id
    rw [Expression.evaluateAny, Expression.domainMatchesAny, ← hvalue]
    rcases heval : e.evaluate o log with ⟨held, log'⟩
    rw [heval] at hhead
    cases held with
    | true => simpa using hhead
    | false =>
      have hrest := Expression.mem_matchedDomain_evaluateAny rest log' id
      simp only [Bool.false_eq_true, if_false, List.mem_append]
      rw [hrest, hhead, or_assoc]

end

end DealPacing.Targeting
