import DealPacing.Delivery.Spending
import DealPacing.Wire.LineItemRecord
import Std.Data.ExtTreeMap

/-!
# Delivery plans

A delivery plan is a schedule with spend counters. Its tokens are ordered by priority class, so that
serves are taken from the lowest class that has any left. The planner can replace a plan by a newer
revision of its schedule, and an outgoing plan can be carried into the next one; in both cases the
counters of the old plan stay in use. Reporting windows keep copies of plans and add them up.

The totals of a schedule can be any 64-bit words, so sums of totals, and of what is left of them,
are taken in words and start over when a word is full. Serves are counted one by one, without bound.

## Main definitions

* `Plan`: plans, with their totals and their pace
* `Plan.ofSchedule`, `Plan.clone`, `Plan.withoutSpent`: plans with counters of their own
* `Plan.spend`: take a serve
* `Plan.withScheduleOf`: a newer revision of a plan
* `Plan.mergedWithPrevious`: a plan that carries on the previous one
* `Plan.mergedSpentWith`: two copies of a plan added up
-/

namespace DealPacing

/-- A delivery plan. -/
structure Plan where
  id : String
  start : Instant
  finish : Instant
  updated : Instant
  tokens : List Token
deriving DecidableEq, Repr

namespace Plan

/-- The tokens of a plan as values. -/
def balances (p : Plan) (s : Spending) : List Balance := p.tokens.map (·.balance s)

/-- The allotments of a schedule, lower classes first and otherwise in their own order. -/
def inClassOrder (tokens : List Allotment) : List Allotment :=
  tokens.mergeSort fun a b => a.priorityClass ≤ b.priorityClass

/-- The plan of a schedule, with nothing spent. -/
def ofSchedule (x : Schedule) : StateM Spending Plan := do
  let tokens ← Token.ofBalances
    ((inClassOrder x.tokens).map fun a => ⟨a.priorityClass, a.total, 0⟩)
  return ⟨x.planId, x.start, x.finish, x.updated, tokens⟩

/-- The plan covers the instant: `start ≤ now < finish`. -/
def covers (p : Plan) (now : Instant) : Bool := p.start ≤ now && now < p.finish

/-- The schedule is a newer revision of the plan. -/
def isUpdatedBy (p : Plan) (x : Schedule) : Bool := x.planId == p.id && p.updated < x.updated

/-- The other plan is a newer revision of the plan. -/
def isSupersededBy (p other : Plan) : Bool := other.id == p.id && p.updated < other.updated

/-- The serves granted, summed up in a word. -/
def totalTokens (p : Plan) : Nat := Token.wordSum (p.tokens.map (·.total))

/-- The serves spent, summed up in a word. -/
def spentTokens (p : Plan) (s : Spending) : Nat := Token.wordSum (p.tokens.map (·.spent s))

/-- The serves left, summed up in a word. -/
def unspentTokens (p : Plan) (s : Spending) : Nat := Token.wordSum (p.tokens.map (·.unspent s))

/-- The first token of a class. -/
def token? (p : Plan) (priorityClass : Int) : Option Token :=
  p.tokens.find? (·.priorityClass == priorityClass)

/-- The serves spent in a class. -/
def spentInClass (p : Plan) (priorityClass : Int) (s : Spending) : Nat :=
  ((p.token? priorityClass).map (·.spent s)).getD 0

/-- The first token with a serve left. -/
def unspentToken? (p : Plan) (s : Spending) : Option Token :=
  p.tokens.find? fun t => t.spent s < t.total

/-- The lowest class with a serve left. -/
def highestUnspentClass (p : Plan) (s : Spending) : Option Int :=
  (p.unspentToken? s).map (·.priorityClass)

/-- The milliseconds between two serves when the plan is delivered evenly. -/
def rate? (p : Plan) : Option Int :=
  if 0 < p.totalTokens && (p.totalTokens : Int) ≤ int64Max then
    some ((p.finish.millisSince p.start).tdiv p.totalTokens)
  else none

/-- The earliest instant of the next serve, if a serve is left. A call is taken to return only if
the instant lies in the years that time stamps can name. -/
def readyAt? (p : Plan) (s : Spending) : Option Instant := do
  if p.unspentTokens s = 0 then none
  else
    let rate ← p.rate?
    if int64Max < (p.spentTokens s : Int) then none
    else
      let offset := (p.spentTokens s : Int) * rate
      if fitsInt64 offset then some (p.start.addMillis offset) else none

/-- Take a serve from the lowest class that has one left. -/
def spend (p : Plan) : StateM Spending (Option Int) := do
  match p.unspentToken? (← get) with
  | some t =>
    Spending.add t.counter 1
    return some t.priorityClass
  | none => return none

/-- Count a serve of a class without regard to its total; false when the plan lacks the class. -/
def recordSpent (p : Plan) (priorityClass : Int) : StateM Spending Bool := do
  match p.token? priorityClass with
  | some t =>
    t.countServe
    return true
  | none => return false

/-- A copy with counters of its own. -/
def clone (p : Plan) : StateM Spending Plan := do
  let tokens ← Token.ofBalances (p.balances (← get))
  return { p with tokens }

/-- A copy with counters of its own, which start at zero. -/
def withoutSpent (p : Plan) : StateM Spending Plan := do
  let tokens ← Token.ofBalances (p.tokens.map fun t => ⟨t.priorityClass, t.total, 0⟩)
  return { p with tokens }

/-- Tokens with the classes and totals of the given ones; classes that the plan has keep its
counters. -/
def continued (p : Plan) : List Token → StateM Spending (List Token)
  | [] => return []
  | t :: rest => do
    let next ← match p.token? t.priorityClass with
      | some current => pure (current.revised t.total)
      | none => Token.ofBalance ⟨t.priorityClass, t.total, 0⟩
    let others ← continued p rest
    return next :: others

/-- The revision `newer` of the plan: its window, classes and totals, with the counters of the plan
for the classes that both have. -/
def withScheduleOf (p newer : Plan) : StateM Spending Plan := do
  let tokens ← p.continued newer.tokens
  return { newer with tokens }

/-- The revision of the plan by a schedule. -/
def withUpdatedSchedule (p : Plan) (x : Schedule) : StateM Spending Plan := do
  p.withScheduleOf (← ofSchedule x)

/-- Tokens by class; of tokens of one class the last. -/
abbrev ByClass (α : Type) := Std.ExtTreeMap Int α

/-- Join a token to the carried ones: totals of a class are added in a word, and what the token had
spent is recorded in the carried counter. -/
def absorb (carried : ByClass Token) (t : Token) : StateM Spending (ByClass Token) := do
  match carried[t.priorityClass]? with
  | some c =>
    let spent := t.spent (← get)
    if 0 < spent then c.recordSpent spent
    return carried.insert t.priorityClass (c.revised (Token.wordAdd c.total t.total))
  | none => return carried.insert t.priorityClass t

/-- The plan with the tokens of the previous one carried on in it. The counters of the previous plan
stay in use. -/
def mergedWithPrevious (p previous : Plan) : StateM Spending Plan := do
  let carried : ByClass Token :=
    Std.ExtTreeMap.ofList (previous.tokens.map fun t => (t.priorityClass, t))
  let merged ← p.tokens.foldlM absorb carried
  return { p with tokens := merged.toList.map Prod.snd }

/-- The balances of `newer`, with the spend of `older` added class by class; classes of `older`
alone are kept. -/
def addedBalances (newer older : List Balance) : List Balance :=
  let primary : ByClass Balance :=
    Std.ExtTreeMap.ofList (newer.map fun b => (b.priorityClass, b))
  let merged := older.foldl (fun m b =>
    match m[b.priorityClass]? with
    | some a => m.insert b.priorityClass { a with spent := a.spent + b.spent }
    | none => m.insert b.priorityClass b) primary
  merged.toList.map Prod.snd

/-- Two copies of a plan added up: the window and the totals of the copy that was updated later, and
the spend of both. -/
def mergedSpentWith (p other : Plan) : StateM Spending Plan := do
  let (newer, older) := if p.updated < other.updated then (other, p) else (p, other)
  let s ← get
  let tokens ← Token.ofBalances (addedBalances (newer.balances s) (older.balances s))
  return { newer with tokens }

/-- The plans are equal as values. -/
def sameAs (p other : Plan) (s : Spending) : Bool :=
  p.id == other.id && p.start == other.start && p.finish == other.finish &&
    p.updated == other.updated && p.balances s == other.balances s

end Plan

end DealPacing
