/-!
# Spend counters

Every token of a delivery plan counts its serves in a spend counter. A revision of a plan keeps the
counters of the plan it replaces, so a serve that is still taken from the old revision shows in the
new one; copies of a plan have counters of their own. Counters are named by numbers, and the counts
live in one store, which makes sharing explicit.

## Main definitions

* `Counter`, `Spending`: counters and the store of their counts
* `Spending.fresh`, `Spending.add`: open a counter, and add to one
* `Token`, `Balance`: the allotment of a priority class, with its counter or with its count
* `Token.wordAdd`, `Token.wordSum`: sums of counts in a 64-bit word
-/

namespace DealPacing

/-- The name of a spend counter. -/
structure Counter where
  index : Nat
deriving DecidableEq, Repr

/-- The count of every counter opened so far. -/
structure Spending where
  counts : Array Nat := #[]
deriving DecidableEq, Repr

namespace Spending

/-- The store without counters. -/
def empty : Spending := {}

instance : Inhabited Spending := ⟨empty⟩

/-- The count of a counter. -/
def get (s : Spending) (c : Counter) : Nat := s.counts.getD c.index 0

/-- Open a counter that starts at `n`. -/
def fresh (n : Nat) : StateM Spending Counter :=
  fun s => (⟨s.counts.size⟩, ⟨s.counts.push n⟩)

/-- Replace the count of a counter. -/
def put (c : Counter) (n : Nat) : StateM Spending Unit :=
  fun s => ((), ⟨s.counts.setIfInBounds c.index n⟩)

/-- Add to a counter. -/
def add (c : Counter) (n : Nat) : StateM Spending Unit :=
  fun s => put c (s.get c + n) s

end Spending

/-- The allotment of a priority class as a value: serves granted and serves spent. -/
structure Balance where
  priorityClass : Int
  total : Nat
  spent : Nat
deriving DecidableEq, Repr

/-- The serves left. -/
def Balance.unspent (b : Balance) : Nat := b.total - b.spent

/-- The allotment of a priority class within a delivery plan. -/
structure Token where
  priorityClass : Int
  total : Nat
  counter : Counter
deriving DecidableEq, Repr

namespace Token

/-- The number of counts that a 64-bit word can hold. -/
def wordSize : Nat := 18446744073709551616

/-- The sum of two counts in a 64-bit word; it starts over when the word is full. -/
def wordAdd (m n : Nat) : Nat := (m + n) % wordSize

/-- The sum of counts in a 64-bit word. -/
def wordSum (counts : List Nat) : Nat := counts.foldl wordAdd 0

/-- The serves spent. -/
def spent (t : Token) (s : Spending) : Nat := s.get t.counter

/-- The serves left; none when more were spent than granted. -/
def unspent (t : Token) (s : Spending) : Nat := t.total - t.spent s

/-- The state of the token as a value. -/
def balance (t : Token) (s : Spending) : Balance := ⟨t.priorityClass, t.total, t.spent s⟩

/-- A token with a counter of its own. -/
def ofBalance (b : Balance) : StateM Spending Token := do
  let counter ← Spending.fresh b.spent
  return ⟨b.priorityClass, b.total, counter⟩

/-- Tokens with counters of their own. -/
def ofBalances : List Balance → StateM Spending (List Token)
  | [] => return []
  | b :: rest => do
    let t ← ofBalance b
    let ts ← ofBalances rest
    return t :: ts

/-- The token with another total and the same counter. -/
def revised (t : Token) (total : Nat) : Token := { t with total }

/-- A copy with a counter of its own. -/
def clone (t : Token) : StateM Spending Token := do ofBalance (t.balance (← get))

/-- A copy with a counter of its own, which starts at zero. -/
def withoutSpent (t : Token) : StateM Spending Token := ofBalance ⟨t.priorityClass, t.total, 0⟩

/-- Spend one serve if one is left. -/
def trySpend (t : Token) : StateM Spending Bool := do
  if t.spent (← get) < t.total then
    Spending.add t.counter 1
    return true
  else return false

/-- Count serves without regard to the total; counts are 64-bit words. -/
def recordSpent (t : Token) (count : Nat) : StateM Spending Unit := do
  Spending.put t.counter (wordAdd (t.spent (← get)) count)

/-- Count one serve without regard to the total. Counted one by one, serves do not fill a word, so
the count is not reduced. -/
def countServe (t : Token) : StateM Spending Unit := Spending.add t.counter 1

/-- The tokens count into the same counter. -/
def sharesSpendingWith (a b : Token) : Bool := a.counter == b.counter

/-- The tokens have the same class, total and count. -/
def sameBalance (a b : Token) (s : Spending) : Bool := a.balance s == b.balance s

end Token

end DealPacing
