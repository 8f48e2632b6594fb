/-!
# Instants

An instant is a second of the epoch and a number of nanoseconds. A leap second is the nanoseconds
from one to two thousand million of the second before it, so that instants are ordered by second
first and nanoseconds second.

## Main definitions

* `Instant`: instants, with their order
* `Instant.millis`, `Instant.ofMillis`: instants cut to milliseconds
* `Instant.nanosSince`, `Instant.millisSince`: the time between two instants
* `Instant.addMillis`: an instant some milliseconds later
-/

namespace DealPacing

/-- A second counted from the epoch, and nanoseconds within it; from one thousand million on the
instant lies in the leap second that follows the second. -/
structure Instant where
  second : Int
  nano : Nat
  nano_lt : nano < 2000000000
deriving DecidableEq, Repr

namespace Instant

/-- The rank of an instant in time. -/
def rank (t : Instant) : Int := t.second * 2000000000 + t.nano

instance : LE Instant := ⟨fun a b => a.rank ≤ b.rank⟩
instance : LT Instant := ⟨fun a b => a.rank < b.rank⟩
instance (a b : Instant) : Decidable (a ≤ b) := inferInstanceAs (Decidable (a.rank ≤ b.rank))
instance (a b : Instant) : Decidable (a < b) := inferInstanceAs (Decidable (a.rank < b.rank))

theorem le_iff {a b : Instant} : a ≤ b ↔ a.rank ≤ b.rank := Iff.rfl

theorem lt_iff {a b : Instant} : a < b ↔ a.rank < b.rank := Iff.rfl

theorem rank_injective {a b : Instant} (h : a.rank = b.rank) : a = b := by
  obtain ⟨s, n, hn⟩ := a
  obtain ⟨s', n', hn'⟩ := b
  simp only [rank] at h
  simp only [mk.injEq]
  omega

/-- The epoch. -/
def epoch : Instant := ⟨0, 0, by decide⟩

instance : Inhabited Instant := ⟨epoch⟩

/-- The milliseconds from the epoch to the instant, rounded down. -/
def millis (t : Instant) : Int := t.second * 1000 + (t.nano / 1000000 : Nat)

/-- The instant a number of milliseconds after the epoch. -/
def ofMillis (n : Int) : Instant :=
  ⟨n / 1000, (n % 1000).toNat * 1000000, by omega⟩

/-- The time from `b` to `a` in nanoseconds. Seconds of the day are compared first; a leap second
counts when the day goes on beyond it. -/
def nanosSince (a b : Instant) : Int :=
  let dayOf (t : Instant) := t.second / 86400
  let clock (t : Instant) := t.second % 86400
  let leap : Int :=
    if clock b < clock a && 1000000000 ≤ b.nano then 1
    else if clock a < clock b && 1000000000 ≤ a.nano then -1
    else 0
  ((dayOf a - dayOf b) * 86400 + (clock a - clock b) + leap) * 1000000000 +
    ((a.nano : Int) - b.nano)

/-- The time from `b` to `a` in milliseconds, rounded toward zero. -/
def millisSince (a b : Instant) : Int := (a.nanosSince b).tdiv 1000000

/-- The instant of a second and a possibly excessive or negative number of nanoseconds. -/
def normalized (second nano : Int) : Instant :=
  ⟨second + nano / 1000000000, (nano % 1000000000).toNat, by omega⟩

/-- The instant a number of milliseconds after `t`. An instant inside a leap second leaves it when
the sum lies in another second. The sum has no bounds; a call whose sum leaves the years that time
stamps can name does not return. -/
def addMillis (t : Instant) (n : Int) : Instant :=
  let seconds := n.tdiv 1000
  let nanos := n.tmod 1000 * 1000000
  if 1000000000 ≤ t.nano then
    if 0 < seconds || (0 < nanos && 2000000000 ≤ t.nano + nanos) then
      normalized (t.second + seconds) (t.nano - 1000000000 + nanos)
    else if seconds < 0 then
      normalized (t.second + 1 + seconds) (t.nano - 1000000000 + nanos)
    else
      let nano := t.nano + nanos
      ⟨t.second, (min nano 1999999999).toNat, by omega⟩
  else normalized (t.second + seconds) (t.nano + nanos)

end Instant

end DealPacing
