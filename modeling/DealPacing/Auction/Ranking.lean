import DealPacing.Delivery.LineItem

/-!
# The ranking of line items

Line items that compete for an impression are ranked by the class they would spend next, then by
their relative priority, lower numbers first, then by price, the higher first. A line item without
one of these ranks behind those that have it. Prices are ranked by the total order of their bits, so
that every float has its place.

## Main definitions

* `floatRank`: the place of a float among all floats
* `compareLineItems`: the ranking
-/

namespace DealPacing

/-- The place of a float among all floats: negative ones first, the greater their magnitude the
earlier, negative zero before zero, and numbers that are none beyond the infinities. -/
def floatRank (x : Float) : Int :=
  let word := x.toBits.toNat
  if word < 1 <<< 63 then word else int64Max - word

/-- Compare optional values; nothing comes last. -/
def compareAbsentLast {α : Type} (compare : α → α → Ordering) : Option α → Option α → Ordering
  | some x, some y => compare x y
  | some _, none => .lt
  | none, some _ => .gt
  | none, none => .eq

/-- Compare two line items, the better one first. -/
def compareLineItems (s : Spending) (x y : LineItem) : Ordering :=
  (compareAbsentLast compare (x.highestUnspentClass s) (y.highestUnspentClass s)).then <|
  (compareAbsentLast compare x.record.relativePriority y.record.relativePriority).then <|
  compareAbsentLast (fun a b => compare (floatRank b) (floatRank a)) x.cpm y.cpm

/-- A line item ranks before another one or equal to it. -/
def ranksBefore (s : Spending) (x y : LineItem) : Bool := compareLineItems s x y != .gt

end DealPacing
