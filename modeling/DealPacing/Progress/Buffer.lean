import DealPacing.Event

/-!
# The report buffer

Finished windows wait in a bounded buffer until they are uploaded. Any number of producers put
batches in and one consumer takes them out. Batches leave the buffer in the order they came; a full
buffer refuses further ones. Once the consumer is gone nothing is taken in, and once all producers
are gone the waiting batches can still be received.

## Main definitions

* `ReportBuffer`: the buffer
* `ReportBuffer.addProducer`, `ReportBuffer.dropProducer`, `ReportBuffer.dropConsumer`: its ends
* `ReportBuffer.push`: put a batch in
* `ReportBuffer.receive`, `ReportBuffer.drain`: take batches out
-/

namespace DealPacing

/-- A bounded buffer, the oldest batch first, with the number of its producers. -/
structure ReportBuffer (α : Type) where
  capacity : Nat
  waiting : List α
  producers : Nat
  hasConsumer : Bool

namespace ReportBuffer

variable {α : Type}

/-- An empty buffer with one producer; it has room for one batch at least. -/
def new (capacity : Nat) : ReportBuffer α := ⟨max capacity 1, [], 1, true⟩

/-- Some producer is left. -/
def hasProducer (b : ReportBuffer α) : Bool := 0 < b.producers

/-- Another producer comes. -/
def addProducer (b : ReportBuffer α) : ReportBuffer α := { b with producers := b.producers + 1 }

/-- A producer goes. -/
def dropProducer (b : ReportBuffer α) : ReportBuffer α := { b with producers := b.producers - 1 }

/-- The consumer goes. -/
def dropConsumer (b : ReportBuffer α) : ReportBuffer α := { b with hasConsumer := false }

/-- Put a batch in. -/
def push (b : ReportBuffer α) (x : α) : Except BufferError (ReportBuffer α) :=
  if !b.hasConsumer then .error .disconnected
  else if b.capacity ≤ b.waiting.length then .error .full
  else .ok { b with waiting := b.waiting ++ [x] }

/-- Put a batch in, or drop it when it is refused. -/
def accept (b : ReportBuffer α) (x : α) : ReportBuffer α × List Event :=
  match b.push x with
  | .ok b => (b, [])
  | .error e => (b, [.batchDropped e])

/-- Take the oldest batch out. -/
def receive (b : ReportBuffer α) : Except BufferError (α × ReportBuffer α) :=
  match b.waiting with
  | x :: rest => .ok (x, { b with waiting := rest })
  | [] => .error (if b.hasProducer then .empty else .disconnected)

/-- Take at most `limit` batches out. -/
def drain (b : ReportBuffer α) (limit : Nat) : List α × ReportBuffer α :=
  (b.waiting.take limit, { b with waiting := b.waiting.drop limit })

end ReportBuffer

end DealPacing
