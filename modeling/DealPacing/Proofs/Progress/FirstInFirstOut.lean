import DealPacing.Progress.Buffer
import Mathlib.Data.List.Infix

/-!
# The buffer hands on what it takes in

The two ends of a report buffer are used in any order: producers come, go and put batches in, the
consumer takes them out one by one or several at once. What comes out is what was taken in, in the
same order, as long as the consumer is there; what is refused leaves no trace. Once the last
producer is gone the consumer gets all the batches that wait before it is told so.

A history lists calls in the order in which they take effect. A call that waits for a batch stands
in it where it is answered, after what the producers did meanwhile. Draining is receiving again and
again, so where producers go on while the consumer drains the history has the single calls.

## Main definitions

* `ReportBuffer.Call`, `ReportBuffer.Answer`: what is asked of the two ends, and the answers
* `ReportBuffer.run`: the history of a list of calls
* `ReportBuffer.taken`, `ReportBuffer.received`: the batches that went in and came out
* `ReportBuffer.receiveUpTo`: receive until a number of batches is there or none waits
* `ReportBuffer.FirstInFirstOut`: what the buffer guarantees after a history

## Main results

* `ReportBuffer.answers_call`: what a call can do
* `ReportBuffer.waiting_append_taken`: what went in came out or waits, in the same order
* `ReportBuffer.drain_eq_receiveUpTo`: draining is receiving again and again
* `ReportBuffer.answers_receive_of_no_producer`: the batches that wait come before the disconnection
* `ReportBuffer.first_in_first_out`: the guarantee holds after every history
-/

namespace DealPacing

namespace ReportBuffer

variable {α : Type}

/-! ## Calls and their answers -/

/-- What is asked of the ends of a buffer. Receiving waits for a batch if it has a timeout. -/
inductive Call (α : Type) where
  | push (x : α)
  | accept (x : α)
  | addProducer
  | dropProducer
  | receive (timeout : Option Nat)
  | drain (limit : Nat)
  | dropConsumer

/-- What is answered. -/
inductive Answer (α : Type) where
  /-- The end that was asked is gone. -/
  | gone
  | done
  | pushed (refused : Option BufferError)
  | accepted (events : List Event)
  | received (batch : Except BufferError α)
  | drained (batches : List α)

/-- The end that a call is made on is there. -/
def hasEnd (b : ReportBuffer α) : Call α → Bool
  | .push _ | .accept _ | .addProducer | .dropProducer => b.hasProducer
  | .receive _ | .drain _ | .dropConsumer => b.hasConsumer

/-- Answer a call. -/
def call (b : ReportBuffer α) (c : Call α) : Answer α × ReportBuffer α :=
  if !b.hasEnd c then (.gone, b)
  else
    match c with
    | .push x =>
      match b.push x with
      | .ok b' => (.pushed none, b')
      | .error e => (.pushed (some e), b)
    | .accept x => (.accepted (b.accept x).2, (b.accept x).1)
    | .addProducer => (.done, b.addProducer)
    | .dropProducer => (.done, b.dropProducer)
    | .receive _ =>
      match b.receive with
      | .ok (x, b') => (.received (.ok x), b')
      | .error e => (.received (.error e), b)
    | .drain limit => (.drained (b.drain limit).1, (b.drain limit).2)
    | .dropConsumer => (.done, b.dropConsumer)

/-- Answer calls one after the other. -/
def run (b : ReportBuffer α) : List (Call α) → List (Call α × Answer α) × ReportBuffer α
  | [] => ([], b)
  | c :: calls =>
    let (answer, b') := b.call c
    let (history, b'') := b'.run calls
    ((c, answer) :: history, b'')

/-- The batch that a call put in. -/
def takenBy : Call α × Answer α → List α
  | (.push x, .pushed none) => [x]
  | (.accept x, .accepted []) => [x]
  | _ => []

/-- The batches that an answer hands out. -/
def receivedBy : Answer α → List α
  | .received (.ok x) => [x]
  | .drained xs => xs
  | _ => []

/-- The batches that were put in, in order. -/
def taken (history : List (Call α × Answer α)) : List α := history.flatMap takenBy

/-- The batches that were handed out, in order. -/
def received (history : List (Call α × Answer α)) : List α :=
  history.flatMap fun entry => receivedBy entry.2

/-! ## What a call does -/

section Calls

variable {b b' : ReportBuffer α} {c : Call α} {answer : Answer α}

/-- The buffer refuses batches, with an error that says why. -/
def Refuses (b : ReportBuffer α) (e : BufferError) : Prop :=
  e = .disconnected ∧ b.hasConsumer = false ∨
    e = .full ∧ b.hasConsumer = true ∧ b.capacity ≤ b.waiting.length

theorem push_cases (b : ReportBuffer α) (x : α) :
    (b.hasConsumer = true ∧ b.waiting.length < b.capacity ∧
      b.push x = .ok { b with waiting := b.waiting ++ [x] }) ∨
        ∃ e, b.Refuses e ∧ b.push x = .error e := by
  unfold push
  cases hconsumer : b.hasConsumer with
  | false => exact .inr ⟨.disconnected, .inl ⟨rfl, hconsumer⟩, rfl⟩
  | true =>
    by_cases hfull : b.capacity ≤ b.waiting.length
    · exact .inr ⟨.full, .inr ⟨rfl, hconsumer, hfull⟩, by simp [hfull]⟩
    · exact .inl ⟨rfl, Nat.lt_of_not_le hfull, by simp [hfull]⟩

/-- What a call can do. -/
inductive Answers (b : ReportBuffer α) : Call α → Answer α → ReportBuffer α → Prop where
  | gone (c : Call α) (h : b.hasEnd c = false) : Answers b c .gone b
  | pushed (x : α) (hconsumer : b.hasConsumer = true) (hroom : b.waiting.length < b.capacity) :
      Answers b (.push x) (.pushed none) { b with waiting := b.waiting ++ [x] }
  | pushRefused (x : α) {e : BufferError} (h : b.Refuses e) :
      Answers b (.push x) (.pushed (some e)) b
  | accepted (x : α) (hconsumer : b.hasConsumer = true) (hroom : b.waiting.length < b.capacity) :
      Answers b (.accept x) (.accepted []) { b with waiting := b.waiting ++ [x] }
  | acceptRefused (x : α) {e : BufferError} (h : b.Refuses e) :
      Answers b (.accept x) (.accepted [.batchDropped e]) b
  | addProducer : Answers b .addProducer .done b.addProducer
  | dropProducer : Answers b .dropProducer .done b.dropProducer
  | received (timeout : Option Nat) {x : α} {rest : List α} (h : b.waiting = x :: rest) :
      Answers b (.receive timeout) (.received (.ok x)) { b with waiting := rest }
  | nothingReceived (timeout : Option Nat) (h : b.waiting = []) :
      Answers b (.receive timeout)
        (.received (.error (if b.hasProducer then .empty else .disconnected))) b
  | drained (limit : Nat) :
      Answers b (.drain limit) (.drained (b.waiting.take limit))
        { b with waiting := b.waiting.drop limit }
  | dropConsumer : Answers b .dropConsumer .done b.dropConsumer

/-- What a call can do is all that it does. -/
theorem answers_call (b : ReportBuffer α) (c : Call α) :
    b.Answers c (b.call c).1 (b.call c).2 := by
  unfold call
  cases hend : b.hasEnd c with
  | false => exact .gone c hend
  | true =>
    cases c with
    | push x =>
      rcases b.push_cases x with ⟨hconsumer, hroom, hpush⟩ | ⟨e, hrefuses, hpush⟩
      · simpa [hpush] using Answers.pushed x hconsumer hroom
      · simpa [hpush] using Answers.pushRefused x hrefuses
    | accept x =>
      unfold accept
      rcases b.push_cases x with ⟨hconsumer, hroom, hpush⟩ | ⟨e, hrefuses, hpush⟩
      · simpa [hpush] using Answers.accepted x hconsumer hroom
      · simpa [hpush] using Answers.acceptRefused x hrefuses
    | receive timeout =>
      unfold receive
      cases hwaiting : b.waiting with
      | nil => exact .nothingReceived timeout hwaiting
      | cons x rest => exact .received timeout hwaiting
    | drain limit => exact .drained limit
    | addProducer => exact .addProducer
    | dropProducer => exact .dropProducer
    | dropConsumer => exact .dropConsumer

/-- The two ways to put a batch in. -/
theorem call_push_cases {b : ReportBuffer α} (hproducer : b.hasProducer = true) (x : α) :
    (b.hasConsumer = true ∧ b.waiting.length < b.capacity ∧
      b.call (.push x) = (.pushed none, { b with waiting := b.waiting ++ [x] }) ∧
      b.call (.accept x) = (.accepted [], { b with waiting := b.waiting ++ [x] })) ∨
    ∃ e, b.Refuses e ∧ b.call (.push x) = (.pushed (some e), b) ∧
      b.call (.accept x) = (.accepted [.batchDropped e], b) := by
  rcases b.push_cases x with ⟨hconsumer, hroom, hpush⟩ | ⟨e, hrefuses, hpush⟩
  · exact .inl ⟨hconsumer, hroom, by simp [call, hasEnd, hproducer, hpush],
      by simp [call, hasEnd, hproducer, accept, hpush]⟩
  · exact .inr ⟨e, hrefuses, by simp [call, hasEnd, hproducer, hpush],
      by simp [call, hasEnd, hproducer, accept, hpush]⟩

/-- A call puts batches in at one end and takes them out at the other. -/
theorem Answers.waiting_append (h : b.Answers c answer b') :
    b.waiting ++ takenBy (c, answer) = receivedBy answer ++ b'.waiting := by
  cases h with
  | gone => cases c <;> exact List.append_nil _
  | pushed | accepted => rfl
  | received timeout hwaiting => simp [takenBy, receivedBy, hwaiting]
  | drained limit => simp [takenBy, receivedBy]
  | _ => exact List.append_nil _

/-- A buffer that is not overfull does not become so. -/
theorem Answers.length_le (h : b.Answers c answer b') (hle : b.waiting.length ≤ b.capacity) :
    b'.capacity = b.capacity ∧ b'.waiting.length ≤ b'.capacity := by
  cases h with
  | pushed x hconsumer hroom | accepted x hconsumer hroom =>
    exact ⟨rfl, by simpa [Nat.succ_le_iff] using hroom⟩
  | received timeout hwaiting =>
    rw [hwaiting, List.length_cons] at hle
    exact ⟨rfl, Nat.le_of_succ_le hle⟩
  | drained limit => exact ⟨rfl, (List.drop_sublist ..).length_le.trans hle⟩
  | _ => exact ⟨rfl, hle⟩

end Calls

/-! ## Histories -/

/-- **What went in came out or waits**, in the same order, behind what waited in the beginning. -/
theorem waiting_append_taken (b : ReportBuffer α) (calls : List (Call α)) :
    b.waiting ++ taken (b.run calls).1 = received (b.run calls).1 ++ (b.run calls).2.waiting := by
  induction calls generalizing b with
  | nil => simp [run, taken, received]
  | cons c calls ih =>
    have hcall := (b.answers_call c).waiting_append
    calc b.waiting ++ taken (b.run (c :: calls)).1
        = b.waiting ++ takenBy (c, (b.call c).1) ++ taken ((b.call c).2.run calls).1 := by
          simp [run, taken]
      _ = receivedBy (b.call c).1 ++
            ((b.call c).2.waiting ++ taken ((b.call c).2.run calls).1) := by
          rw [hcall, List.append_assoc]
      _ = received (b.run (c :: calls)).1 ++ (b.run (c :: calls)).2.waiting := by
          rw [ih]
          simp [run, received]

theorem length_le_run {b : ReportBuffer α} (hle : b.waiting.length ≤ b.capacity)
    (calls : List (Call α)) :
    (b.run calls).2.capacity = b.capacity ∧
      (b.run calls).2.waiting.length ≤ (b.run calls).2.capacity := by
  induction calls generalizing b with
  | nil => exact ⟨rfl, hle⟩
  | cons c calls ih =>
    obtain ⟨hcapacity, hle'⟩ := (b.answers_call c).length_le hle
    obtain ⟨hcapacity', hrun⟩ := ih hle'
    exact ⟨hcapacity'.trans hcapacity, hrun⟩

/-! ## Draining -/

/-- Receive batches until there are `limit` of them or none can be received. -/
def receiveUpTo (b : ReportBuffer α) : Nat → List α × ReportBuffer α
  | 0 => ([], b)
  | limit + 1 =>
    match b.receive with
    | .error _ => ([], b)
    | .ok (x, b') =>
      let (xs, b'') := b'.receiveUpTo limit
      (x :: xs, b'')

/-- Draining is receiving again and again. -/
theorem drain_eq_receiveUpTo (b : ReportBuffer α) (limit : Nat) :
    b.drain limit = b.receiveUpTo limit := by
  induction limit generalizing b with
  | zero => rfl
  | succ limit ih =>
    obtain ⟨capacity, waiting, producers, hasConsumer⟩ := b
    cases waiting with
    | nil => rfl
    | cons x rest => simp [receiveUpTo, receive, ← ih, drain]

/-! ## Disconnection -/

/-- Only an empty buffer without producers is disconnected for the consumer. -/
theorem eq_nil_of_disconnected {b : ReportBuffer α} {timeout : Option Nat}
    (h : (b.call (.receive timeout)).1 = .received (.error .disconnected)) :
    b.waiting = [] ∧ b.producers = 0 := by
  have hanswers := b.answers_call (.receive timeout)
  rw [h] at hanswers
  generalize hanswer : Answer.received (.error .disconnected) = answer,
    (b.call (.receive timeout)).2 = b' at hanswers
  cases hanswers with
  | nothingReceived _ hwaiting =>
    refine ⟨hwaiting, ?_⟩
    by_contra hproducers
    simp [hasProducer, Nat.pos_of_ne_zero hproducers] at hanswer
  | _ => cases hanswer

/-- Without producers the batches that wait are received, and the disconnection after them. -/
theorem answers_receive_of_no_producer {b : ReportBuffer α} (hproducers : b.producers = 0)
    (hconsumer : b.hasConsumer = true) {timeouts : List (Option Nat)}
    (hlength : timeouts.length = b.waiting.length + 1) :
    (b.run (timeouts.map .receive)).1.map (·.2) =
      b.waiting.map (.received <| .ok ·) ++ [.received (.error .disconnected)] := by
  obtain ⟨capacity, waiting, producers, hasConsumer⟩ := b
  subst hproducers hconsumer
  induction waiting generalizing timeouts with
  | nil =>
    obtain ⟨timeout, rfl⟩ := List.length_eq_one_iff.mp hlength
    rfl
  | cons x rest ih =>
    obtain ⟨timeout, timeouts, rfl⟩ := List.exists_cons_of_length_eq_add_one hlength
    exact congrArg (_ :: ·) (ih (Nat.succ.inj hlength))

/-! ## The guarantee -/

/-- What the buffer guarantees after a history. -/
structure FirstInFirstOut (capacity : Nat) (history : List (Call α × Answer α))
    (b : ReportBuffer α) : Prop where
  received_prefix : received history <+: taken history
  /-- While the consumer is there no batch is lost and none is repeated. -/
  received_append : b.hasConsumer = true → received history ++ b.waiting = taken history
  length_le : b.waiting.length ≤ max 1 capacity
  /-- Both ways to put a batch in take it, or both refuse it for the same reason, and then the
  buffer stays as it is. -/
  taken_or_refused : ∀ x, b.hasProducer = true →
    (b.hasConsumer = true ∧ b.waiting.length < max 1 capacity ∧
      b.call (.push x) = (.pushed none, { b with waiting := b.waiting ++ [x] }) ∧
      b.call (.accept x) = (.accepted [], { b with waiting := b.waiting ++ [x] })) ∨
    ∃ e, (e = .disconnected ∧ b.hasConsumer = false ∨
        e = .full ∧ b.hasConsumer = true ∧ b.waiting.length = max 1 capacity) ∧
      b.call (.push x) = (.pushed (some e), b) ∧
      b.call (.accept x) = (.accepted [.batchDropped e], b)
  drain_eq : ∀ limit, b.drain limit = b.receiveUpTo limit
  /-- Nothing is outstanding when the consumer is told that the producers are gone. -/
  received_of_disconnected : ∀ timeout,
    (b.call (.receive timeout)).1 = .received (.error .disconnected) →
      b.producers = 0 ∧ received history = taken history
  /-- Without producers the consumer gets everything that waits, and is told so after that. -/
  received_rest : b.producers = 0 → b.hasConsumer = true →
    ∀ timeouts : List (Option Nat), timeouts.length = b.waiting.length + 1 →
      (b.run (timeouts.map .receive)).1.map (·.2) =
        b.waiting.map (.received <| .ok ·) ++ [.received (.error .disconnected)]

/-- **The buffer is first in, first out**, for every capacity and every history: of what the
producers put in the consumer has received the first batches, in the same order, and the others
wait, `max 1 capacity` at most. What is refused changes nothing, draining is receiving again and
again, and the last producer is not reported gone before everything is received. -/
theorem first_in_first_out (capacity : Nat) (calls : List (Call α)) :
    FirstInFirstOut capacity ((new capacity).run calls).1 ((new capacity).run calls).2 := by
  generalize hrun : (new capacity).run calls = out
  obtain ⟨history, b⟩ := out
  have hall : received history ++ b.waiting = taken history := by
    have h := waiting_append_taken (new capacity) calls
    rw [hrun] at h
    exact h.symm
  obtain ⟨hcapacity, hle⟩ :
      b.capacity = max 1 capacity ∧ b.waiting.length ≤ b.capacity := by
    have hempty : (new capacity : ReportBuffer α).waiting.length ≤ max capacity 1 := Nat.zero_le _
    have h := length_le_run hempty calls
    rw [hrun] at h
    exact ⟨h.1.trans (max_comm ..), h.2⟩
  exact {
    received_prefix := ⟨b.waiting, hall⟩
    received_append := fun _ => hall
    length_le := hcapacity ▸ hle
    taken_or_refused := by
      intro x hproducer
      rcases call_push_cases hproducer x with ⟨hconsumer, hroom, hcalls⟩ | ⟨e, hrefuses, hcalls⟩
      · exact .inl ⟨hconsumer, hcapacity ▸ hroom, hcalls⟩
      · refine .inr ⟨e, hrefuses.imp_right ?_, hcalls⟩
        rintro ⟨he, hconsumer, hfull⟩
        exact ⟨he, hconsumer, hcapacity ▸ le_antisymm hle hfull⟩
    drain_eq := b.drain_eq_receiveUpTo
    received_of_disconnected := by
      intro timeout h
      obtain ⟨hwaiting, hproducers⟩ := eq_nil_of_disconnected h
      rw [hwaiting, List.append_nil] at hall
      exact ⟨hproducers, hall⟩
    received_rest := fun hproducers hconsumer _ hlength =>
      answers_receive_of_no_producer hproducers hconsumer hlength }

/-- A buffer of capacity zero holds one batch, also after its producers are gone. -/
example : ((new 0).run [.push 1, .addProducer, .push 2, .dropProducer, .dropProducer,
    .receive none, .receive (some 5)]).1.map (·.2) =
      [.pushed none, .done, .pushed (some .full), .done, .done, .received (.ok 1),
        .received (.error .disconnected)] := rfl

end ReportBuffer

end DealPacing
