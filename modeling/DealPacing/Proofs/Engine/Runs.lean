import DealPacing.Proofs.Progress.WindowSpend

/-!
# Runs of the engine

A run starts from a configuration and goes through moves of the engine, in any order and at any
times. A move has one effect: a rotation is the move that closes and hands over the open window,
followed by the move that cleans the overall progress.

## Main definitions

* `Engine.Move`, `Engine.move`: what can happen to the engine
* `Engine.run`: the engine that a run leads to

## Main results

* `Engine.rotate_eq_move`: rotations are moves
* `Engine.Sound.move`, `Engine.sound_run`: counters keep their owners along every run
-/

namespace DealPacing

namespace Owned

variable {r : Registry} {w : Window} {s : Spending} {label : Counter → Owner × Int}

/-- Copies may be dropped. -/
theorem of_sublist (h : Owned r w s label) {w' : Window}
    (hw : ∀ id, (w'.copies id).Sublist (w.copies id)) : Owned r w' s label where
  id_eq := h.id_eq
  items := h.items
  nodup := fun id => (h.nodup id).sublist ((hw id).map _)
  copies := fun hq => h.copies ((hw _).subset hq)

end Owned

namespace Window

theorem copies_forget (w : Window) (ids : List String) (id : String) :
    (w.forget ids).copies id = if id ∈ ids then [] else w.copies id := by
  unfold copies forget
  rw [IdMap.getElem?_foldl_erase]
  split <;> rfl

theorem copies_forgetAll (w : Window) (id : String) : w.forgetAll.copies id = [] := by
  simp [copies, forgetAll]

end Window

namespace Engine

/-- What can happen to the engine. -/
inductive Move where
  | update (records : List LineItemRecord) (plannerResponds : Bool) (now : Instant)
  | setPlannerResponds (plannerResponds : Bool)
  | advance (now : Instant)
  | removeLineItems (ids : Option (List String))
  | spend (id : String)
  | auction (log : AuctionLog) (accountId : String)
  | win (id : String)
  | trackPlans
  /-- The open window is closed, added to the overall progress and handed over, as in a rotation and
  when the engine shuts down. -/
  | handOver (now : Instant)
  /-- The overall progress is cleaned. -/
  | clean (now : Instant)
  | forgetProgress (ids : Option (List String))
  /-- The other end of the report buffer takes batches out, or goes. -/
  | replaceBuffer (buffer : ReportBuffer ReportBatch)

/-- The engine after a move. -/
def move (e : Engine) : Move → Engine
  | .update records plannerResponds now => (e.update records plannerResponds now).1
  | .setPlannerResponds plannerResponds => e.setPlannerResponds plannerResponds
  | .advance now => (e.advance now).1
  | .removeLineItems ids => (e.removeLineItems ids).1
  | .spend id => (e.spend id).1
  | .auction log accountId => e.recordAuction log accountId
  | .win id => e.recordWin id
  | .trackPlans => e.trackPlans
  | .handOver now => (e.handOver now).1
  | .clean now => { e with progress := e.progress.clean e.registry now }
  | .forgetProgress ids => e.forgetProgress ids
  | .replaceBuffer buffer => { e with buffer }

/-- The engine that a run leads to. -/
def run (c : Config) (start : Instant) (moves : List Move) : Engine :=
  moves.foldl move (Engine.start c start)

theorem run_concat (c : Config) (start : Instant) (moves : List Move) (m : Move) :
    run c start (moves ++ [m]) = (run c start moves).move m := by
  simp [run]

theorem rotate_eq_move (e : Engine) (now : Instant) :
    (e.rotate now).1 = (e.move (.handOver now)).move (.clean now) := rfl

variable {e : Engine}

theorem Sound.apply (h : e.Sound) (op : Op) : (e.apply op).Sound :=
  (Book.preserves_step (b := ⟨e, []⟩) h op).sound

/-- Counters keep their owners in every move. -/
theorem Sound.move (h : e.Sound) (m : Move) : (e.move m).Sound := by
  cases m with
  | update records plannerResponds now => exact h.apply (.update records plannerResponds now)
  | setPlannerResponds plannerResponds =>
    obtain ⟨label, h⟩ := h
    exact ⟨label, h.id_eq, h.items, h.nodup, h.copies⟩
  | advance now => exact h.apply (.advance now)
  | removeLineItems ids =>
    obtain ⟨label, h⟩ := h
    cases ids <;> exact ⟨label, h.eraseAll _⟩
  | spend id =>
    obtain ⟨label, h⟩ := h
    exact ⟨label, (h.spend id).owned⟩
  | auction log accountId => exact h.apply (.auction log accountId)
  | win id => exact h.apply (.win id)
  | trackPlans => exact h.apply .trackPlans
  | handOver now =>
    -- cleaning does not touch the open window
    exact h.apply (.rotate now)
  | clean now => exact h
  | forgetProgress ids =>
    obtain ⟨label, h⟩ := h
    refine ⟨label, h.of_sublist fun id => ?_⟩
    cases ids with
    | none =>
      show (e.progress.current.forgetAll.copies id).Sublist _
      rw [Window.copies_forgetAll]
      exact List.nil_sublist _
    | some ids =>
      show ((e.progress.current.forget ids).copies id).Sublist _
      rw [Window.copies_forget]
      split
      · exact List.nil_sublist _
      · exact .refl _
  | replaceBuffer buffer => exact h

theorem sound_run (c : Config) (start : Instant) (moves : List Move) :
    (run c start moves).Sound := by
  induction moves using List.reverseRecOn with
  | nil => exact sound_start c start
  | append_singleton moves m ih =>
    rw [run_concat]
    exact ih.move m

end Engine

end DealPacing
