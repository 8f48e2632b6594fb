import Mathlib.Data.List.Infix
import Mathlib.Data.List.Induction
import Mathlib.Data.List.Nodup

/-!
# Loops over lists

A loop that threads a state keeps every invariant that one round keeps. The invariant may speak of
the elements that are done.

## Main results

* `run_foldlM_of_prefix`: an invariant of the elements done, the value and the state
* `run_foldlM_of_mem`: an invariant of the value and the state
* `run_foldlM_eq_self`: a loop whose rounds change nothing
* `foldl_of_prefix`: an invariant of the elements done and the value of a loop without state
* `exists_round_of_mem`, `run_foldlM_of_not_mem`: a loop whose rounds write under different keys
-/

namespace DealPacing

variable {α β σ : Type} {f : β → α → StateM σ β}

/-- One computation after another. -/
theorem run_bind_eq {γ δ : Type} (m : StateM σ γ) (g : γ → StateM σ δ) (s : σ) :
    (m >>= g).run s = (g (m.run s).1).run (m.run s).2 := rfl

theorem run_foldlM_concat (l : List α) (a : α) (b : β) (s : σ) :
    ((l ++ [a]).foldlM f b).run s =
      (f ((l.foldlM f b).run s).1 a).run ((l.foldlM f b).run s).2 := by
  rw [List.foldlM_append, run_bind_eq, List.foldlM_cons, run_bind_eq]
  rfl

/-- A loop keeps an invariant that speaks of the elements that are done. -/
theorem run_foldlM_of_prefix {I : List α → β → σ → Prop} {l : List α} {b : β} {s : σ}
    (h : I [] b s) (hround : ∀ done a b s, done ++ [a] <+: l → I done b s →
      I (done ++ [a]) ((f b a).run s).1 ((f b a).run s).2) :
    I l ((l.foldlM f b).run s).1 ((l.foldlM f b).run s).2 := by
  induction l using List.reverseRecOn with
  | nil => exact h
  | append_singleton l a ih =>
    rw [run_foldlM_concat]
    refine hround l a _ _ List.prefix_rfl (ih fun done c b s hdone => ?_)
    exact hround done c b s (hdone.trans (List.prefix_append l [a]))

theorem not_mem_of_prefix_concat {done l : List α} {a : α} (hd : l.Nodup)
    (h : done ++ [a] <+: l) : a ∉ done := by
  have hd' := hd.sublist h.sublist
  rw [List.nodup_append] at hd'
  exact fun ha => hd'.2.2 a ha a (by simp) rfl

/-- Among the elements done there is one more. -/
theorem exists_mem_concat {p : α → Prop} {l : List α} {b : α} :
    (∃ a ∈ l ++ [b], p a) ↔ (∃ a ∈ l, p a) ∨ p b := by
  simp [or_and_right, exists_or]

/-- A loop keeps an invariant that each round keeps. -/
theorem run_foldlM_of_mem {I : β → σ → Prop} {l : List α} {b : β} {s : σ} (h : I b s)
    (hround : ∀ a ∈ l, ∀ b s, I b s → I ((f b a).run s).1 ((f b a).run s).2) :
    I ((l.foldlM f b).run s).1 ((l.foldlM f b).run s).2 := by
  refine run_foldlM_of_prefix (I := fun _ => I) h fun done a b s hdone => ?_
  exact hround a (hdone.subset (by simp)) b s

/-- A loop whose rounds change nothing changes nothing. -/
theorem run_foldlM_eq_self {l : List α} {b : β} {s : σ} (h : ∀ a ∈ l, (f b a).run s = (b, s)) :
    (l.foldlM f b).run s = (b, s) := by
  induction l with
  | nil => rfl
  | cons a l ih =>
    rw [List.foldlM_cons, run_bind_eq, h a List.mem_cons_self]
    exact ih fun c hc => h c (List.mem_cons_of_mem a hc)

/-- A loop without state keeps an invariant that speaks of the elements that are done. -/
theorem foldl_of_prefix {f : β → α → β} {I : List α → β → Prop} {l : List α} {b : β} (h : I [] b)
    (hround : ∀ done a b, done ++ [a] <+: l → I done b → I (done ++ [a]) (f b a)) :
    I l (l.foldl f b) := by
  induction l using List.reverseRecOn with
  | nil => exact h
  | append_singleton l a ih =>
    rw [List.foldl_append]
    refine hround l a _ List.prefix_rfl (ih fun done c b hdone => ?_)
    exact hround done c b (hdone.trans (List.prefix_append l [a]))

/-! ## Rounds that write under different keys -/

section Keys

variable {κ γ : Type} {key : α → κ} {g : β → κ → γ} {R : σ → σ → Prop}

/-- What stands under a key that no element has is not touched. -/
theorem run_foldlM_of_not_mem
    (hother : ∀ b a s k, k ≠ key a → g ((f b a).run s).1 k = g b k) {l : List α} {k : κ}
    (hk : k ∉ l.map key) (b : β) (s : σ) : g ((l.foldlM f b).run s).1 k = g b k := by
  refine run_foldlM_of_mem (I := fun b' _ => g b' k = g b k) rfl fun a ha b' s' h => ?_
  have hne : k ≠ key a := fun e => hk (e ▸ List.mem_map_of_mem ha)
  rw [hother b' a s' k hne, h]

/-- What stands under the key of an element in the end was written in the round of that element,
which found what stood there in the beginning. The relation `R` says how states may go on. -/
theorem exists_round_of_mem (hrefl : ∀ s, R s s) (htrans : ∀ {s t u}, R s t → R t u → R s u)
    (hround : ∀ b a s, R s ((f b a).run s).2)
    (hother : ∀ b a s k, k ≠ key a → g ((f b a).run s).1 k = g b k) {l : List α}
    (hd : (l.map key).Nodup) {a : α} (ha : a ∈ l) (b : β) (s : σ) :
    ∃ b₁ s₁, g b₁ (key a) = g b (key a) ∧ R s s₁ ∧
      R ((f b₁ a).run s₁).2 ((l.foldlM f b).run s).2 ∧
      g ((l.foldlM f b).run s).1 (key a) = g ((f b₁ a).run s₁).1 (key a) := by
  induction l generalizing b s with
  | nil => cases ha
  | cons c l ih =>
    rw [List.map_cons, List.nodup_cons] at hd
    rw [List.foldlM_cons, run_bind_eq]
    rcases List.mem_cons.mp ha with rfl | ha
    · -- the later rounds write under other keys
      refine ⟨b, s, rfl, hrefl s, ?_, run_foldlM_of_not_mem hother hd.1 _ _⟩
      exact run_foldlM_of_mem (I := fun _ s' => R ((f b a).run s).2 s') (hrefl _)
        fun a' _ b' s' h => htrans h (hround b' a' s')
    · have hne : key a ≠ key c := fun e => hd.1 (e ▸ List.mem_map_of_mem ha)
      obtain ⟨b₁, s₁, hlook, hbefore, hafter, hresult⟩ := ih hd.2 ha _ _
      exact ⟨b₁, s₁, hlook.trans (hother b c s _ hne), htrans (hround b c s) hbefore, hafter,
        hresult⟩

end Keys

end DealPacing
