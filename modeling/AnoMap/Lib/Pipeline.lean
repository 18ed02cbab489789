import Mathlib.Data.List.Basic

/-!
# Two-stage pipelines

A task updates a store and may hand on a snapshot; a snapshot is applied to a model. What is under
way is a list of tasks and snapshots, the oldest first.

* `Pipeline.drain`: everything under way done in order.
* `drain_append`: later items wait for the earlier ones.
* `drain_update`: a task whose earlier items are all snapshots may be updated at once, its snapshot
  taking its place.
-/

set_option autoImplicit false

/-- How a task updates the store and a snapshot the model. -/
structure Pipeline (σ τ δ μ : Type) where
  update : σ → τ → σ × Option δ
  apply : μ → δ → μ

namespace Pipeline

/-- A task still to run, or a snapshot still to apply. -/
inductive Item (τ δ : Type) where
  | task (t : τ)
  | snap (x : δ)

variable {σ τ δ μ : Type} (P : Pipeline σ τ δ μ)

def applyHanded (m : μ) : Option δ → μ
  | some x => P.apply m x
  | none => m

def run (s : σ × μ) : Item τ δ → σ × μ
  | .task t => ((P.update s.1 t).1, P.applyHanded s.2 (P.update s.1 t).2)
  | .snap x => (s.1, P.apply s.2 x)

/-- Store and model when all is done. -/
def drain (s : σ × μ) (is : List (Item τ δ)) : σ × μ := is.foldl P.run s

@[simp] theorem drain_nil (s : σ × μ) : P.drain s [] = s := rfl

@[simp] theorem drain_cons (s : σ × μ) (i : Item τ δ) (is : List (Item τ δ)) :
    P.drain s (i :: is) = P.drain (P.run s i) is := rfl

theorem drain_append (s : σ × μ) (is js : List (Item τ δ)) :
    P.drain s (is ++ js) = P.drain (P.drain s is) js := List.foldl_append

/-- Snapshots leave the store as it is, and do the same to the model whatever the store is. -/
theorem drain_snaps (m : μ) {is : List (Item τ δ)} (h : ∀ t, .task t ∉ is) :
    ∃ m', ∀ s, P.drain (s, m) is = (s, m') := by
  induction is generalizing m with
  | nil => exact ⟨m, fun s => rfl⟩
  | cons i is ih =>
    have hrest : ∀ t, .task t ∉ is := fun t ht => h t (List.mem_cons_of_mem i ht)
    cases i with
    | task t => exact absurd List.mem_cons_self (h t)
    | snap x => exact ih (P.apply m x) hrest

/-- **Early updates.** A task whose earlier items are all snapshots may be updated at once. -/
theorem drain_update (s : σ) (m : μ) {pre : List (Item τ δ)} (t : τ) (post : List (Item τ δ))
    (h : ∀ t, .task t ∉ pre) :
    P.drain ((P.update s t).1, m) (pre ++ ((P.update s t).2.map .snap).toList ++ post) =
      P.drain (s, m) (pre ++ .task t :: post) := by
  obtain ⟨m', hm⟩ := P.drain_snaps m h
  rw [drain_append, drain_append, drain_append, hm, hm, drain_cons]
  unfold run
  dsimp only
  cases (P.update s t).2 <;> rfl

end Pipeline
