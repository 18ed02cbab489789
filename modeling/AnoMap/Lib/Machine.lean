import Mathlib.Data.List.Induction

/-!
# Machines with outputs

A machine reads one input at a time, moves to a new state and emits a list of outputs. A run is
the list of its inputs.

* `final`: the state after a run; `trace`: every input with what it made the machine emit.
* `final_append`, `trace_append`: runs compose.
* `history`: the rule for an invariant that speaks of the inputs read so far; `invariant`: the
  rule for one that speaks of the state alone.
* `Along`: a condition on every input of a run and the state it is read in, which is one on its
  cuts (`along_iff`); `invariant_along`: the rule for a run that meets one; `along_congr`: two that
  agree where an invariant holds.
* `final_map`, `along_map`: a machine that carries more state runs as the one it extends.
* `final_runs`, `along_runs`: a machine each step of which is a run of another one.
* `outputs`: everything a run emits, which a fold collects (`foldl_collect_eq`); `along_leaves_iff`:
  what holds of every state reached and of everything emitted is a condition on the steps.
* `simulation`: the rule for a machine whose steps are seen as the steps of another one,
  `along_simulation` for conditions on its runs.
* `mem_trace_iff`: an entry of the trace is a cut of the run; `one_lt_countP_trace_iff`: two
  entries are two cuts.
-/

set_option autoImplicit false

namespace Machine

variable {σ ι ω : Type} (step : σ → ι → σ × List ω)

/-- The state after the inputs `is`. -/
def final (s : σ) (is : List ι) : σ := is.foldl (fun s i => (step s i).1) s

/-- Every input of the run with the outputs it caused. -/
def trace : σ → List ι → List (ι × List ω)
  | _, [] => []
  | s, i :: is => (i, (step s i).2) :: trace (step s i).1 is

@[simp] theorem final_nil (s : σ) : final step s [] = s := rfl

@[simp] theorem final_cons (s : σ) (i : ι) (is : List ι) :
    final step s (i :: is) = final step (step s i).1 is := rfl

theorem final_append (s : σ) (is js : List ι) :
    final step s (is ++ js) = final step (final step s is) js := by
  rw [final, List.foldl_append]; rfl

theorem final_concat (s : σ) (is : List ι) (i : ι) :
    final step s (is ++ [i]) = (step (final step s is) i).1 := final_append step s is [i]

@[simp] theorem trace_nil (s : σ) : trace step s [] = [] := rfl

@[simp] theorem trace_cons (s : σ) (i : ι) (is : List ι) :
    trace step s (i :: is) = (i, (step s i).2) :: trace step (step s i).1 is := rfl

theorem trace_append (s : σ) (is js : List ι) :
    trace step s (is ++ js) = trace step s is ++ trace step (final step s is) js := by
  induction is generalizing s with
  | nil => rfl
  | cons i is ih => simp only [List.cons_append, trace_cons, ih, final_cons]

theorem trace_concat (s : σ) (is : List ι) (i : ι) :
    trace step s (is ++ [i]) = trace step s is ++ [(i, (step (final step s is) i).2)] :=
  trace_append step s is [i]

/-- **Cut points.** An entry of the trace is a cut of the run at the input it belongs to. -/
theorem mem_trace_iff (s : σ) (is : List ι) (e : ι × List ω) :
    e ∈ trace step s is ↔ ∃ pre post, is = pre ++ e.1 :: post ∧
      e.2 = (step (final step s pre) e.1).2 := by
  induction is generalizing s with
  | nil => simp
  | cons i is ih =>
    rw [trace_cons, List.mem_cons, ih]
    constructor
    · rintro (rfl | ⟨pre, post, rfl, h⟩)
      · exact ⟨[], is, rfl, rfl⟩
      · exact ⟨i :: pre, post, rfl, h⟩
    · rintro ⟨pre, post, hp, h⟩
      cases pre with
      | nil =>
        obtain ⟨rfl, rfl⟩ := List.cons.inj hp
        exact Or.inl (Prod.ext rfl h)
      | cons j pre =>
        obtain ⟨rfl, rfl⟩ := List.cons.inj hp
        exact Or.inr ⟨pre, post, rfl, h⟩

theorem countP_trace_pos_iff (s : σ) (is : List ι) (p : ι × List ω → Bool) :
    0 < (trace step s is).countP p ↔ ∃ pre i post, is = pre ++ i :: post ∧
      p (i, (step (final step s pre) i).2) := by
  rw [List.countP_pos_iff]
  constructor
  · rintro ⟨e, he, hp⟩
    obtain ⟨pre, post, hcut, ho⟩ := (mem_trace_iff step s is e).mp he
    exact ⟨pre, e.1, post, hcut, ho ▸ hp⟩
  · rintro ⟨pre, i, post, hcut, hp⟩
    exact ⟨_, (mem_trace_iff step s is (i, _)).mpr ⟨pre, post, hcut, rfl⟩, hp⟩

/-- **Two entries.** A run has two entries satisfying `p` exactly when it has two cuts that do. -/
theorem one_lt_countP_trace_iff (s : σ) (is : List ι) (p : ι × List ω → Bool) :
    1 < (trace step s is).countP p ↔ ∃ pre i mid j post, is = pre ++ i :: (mid ++ j :: post) ∧
      p (i, (step (final step s pre) i).2) ∧
      p (j, (step (final step s (pre ++ i :: mid)) j).2) := by
  induction is generalizing s with
  | nil => simp
  | cons i is ih =>
    rw [trace_cons, List.countP_cons]
    constructor
    · intro h
      by_cases h₁ : 1 < (trace step (step s i).1 is).countP p
      · obtain ⟨pre, j, mid, k, post, rfl, hj, hk⟩ := (ih _).mp h₁
        exact ⟨i :: pre, j, mid, k, post, rfl, hj, hk⟩
      · have hi : p (i, (step s i).2) = true := by
          by_contra hi
          rw [if_neg hi] at h
          omega
        have h₂ : 0 < (trace step (step s i).1 is).countP p := by
          rw [if_pos hi] at h
          omega
        obtain ⟨mid, j, post, rfl, hj⟩ := (countP_trace_pos_iff step _ is p).mp h₂
        exact ⟨[], i, mid, j, post, rfl, hi, hj⟩
    · rintro ⟨pre, j, mid, k, post, hcut, hj, hk⟩
      cases pre with
      | nil =>
        obtain ⟨rfl, rfl⟩ := List.cons.inj hcut
        have := (countP_trace_pos_iff step (step s i).1 (mid ++ k :: post) p).mpr
          ⟨mid, k, post, rfl, hk⟩
        rw [final_nil] at hj
        rw [if_pos hj]
        omega
      | cons a pre =>
        obtain ⟨rfl, rfl⟩ := List.cons.inj hcut
        have := (ih (step s i).1).mpr ⟨pre, j, mid, k, post, rfl, hj, hk⟩
        omega

/-- **The history rule.** A relation between the inputs read and the state holds of every run when
it holds before the first input and one step keeps it. -/
theorem history {s : σ} (R : List ι → σ → Prop) (h₀ : R [] s)
    (hs : ∀ pre t i, R pre t → R (pre ++ [i]) (step t i).1) (is : List ι) :
    R is (final step s is) := by
  induction is using List.reverseRecOn with
  | nil => exact h₀
  | append_singleton is i ih => rw [final_concat]; exact hs is _ i ih

/-- **The invariant rule**, for a run whose inputs all satisfy `Q`. -/
theorem invariant {s : σ} (P : σ → Prop) (Q : ι → Prop) (h₀ : P s)
    (hs : ∀ t i, Q i → P t → P (step t i).1) (is : List ι) (hQ : ∀ i ∈ is, Q i) :
    P (final step s is) := by
  induction is generalizing s with
  | nil => exact h₀
  | cons i is ih =>
    exact ih (hs s i (hQ i List.mem_cons_self) h₀) fun j hj => hQ j (List.mem_cons_of_mem i hj)

/-- Every input of the run meets `Q` in the state it is read in. -/
def Along (Q : σ → ι → Prop) : σ → List ι → Prop
  | _, [] => True
  | s, i :: is => Q s i ∧ Along Q (step s i).1 is

instance decidableAlong (Q : σ → ι → Prop) [∀ s i, Decidable (Q s i)] :
    ∀ s is, Decidable (Along step Q s is)
  | _, [] => isTrue trivial
  | s, i :: is => @instDecidableAnd _ _ _ (decidableAlong Q (step s i).1 is)

theorem along_iff {Q : σ → ι → Prop} (s : σ) (is : List ι) :
    Along step Q s is ↔ ∀ pre i post, is = pre ++ i :: post → Q (final step s pre) i := by
  induction is generalizing s with
  | nil => simp [Along]
  | cons i is ih =>
    constructor
    · rintro ⟨hi, his⟩ pre j post hcut
      cases pre with
      | nil =>
        obtain ⟨rfl, -⟩ := List.cons.inj hcut
        exact hi
      | cons k pre =>
        obtain ⟨rfl, htail⟩ := List.cons.inj hcut
        exact (ih _).mp his pre j post htail
    · intro h
      exact ⟨h [] i is rfl, (ih _).mpr fun pre j post hcut => h (i :: pre) j post (by rw [hcut]; rfl)⟩

theorem along_concat {Q : σ → ι → Prop} (s : σ) (is : List ι) (i : ι) :
    Along step Q s (is ++ [i]) ↔ Along step Q s is ∧ Q (final step s is) i := by
  induction is generalizing s with
  | nil => exact ⟨fun h => ⟨trivial, h.1⟩, fun h => ⟨h.2, trivial⟩⟩
  | cons j is ih => exact (and_congr_right fun _ => ih _).trans and_assoc.symm

theorem along_append {Q : σ → ι → Prop} (s : σ) (is js : List ι) :
    Along step Q s (is ++ js) ↔ Along step Q s is ∧ Along step Q (final step s is) js := by
  induction is generalizing s with
  | nil => exact (and_iff_right trivial).symm
  | cons i is ih => exact (and_congr_right fun _ => ih _).trans and_assoc.symm

/-- **Two conditions** that agree while the second keeps an invariant agree on whole runs. -/
theorem along_congr {P : σ → Prop} {Q Q' : σ → ι → Prop}
    (hs : ∀ t i, P t → (Q t i ↔ Q' t i) ∧ (Q' t i → P (step t i).1)) {s : σ} (h₀ : P s)
    (is : List ι) : Along step Q s is ↔ Along step Q' s is := by
  induction is generalizing s with
  | nil => exact Iff.rfl
  | cons i is ih =>
    obtain ⟨hiff, hkeep⟩ := hs s i h₀
    exact (and_congr_left fun _ => hiff).trans (and_congr_right fun h => ih (hkeep h))

/-- **A machine that carries more state** moves as the one it extends. -/
theorem final_map {σ₁ ω₁ : Type} {step₁ : σ₁ → ι → σ₁ × List ω₁} (f : σ₁ → σ)
    (h : ∀ s i, f (step₁ s i).1 = (step (f s) i).1) (s : σ₁) (is : List ι) :
    f (final step₁ s is) = final step (f s) is := by
  induction is generalizing s with
  | nil => rfl
  | cons i is ih => rw [final_cons, final_cons, ih, h]

theorem along_map {σ₁ ω₁ : Type} {step₁ : σ₁ → ι → σ₁ × List ω₁} (f : σ₁ → σ)
    (h : ∀ s i, f (step₁ s i).1 = (step (f s) i).1) {Q : σ → ι → Prop} {s : σ₁} {is : List ι} :
    Along step₁ (fun s => Q (f s)) s is ↔ Along step Q (f s) is := by
  induction is generalizing s with
  | nil => exact Iff.rfl
  | cons i is ih => rw [Along, Along, ih, h]

/-- **The invariant rule along a run** that meets `Q`, for every state it reaches. -/
theorem invariant_along {s : σ} {P : σ → Prop} {Q : σ → ι → Prop} (h₀ : P s)
    (hs : ∀ t i, Q t i → P t → P (step t i).1) {is : List ι} (hQ : Along step Q s is) :
    ∀ pre, pre <+: is → P (final step s pre) := by
  induction is generalizing s with
  | nil =>
    intro pre hp
    rw [List.prefix_nil.mp hp]
    exact h₀
  | cons i is ih =>
    intro pre hp
    cases pre with
    | nil => exact h₀
    | cons j pre =>
      obtain ⟨rfl, hp'⟩ := List.cons_prefix_cons.mp hp
      exact ih (hs s j hQ.1 h₀) hQ.2 pre hp'

/-! ## What a run emits -/

/-- Everything the machine emits in a run. -/
def outputs (s : σ) (is : List ι) : List ω := (trace step s is).flatMap Prod.snd

@[simp] theorem outputs_nil (s : σ) : outputs step s [] = [] := rfl

@[simp] theorem outputs_cons (s : σ) (i : ι) (is : List ι) :
    outputs step s (i :: is) = (step s i).2 ++ outputs step (step s i).1 is := rfl

theorem outputs_append (s : σ) (is js : List ι) :
    outputs step s (is ++ js) = outputs step s is ++ outputs step (final step s is) js := by
  rw [outputs, trace_append, List.flatMap_append]
  rfl

theorem outputs_concat (s : σ) (is : List ι) (i : ι) :
    outputs step s (is ++ [i]) = outputs step s is ++ (step (final step s is) i).2 := by
  rw [outputs, trace_concat, List.flatMap_append, List.flatMap_singleton]
  rfl

/-- **A machine whose steps are runs** of another one: so are its runs, of what the steps ran. -/
theorem final_runs {σ₁ ι₁ ω₁ : Type} {step₁ : σ₁ → ι₁ → σ₁ × List ω₁} (f : σ₁ → σ)
    (g : σ₁ → ι₁ → List ι) (h : ∀ s i, f (step₁ s i).1 = final step (f s) (g s i)) (s : σ₁)
    (is : List ι₁) :
    f (final step₁ s is) = final step (f s) (outputs (fun s i => ((step₁ s i).1, g s i)) s is) := by
  induction is generalizing s with
  | nil => rfl
  | cons i is ih => rw [final_cons, ih, h, outputs_cons, final_append]

theorem along_runs {σ₁ ι₁ ω₁ : Type} {step₁ : σ₁ → ι₁ → σ₁ × List ω₁} (f : σ₁ → σ)
    (g : σ₁ → ι₁ → List ι) (h : ∀ s i, f (step₁ s i).1 = final step (f s) (g s i))
    {Q₁ : σ₁ → ι₁ → Prop} {Q : σ → ι → Prop} (hQ : ∀ s i, Q₁ s i ↔ Along step Q (f s) (g s i))
    (s : σ₁) (is : List ι₁) : Along step₁ Q₁ s is ↔
      Along step Q (f s) (outputs (fun s i => ((step₁ s i).1, g s i)) s is) := by
  induction is generalizing s with
  | nil => exact Iff.rfl
  | cons i is ih => rw [outputs_cons, along_append, Along, hQ, ih, h]

/-- The run as a fold that collects what is emitted. -/
theorem foldl_collect_eq (s : σ) (is : List ι) :
    is.foldl (fun acc i => ((step acc.1 i).1, acc.2 ++ (step acc.1 i).2)) (s, []) =
      (final step s is, outputs step s is) := by
  induction is using List.reverseRecOn with
  | nil => rfl
  | append_singleton is i ih =>
    rw [List.foldl_append, ih, final_concat, outputs_concat]
    rfl

/-- What every step leaves and emits, every run reaches and emits. -/
theorem along_leaves_iff {P : σ → Prop} {R : ω → Prop} {s : σ} (h₀ : P s) (is : List ι) :
    Along step (fun s i => P (step s i).1 ∧ ∀ o ∈ (step s i).2, R o) s is ↔
      (∀ pre, pre <+: is → P (final step s pre)) ∧ ∀ o ∈ outputs step s is, R o := by
  induction is using List.reverseRecOn with
  | nil => simp [Along, h₀]
  | append_singleton is i ih =>
    rw [along_concat, ih, ← final_concat, outputs_concat, List.forall_mem_append]
    simp only [List.prefix_concat_iff, or_imp, forall_and, forall_eq]
    tauto

/-- **The simulation rule.** When related states take related steps, and `g` sees of what one step
emits what the other emits, related states have related runs. -/
theorem simulation {σ₁ ι₁ ω₁ : Type} {step₁ : σ₁ → ι₁ → σ₁ × List ω₁} {R : σ₁ → σ → Prop}
    (f : ι₁ → ι) (g : ω₁ → Option ω)
    (h : ∀ s t i, R s t → R (step₁ s i).1 (step t (f i)).1 ∧
      (step₁ s i).2.filterMap g = (step t (f i)).2)
    {s : σ₁} {t : σ} (h₀ : R s t) (is : List ι₁) :
    R (final step₁ s is) (final step t (is.map f)) ∧
      (outputs step₁ s is).filterMap g = outputs step t (is.map f) := by
  induction is using List.reverseRecOn with
  | nil => exact ⟨h₀, rfl⟩
  | append_singleton is i ih =>
    obtain ⟨hR, ho⟩ := h _ _ i ih.1
    rw [List.map_append, List.map_singleton, final_concat, final_concat, outputs_concat,
      outputs_concat, List.filterMap_append, ih.2, ho]
    exact ⟨hR, rfl⟩

theorem along_simulation {σ₁ ι₁ ω₁ : Type} {step₁ : σ₁ → ι₁ → σ₁ × List ω₁} {R : σ₁ → σ → Prop}
    (f : ι₁ → ι) (h : ∀ s t i, R s t → R (step₁ s i).1 (step t (f i)).1) {Q₁ : σ₁ → ι₁ → Prop}
    {Q : σ → ι → Prop} (hQ : ∀ s t i, R s t → (Q₁ s i ↔ Q t (f i))) {s : σ₁} {t : σ} (h₀ : R s t)
    (is : List ι₁) : Along step₁ Q₁ s is ↔ Along step Q t (is.map f) := by
  induction is generalizing s t with
  | nil => exact Iff.rfl
  | cons i is ih => exact and_congr (hQ s t i h₀) (ih (h s t i h₀))

end Machine
