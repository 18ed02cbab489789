import AnoMap.Lib.Machine
import Mathlib.Data.List.GetD
import Mathlib.Data.List.Infix

/-!
# Views of a list model

A list model shows rows of cells, one cell for each role, and announces what it changes: rows
inserted, rows removed, cells changed in place, everything reset. A view keeps a copy of the cells
and goes by the announcements alone.

* `Emission`: an announcement with the rows that are read when it is made.
* `follow`, `replay`: what a view does on announcements; `none` where one does not fit its rows.
* `Announces`: how a model may come from some rows to others and what it announces on the way.
* `Announces.replay_eq`: a view of the old rows can follow, and becomes one of the new rows.
* `Announces.run`: a machine whose steps announce what they change announces it over a run.
* `watch`, `Announces.watch_eq`: an observer of the first row with a given key, which looks again
  when rows come or go and when that row is changed, always shows that row.
-/

set_option autoImplicit false

namespace RowView

variable {κ β γ : Type}

/-- The roles `roles` of the rows `first`, …, `last`; no role stands for all. -/
structure Change (κ : Type) where
  first : ℕ
  last : ℕ
  roles : List κ
  deriving DecidableEq

def Change.Spans (c : Change κ) (i : ℕ) : Prop := c.first ≤ i ∧ i ≤ c.last

def Change.Covers (c : Change κ) (i : ℕ) (k : κ) : Prop := c.Spans i ∧ (c.roles = [] ∨ k ∈ c.roles)

instance (c : Change κ) (i : ℕ) : Decidable (c.Spans i) := inferInstanceAs (Decidable (_ ∧ _))

instance [DecidableEq κ] (c : Change κ) (i : ℕ) (k : κ) : Decidable (c.Covers i k) :=
  inferInstanceAs (Decidable (_ ∧ _))

inductive Notification (κ : Type) where
  | rowsInserted (first last : ℕ)
  | rowsRemoved (first last : ℕ)
  | dataChanged (change : Change κ)
  | modelReset
  deriving DecidableEq

/-- An announcement, and the rows of the model at that moment. -/
structure Emission (κ β : Type) where
  notification : Notification κ
  rows : List (κ → β)

/-! ## Views -/

section view

variable [DecidableEq κ]

/-- The cells that a change covers are read again. -/
def reread (c : Change κ) (rows : List (κ → β)) (i : ℕ) (row : κ → β) : κ → β := fun k =>
  if c.Covers i k then rows.getD i row k else row k

/-- A view follows an announcement; `none` where the rows told of are not those it has. -/
def follow (view : List (κ → β)) (e : Emission κ β) : Option (List (κ → β)) :=
  match e.notification with
  | .rowsInserted first last =>
    if first ≤ last ∧ first ≤ view.length ∧ e.rows.length = view.length + (last + 1 - first) then
      some (view.take first ++ (e.rows.drop first).take (last + 1 - first) ++ view.drop first)
    else none
  | .rowsRemoved first last =>
    if first ≤ last ∧ last < view.length ∧ e.rows.length + (last + 1 - first) = view.length then
      some (view.take first ++ view.drop (last + 1))
    else none
  | .dataChanged c =>
    if c.first ≤ c.last ∧ c.last < view.length ∧ e.rows.length = view.length then
      some (view.mapIdx (reread c e.rows))
    else none
  | .modelReset => some e.rows

def replay (view : List (κ → β)) : List (Emission κ β) → Option (List (κ → β))
  | [] => some view
  | e :: es => (follow view e).bind fun view => replay view es

theorem replay_append (view : List (κ → β)) (es es' : List (Emission κ β)) :
    replay view (es ++ es') = (replay view es).bind fun view => replay view es' := by
  induction es generalizing view with
  | nil => rfl
  | cons e es ih =>
    rw [List.cons_append, replay, replay, Option.bind_assoc]
    exact Option.bind_congr fun view _ => ih view

end view

/-! ## Observers of a row -/

section watch

variable [DecidableEq β]

/-- The first row with the value `key` in the role `fixed`. -/
def rowWith (fixed : κ) (key : β) (rows : List (κ → β)) : Option (κ → β) :=
  rows.find? fun row => row fixed = key

def indexWith (fixed : κ) (key : β) (rows : List (κ → β)) : Option ℕ :=
  rows.findIdx? fun row => row fixed = key

theorem rowWith_eq (fixed : κ) (key : β) (rows : List (κ → β)) :
    rowWith fixed key rows = (indexWith fixed key rows).bind fun i => rows[i]? := by
  unfold rowWith indexWith
  induction rows with
  | nil => rfl
  | cons row rows ih =>
    rw [List.find?_cons, List.findIdx?_cons]
    by_cases hk : row fixed = key
    · simp [hk]
    · simp only [hk, decide_false, Bool.false_eq_true, if_false]
      rw [ih]
      cases rows.findIdx? fun row => row fixed = key <;> rfl

/-- The announcements on which an observer looks again. -/
def wakes (fixed : κ) (key : β) (e : Emission κ β) : Bool :=
  match e.notification with
  | .dataChanged c =>
    match indexWith fixed key e.rows with
    | some row => c.Spans row
    | none => false
  | _ => true

/-- What the observer shows after an announcement. -/
def watch (fixed : κ) (key : β) (read : Option (κ → β) → γ) (shown : γ) (e : Emission κ β) : γ :=
  if wakes fixed key e then read (rowWith fixed key e.rows) else shown

end watch

/-! ## Announcements that say it all -/

/-- **What a model announces** on its way from some rows to others. Cells changed in place, those of
the role `fixed` never, are announced once all of them have changed. -/
inductive Announces (fixed : κ) :
    List (κ → β) → List (Emission κ β) → List (κ → β) → Prop
  | update {rows rows' : List (κ → β)} (changes : List (Change κ))
      (keys : rows'.map (fun row => row fixed) = rows.map fun row => row fixed)
      (fits : ∀ c ∈ changes, c.first ≤ c.last ∧ c.last < rows.length)
      (covered : ∀ (i : ℕ) (h : i < rows.length) (h' : i < rows'.length) (k : κ),
        rows[i] k = rows'[i] k ∨ ∃ c ∈ changes, c.Covers i k) :
      Announces fixed rows (changes.map fun c => ⟨.dataChanged c, rows'⟩) rows'
  | insert (before new after : List (κ → β)) (some_new : 0 < new.length) :
      Announces fixed (before ++ after)
        [⟨.rowsInserted before.length (before.length + new.length - 1), before ++ new ++ after⟩]
        (before ++ new ++ after)
  | remove (before old after : List (κ → β)) (some_old : 0 < old.length) :
      Announces fixed (before ++ old ++ after)
        [⟨.rowsRemoved before.length (before.length + old.length - 1), before ++ after⟩]
        (before ++ after)
  | reset (rows rows' : List (κ → β)) : Announces fixed rows [⟨.modelReset, rows'⟩] rows'
  | trans {rows rows' rows'' : List (κ → β)} {es es' : List (Emission κ β)}
      (h : Announces fixed rows es rows') (h' : Announces fixed rows' es' rows'') :
      Announces fixed rows (es ++ es') rows''

namespace Announces

variable {fixed : κ} {rows rows' : List (κ → β)}

theorem refl (rows : List (κ → β)) : Announces fixed rows [] rows :=
  .update [] rfl (fun _ hc => absurd hc List.not_mem_nil) fun _ _ _ _ => Or.inl rfl

/-- **One row rewritten in place**, with the roles that may have changed. -/
theorem update_row {row row' : κ → β} (before after : List (κ → β)) (roles : List κ)
    (key : row' fixed = row fixed) (covered : ∀ k, row k = row' k ∨ roles = [] ∨ k ∈ roles) :
    Announces fixed (before ++ row :: after)
      [⟨.dataChanged ⟨before.length, before.length, roles⟩, before ++ row' :: after⟩]
      (before ++ row' :: after) := by
  refine .update [⟨before.length, before.length, roles⟩] ?_ (fun c hc => ?_) fun i h h' k => ?_
  · simp only [List.map_append, List.map_cons, key]
  · rw [List.mem_singleton.mp hc]
    simp
  · rcases lt_trichotomy i before.length with hi | rfl | hi
    · left
      rw [List.getElem_append_left hi, List.getElem_append_left hi]
    · rcases covered k with hk | hk
      · left
        rwa [List.getElem_of_append rfl rfl, List.getElem_of_append rfl rfl]
      · exact Or.inr ⟨_, List.mem_singleton_self _, ⟨le_refl _, le_refl _⟩, hk⟩
    · left
      obtain ⟨j, rfl⟩ : ∃ j, i = j + 1 + before.length := ⟨i - before.length - 1, by omega⟩
      rw [List.length_append, List.length_cons] at h h'
      rw [← List.getElem_append_right' before (by rw [List.length_cons]; omega),
        ← List.getElem_append_right' before (by rw [List.length_cons]; omega)]
      rfl

theorem run {σ ι : Type} (step : σ → ι → σ × List (Emission κ β)) (cells : σ → List (κ → β))
    {P : σ → Prop} (hs : ∀ t i, P t → P (step t i).1 ∧
      Announces fixed (cells t) (step t i).2 (cells (step t i).1)) {s : σ} (h₀ : P s) (is : List ι) :
    Announces fixed (cells s) (Machine.outputs step s is) (cells (Machine.final step s is)) := by
  induction is generalizing s with
  | nil => exact .refl _
  | cons i is ih =>
    obtain ⟨hP, hA⟩ := hs s i h₀
    exact hA.trans (ih hP)

/-! ### Views -/

section view

variable [DecidableEq κ]

theorem replay_changes (changes : List (Change κ)) {view : List (κ → β)}
    (hl : rows'.length = view.length)
    (fits : ∀ c ∈ changes, c.first ≤ c.last ∧ c.last < view.length)
    (covered : ∀ (i : ℕ) (h : i < view.length) (h' : i < rows'.length) (k : κ),
      view[i] k = rows'[i] k ∨ ∃ c ∈ changes, c.Covers i k) :
    replay view (changes.map fun c => ⟨.dataChanged c, rows'⟩) = some rows' := by
  induction changes generalizing view with
  | nil =>
    refine congrArg some (List.ext_getElem hl.symm fun i h h' => funext fun k => ?_)
    obtain hk | ⟨_, hc, _⟩ := covered i h h' k
    · exact hk
    · exact absurd hc List.not_mem_nil
  | cons c changes ih =>
    have hc := fits c List.mem_cons_self
    have hf : follow view ⟨.dataChanged c, rows'⟩ = some (view.mapIdx (reread c rows')) :=
      if_pos ⟨hc.1, hc.2, hl⟩
    rw [List.map_cons, replay, hf, Option.bind_some]
    refine ih (by rw [List.length_mapIdx, hl]) (fun c' hc' => ?_) fun i h h' k => ?_
    · rw [List.length_mapIdx]
      exact fits c' (List.mem_cons_of_mem c hc')
    · rw [List.getElem_mapIdx, reread]
      rw [List.length_mapIdx] at h
      by_cases hk : c.Covers i k
      · left
        rw [if_pos hk, List.getD_eq_getElem _ _ h']
      · rw [if_neg hk]
        obtain he | ⟨c', hc', hk'⟩ := covered i h h' k
        · exact Or.inl he
        · obtain rfl | hc' := List.mem_cons.mp hc'
          · exact absurd hk' hk
          · exact Or.inr ⟨c', hc', hk'⟩

/-- **A view in sync** can follow everything that is announced, and is in sync again. -/
theorem replay_eq {es : List (Emission κ β)} (h : Announces fixed rows es rows') :
    replay rows es = some rows' := by
  induction h with
  | update changes keys fits covered =>
    have hl := congrArg List.length keys
    rw [List.length_map, List.length_map] at hl
    exact replay_changes changes hl fits covered
  | insert before new after some_new =>
    have hd : before.length + new.length - 1 + 1 - before.length = new.length := by omega
    have hfit : (before ++ new ++ after).length = (before ++ after).length + new.length := by
      simp only [List.length_append]
      omega
    have hf : follow (before ++ after)
        ⟨.rowsInserted before.length (before.length + new.length - 1), before ++ new ++ after⟩ =
          some (before ++ new ++ after) := by
      unfold follow
      simp only [hd, hfit, and_true]
      rw [if_pos ⟨by omega, by rw [List.length_append]; omega⟩]
      simp
    rw [replay, hf]
    rfl
  | remove before old after some_old =>
    have hd : before.length + old.length - 1 + 1 = before.length + old.length := by omega
    have hf : follow (before ++ old ++ after)
        ⟨.rowsRemoved before.length (before.length + old.length - 1), before ++ after⟩ =
          some (before ++ after) := by
      unfold follow
      simp only [hd, List.length_append, Nat.add_sub_cancel_left]
      rw [if_pos ⟨by omega, by omega, by omega⟩]
      simp [List.drop_append]
    rw [replay, hf]
    rfl
  | reset rows rows' => rfl
  | trans _ _ ih ih' => rw [replay_append, ih, Option.bind_some, ih']

end view

/-! ### Observers -/

section watch

variable [DecidableEq β]

theorem indexWith_congr (key : β)
    (keys : rows'.map (fun row => row fixed) = rows.map fun row => row fixed) :
    indexWith fixed key rows' = indexWith fixed key rows := by
  have h (rows : List (κ → β)) : indexWith fixed key rows =
      (rows.map fun row => row fixed).findIdx? fun x => x = key := by
    rw [List.findIdx?_map]
    rfl
  rw [h, h, keys]

theorem foldl_watch_of_asleep {key : β} {read : Option (κ → β) → γ} {es : List (Emission κ β)}
    (h : ∀ e ∈ es, wakes fixed key e = false) (shown : γ) :
    es.foldl (watch fixed key read) shown = shown := by
  induction es with
  | nil => rfl
  | cons e es ih =>
    rw [List.foldl_cons, watch, h e List.mem_cons_self, if_neg Bool.false_ne_true]
    exact ih fun e' he' => h e' (List.mem_cons_of_mem e he')

/-- Once a change of the row has been told, the observer shows the row. -/
theorem foldl_watch {key : β} {read : Option (κ → β) → γ} {i : ℕ}
    (hi : indexWith fixed key rows' = some i) (changes : List (Change κ)) {shown : γ}
    (h : shown = read (rowWith fixed key rows') ∨ ∃ c ∈ changes, c.Spans i) :
    (changes.map fun c => ⟨.dataChanged c, rows'⟩).foldl (watch fixed key read) shown =
      read (rowWith fixed key rows') := by
  induction changes generalizing shown with
  | nil =>
    obtain h | ⟨_, hc, _⟩ := h
    · exact h
    · exact absurd hc List.not_mem_nil
  | cons c changes ih =>
    rw [List.map_cons, List.foldl_cons]
    apply ih
    have hw : wakes fixed key ⟨.dataChanged c, rows'⟩ = decide (c.Spans i) := by
      simp only [wakes, hi]
    rw [watch, hw]
    by_cases hc : c.Spans i
    · left
      rw [if_pos (decide_eq_true hc)]
    · rw [if_neg fun h => hc (of_decide_eq_true h)]
      obtain h | ⟨c', hc', hs⟩ := h
      · exact Or.inl h
      · obtain rfl | hc' := List.mem_cons.mp hc'
        · exact absurd hs hc
        · exact Or.inr ⟨c', hc', hs⟩

/-- **An observer in sync** stays in sync. -/
theorem watch_eq {es : List (Emission κ β)} (h : Announces fixed rows es rows') (key : β)
    (read : Option (κ → β) → γ) :
    es.foldl (watch fixed key read) (read (rowWith fixed key rows)) =
      read (rowWith fixed key rows') := by
  induction h with
  | @update rows rows' changes keys fits covered =>
    have hl := congrArg List.length keys
    rw [List.length_map, List.length_map] at hl
    have hx := indexWith_congr key keys
    cases hi : indexWith fixed key rows with
    | none =>
      have hsleep : ∀ e ∈ changes.map fun c => (⟨.dataChanged c, rows'⟩ : Emission κ β),
          wakes fixed key e = false := by
        intro e he
        obtain ⟨c, _, rfl⟩ := List.mem_map.mp he
        simp only [wakes, hx, hi]
      rw [foldl_watch_of_asleep hsleep, rowWith_eq, rowWith_eq, hx, hi]
      rfl
    | some i =>
      apply foldl_watch (hx.trans hi)
      obtain ⟨h, -⟩ := List.findIdx?_eq_some_iff_getElem.mp hi
      by_cases hs : ∃ c ∈ changes, c.Spans i
      · exact Or.inr hs
      · left
        have h' : i < rows'.length := by omega
        have hrow : rows[i] = rows'[i] := by
          funext k
          obtain he | ⟨c, hc, hk⟩ := covered i h (by omega) k
          · exact he
          · exact absurd ⟨c, hc, hk.1⟩ hs
        rw [rowWith_eq, rowWith_eq, hx, hi, Option.bind_some, Option.bind_some,
          List.getElem?_eq_getElem h, List.getElem?_eq_getElem (by omega), hrow]
  | insert before new after some_new => rfl
  | remove before old after some_old => rfl
  | reset rows rows' => rfl
  | trans _ _ ih ih' => rw [List.foldl_append, ih, ih']

end watch

end Announces

end RowView
