import AnoMap.Lib.KeyMap
import Mathlib.Data.List.Nodup

/-!
# Lists of keyed elements

A list whose elements carry a key and are looked up by linear search, so that of several elements
with one key the first is found.

* `first?`: the search; `first?_set`, `first?_append`: after an update in place and an append.
* `appendAbsent`: the elements whose key is not there yet, appended one after the other;
  `count_appendAbsent`, `first?_appendAbsent`, `forall_mem_appendAbsent`.
* `index`: the positions by key, a later one replacing an earlier one; `get?_index_iff`: with
  distinct keys it is the position of each element.
* `upsert`, `upsertAll`: the element found is changed, or a new one appended, once and for a list of
  changes; `upsertAll_eq_self_iff`: when a list of changes comes to nothing;
  `forall_mem_upsertAll_iff`: when all elements have a property that changes leave as it is.
-/

set_option autoImplicit false

namespace Keyed

variable {α κ : Type} [DecidableEq κ] (key : α → κ)

/-- The first element with key `k`. -/
def first? (l : List α) (k : κ) : Option α := l.find? fun a => key a = k

/-- The elements of `old` whose key is not there yet, changed by `f`. -/
def appendAbsent (f : α → α) (l old : List α) : List α :=
  old.foldl (fun l a => if l.any fun b => key b = key a then l else l ++ [f a]) l

/-- The positions by key. -/
def index (l : List α) : KeyMap κ ℕ := l.zipIdx.foldl (fun m e => m.set (key e.1) e.2) ∅

variable {key}

/-! ## The search -/

theorem first?_cons (a : α) (l : List α) (k : κ) :
    first? key (a :: l) k = if key a = k then some a else first? key l k := by
  rw [first?, List.find?_cons]
  split_ifs with h
  · rw [decide_eq_true h]
  · rw [decide_eq_false h]; rfl

theorem key_of_first? {l : List α} {k : κ} {a : α} (h : first? key l k = some a) : key a = k := by
  have hp := List.find?_some (p := fun a => decide (key a = k)) h
  exact of_decide_eq_true hp

theorem first?_eq_none_iff {l : List α} {k : κ} : first? key l k = none ↔ k ∉ l.map key := by
  rw [first?, List.find?_eq_none, List.mem_map]
  exact ⟨fun h ⟨a, ha, hk⟩ => h a ha (decide_eq_true hk),
    fun h a ha hk => h ⟨a, ha, of_decide_eq_true hk⟩⟩

theorem first?_isSome_iff {l : List α} {k : κ} : (first? key l k).isSome ↔ k ∈ l.map key := by
  rw [Option.isSome_iff_ne_none, ne_eq, first?_eq_none_iff, not_not]

theorem first?_append (l l' : List α) (k : κ) :
    first? key (l ++ l') k = (first? key l k).or (first? key l' k) := List.find?_append

theorem first?_singleton (a : α) (k : κ) :
    first? key [a] k = if key a = k then some a else none := first?_cons a [] k

variable (key) in
theorem getElem?_of_findIdx? {l : List α} {k : κ} {idx : ℕ}
    (h : l.findIdx? (fun a => key a = k) = some idx) : l[idx]? = first? key l k := by
  rw [List.findIdx?_eq_some_iff_getElem] at h
  obtain ⟨hlt, hk, hbefore⟩ := h
  rw [List.getElem?_eq_getElem hlt, eq_comm, first?, List.find?_eq_some_iff_getElem]
  exact ⟨hk, idx, hlt, rfl, fun j hj => by rw [Bool.eq_false_of_not_eq_true (hbefore j hj)]; rfl⟩

variable (key) in
theorem findIdx?_isSome_iff {l : List α} {k : κ} :
    (l.findIdx? fun a => key a = k).isSome ↔ k ∈ l.map key := by
  rw [List.findIdx?_isSome, List.any_eq_true, List.mem_map]
  exact exists_congr fun a => and_congr_right fun _ => decide_eq_true_iff

variable (key) in
theorem findIdx?_eq_none_iff {l : List α} {k : κ} :
    l.findIdx? (fun a => key a = k) = none ↔ k ∉ l.map key := by
  rw [← findIdx?_isSome_iff key, Bool.not_eq_true, Option.isSome_eq_false_iff, Option.isNone_iff_eq_none]

variable (key) in
theorem first?_set {l : List α} {k : κ} {idx : ℕ}
    (h : l.findIdx? (fun a => key a = k) = some idx) {b : α} (hb : key b = k) (j : κ) :
    first? key (l.set idx b) j = if j = k then some b else first? key l j := by
  induction l generalizing idx with
  | nil => cases h
  | cons a l ih =>
    rw [List.findIdx?_cons] at h
    by_cases ha : key a = k
    · rw [if_pos (decide_eq_true ha), Option.some.injEq] at h
      rw [← h, List.set_cons_zero, first?_cons, first?_cons, hb, ha]
      simp only [eq_comm (a := k)]
      split_ifs <;> rfl
    · rw [if_neg (by rwa [decide_eq_true_iff])] at h
      obtain ⟨i, hi, rfl⟩ := Option.map_eq_some_iff.mp h
      rw [List.set_cons_succ, first?_cons, ih hi, first?_cons]
      by_cases hj : key a = j
      · rw [if_pos hj, if_pos hj, if_neg fun e => ha (hj.trans e)]
      · rw [if_neg hj, if_neg hj]

variable (key) in
theorem map_key_set {l : List α} {k : κ} {idx : ℕ}
    (h : l.findIdx? (fun a => key a = k) = some idx) {b : α} (hb : key b = k) :
    (l.set idx b).map key = l.map key := by
  obtain ⟨hlt, hk, -⟩ := List.findIdx?_eq_some_iff_getElem.mp h
  rw [List.map_set, hb, ← of_decide_eq_true hk, ← List.getElem_map key (h := by simpa using hlt),
    List.set_getElem_self]

/-! ## Absent elements -/

section Absent

variable {f : α → α} (hf : ∀ a, key (f a) = key a)

theorem appendAbsent_cons (l : List α) (a : α) (old : List α) :
    appendAbsent key f l (a :: old) =
      appendAbsent key f (if key a ∈ l.map key then l else l ++ [f a]) old := by
  have h : (l.any fun b => key b = key a) = true ↔ key a ∈ l.map key := by
    rw [List.any_eq_true, List.mem_map]
    exact exists_congr fun b => and_congr_right fun _ => decide_eq_true_iff
  rw [appendAbsent, List.foldl_cons, appendAbsent]
  simp only [h]

include hf

/-- **How often a key occurs**: as often as before, or once when it was absent. -/
theorem count_appendAbsent (l old : List α) (k : κ) :
    ((appendAbsent key f l old).map key).count k =
      if k ∈ l.map key then (l.map key).count k else if k ∈ old.map key then 1 else 0 := by
  induction old generalizing l with
  | nil =>
    split_ifs with h h'
    · rfl
    · cases h'
    · exact List.count_eq_zero.mpr h
  | cons a old ih =>
    rw [appendAbsent_cons, ih]
    by_cases ha : key a ∈ l.map key
    · rw [if_pos ha]
      split_ifs with h h₁ h₂ h₂
      · rfl
      · rfl
      · exact absurd (List.mem_cons_of_mem _ h₁) h₂
      · exact absurd ((List.mem_cons.mp h₂).resolve_left fun e => h (e ▸ ha)) h₁
      · rfl
    · rw [if_neg ha]
      simp only [List.map_append, List.map_cons, List.map_nil, hf, List.mem_append,
        List.count_append, List.mem_cons, List.not_mem_nil, or_false]
      by_cases hk : k = key a
      · subst hk
        rw [if_pos (Or.inr rfl), if_neg ha, if_pos (Or.inl rfl), List.count_eq_zero.mpr ha,
          List.count_singleton_self]
      · rw [List.count_eq_zero.mpr fun hm => hk (List.mem_singleton.mp hm)]
        simp only [hk, or_false, false_or, Nat.add_zero]

theorem mem_keys_appendAbsent {l old : List α} {k : κ} :
    k ∈ (appendAbsent key f l old).map key ↔ k ∈ l.map key ∨ k ∈ old.map key := by
  rw [← List.count_pos_iff, count_appendAbsent hf]
  split_ifs with h h'
  · exact iff_of_true (List.count_pos_iff.mpr h) (Or.inl h)
  · exact iff_of_true Nat.one_pos (Or.inr h')
  · exact iff_of_false (Nat.lt_irrefl 0) (not_or.mpr ⟨h, h'⟩)

/-- The keys stay distinct, and nothing else makes them so. -/
theorem nodup_appendAbsent_iff {l old : List α} :
    ((appendAbsent key f l old).map key).Nodup ↔ (l.map key).Nodup := by
  simp only [List.nodup_iff_count_le_one, count_appendAbsent hf]
  refine forall_congr' fun k => ?_
  split_ifs with h h'
  · exact Iff.rfl
  · exact iff_of_true le_rfl (List.count_eq_zero.mpr h ▸ Nat.zero_le 1)
  · exact iff_of_true (Nat.zero_le 1) (List.count_eq_zero.mpr h ▸ Nat.zero_le 1)

theorem first?_appendAbsent (l old : List α) (k : κ) :
    first? key (appendAbsent key f l old) k = (first? key l k).or ((first? key old k).map f) := by
  induction old generalizing l with
  | nil => exact (Option.or_none).symm
  | cons a old ih =>
    rw [appendAbsent_cons, ih, first?_cons]
    by_cases ha : key a ∈ l.map key
    · rw [if_pos ha]
      split_ifs with hk
      · obtain ⟨b, hb⟩ := Option.isSome_iff_exists.mp (first?_isSome_iff.mpr (hk ▸ ha))
        rw [hb]
        rfl
      · rfl
    · rw [if_neg ha, first?_append, first?_singleton, hf]
      split_ifs with hk
      · rw [first?_eq_none_iff.mpr (hk ▸ ha)]
        rfl
      · rw [Option.or_none]

omit hf in
theorem forall_mem_appendAbsent {P : α → Prop} {l old : List α} (hl : ∀ a ∈ l, P a)
    (hold : ∀ a ∈ old, P (f a)) : ∀ a ∈ appendAbsent key f l old, P a := by
  induction old generalizing l with
  | nil => exact hl
  | cons a old ih =>
    obtain ⟨ha, hold⟩ := List.forall_mem_cons.mp hold
    rw [appendAbsent_cons]
    refine ih ?_ hold
    split_ifs
    · exact hl
    · exact List.forall_mem_append.mpr ⟨hl, List.forall_mem_singleton.mpr ha⟩

end Absent

/-! ## Changes by key -/

section Upsert

variable {ω : Type} (new : κ → α) (f : ω → α → α)

variable (key) in
/-- The element found is changed by `g`, or a new one appended and changed. -/
def upsert (k : κ) (g : α → α) : List α → List α
  | [] => [g (new k)]
  | a :: l => if key a = k then g a :: l else a :: upsert k g l

variable (key) in
/-- The changes of a list, each under its key. -/
def upsertAll (ws : List (κ × ω)) (l : List α) : List α :=
  ws.foldl (fun l w => upsert key new w.1 (f w.2) l) l

/-- The changes under one key. -/
def under (ws : List (κ × ω)) (k : κ) : List ω :=
  (ws.filter fun w => w.1 = k).map Prod.snd

variable (key) in
theorem upsert_eq_set (k : κ) (g : α → α) (l : List α) (a : α) : upsert key new k g l =
    match l.findIdx? fun a => key a = k with
    | some idx => l.set idx (g (l.getD idx a))
    | none => l ++ [g (new k)] := by
  induction l with
  | nil => rfl
  | cons b l ih =>
    rw [upsert, List.findIdx?_cons]
    by_cases hb : key b = k
    · rw [if_pos hb, if_pos (decide_eq_true hb)]
      rfl
    · rw [if_neg hb, if_neg (by rwa [decide_eq_true_iff]), ih]
      cases l.findIdx? fun a => key a = k <;> rfl

/-- A change that leaves a property as it is: it holds of all elements afterwards if it did before,
and of a new one that is appended. -/
theorem forall_mem_upsert_iff {P : α → Prop} {g : α → α} (hP : ∀ a, P (g a) ↔ P a) (k : κ)
    (l : List α) : (∀ a ∈ upsert key new k g l, P a) ↔
      (∀ a ∈ l, P a) ∧ (k ∉ l.map key → P (new k)) := by
  induction l with
  | nil => simp [upsert, hP]
  | cons b l ih =>
    rw [upsert, List.forall_mem_cons, List.map_cons, List.mem_cons]
    split_ifs with hb
    · rw [List.forall_mem_cons, hP, and_iff_left fun hk => absurd (Or.inl hb.symm) hk]
    · rw [List.forall_mem_cons, ih, and_assoc, or_iff_right fun hk => hb hk.symm]

variable {f} (hf : ∀ w a, key (f w a) = key a)
include hf

variable {new} in
theorem mem_keys_upsert (hnew : ∀ k, key (new k) = k) (w : ω) (k j : κ) (l : List α) :
    j ∈ (upsert key new k (f w) l).map key ↔ j ∈ l.map key ∨ j = k := by
  induction l with
  | nil => simp [upsert, hf, hnew]
  | cons b l ih =>
    rw [upsert]
    split_ifs with hb
    · rw [List.map_cons, List.map_cons, List.mem_cons, List.mem_cons, hf, hb, or_assoc]
      tauto
    · rw [List.map_cons, List.map_cons, List.mem_cons, List.mem_cons, ih, or_assoc]

variable {new} in
/-- **Changes that leave a property as it is.** It holds of all elements afterwards if and only if it
did before, and of the new ones that are appended. -/
theorem forall_mem_upsertAll_iff (hnew : ∀ k, key (new k) = k) {P : α → Prop}
    (hP : ∀ w a, P (f w a) ↔ P a) (ws : List (κ × ω)) (l : List α) :
    (∀ a ∈ upsertAll key new f ws l, P a) ↔
      (∀ a ∈ l, P a) ∧ ∀ k ∈ ws.map Prod.fst, k ∉ l.map key → P (new k) := by
  induction ws generalizing l with
  | nil => simp [upsertAll]
  | cons w ws ih =>
    have hcons : upsertAll key new f (w :: ws) l =
        upsertAll key new f ws (upsert key new w.1 (f w.2) l) := rfl
    rw [hcons, ih, forall_mem_upsert_iff new (hP w.2), List.map_cons, List.forall_mem_cons, and_assoc]
    refine and_congr_right fun _ => and_congr_right fun hw => ?_
    refine forall₂_congr fun k _ => ?_
    rw [mem_keys_upsert hf hnew, not_or, and_imp]
    refine imp_congr_right fun hk => ⟨fun h => ?_, fun h _ => h⟩
    by_cases he : k = w.1
    · exact he ▸ hw (he ▸ hk)
    · exact h he

theorem upsertAll_cons (ws : List (κ × ω)) (a : α) (l : List α) :
    upsertAll key new f ws (a :: l) = (under ws (key a)).foldl (fun a w => f w a) a ::
      upsertAll key new f (ws.filter fun w => w.1 ≠ key a) l := by
  induction ws generalizing a l with
  | nil => rfl
  | cons w ws ih =>
    have hcons : ∀ l, upsertAll key new f (w :: ws) l =
        upsertAll key new f ws (upsert key new w.1 (f w.2) l) := fun _ => rfl
    rw [hcons, upsert, under]
    by_cases hw : key a = w.1
    · rw [if_pos hw, ih, hf, List.filter_cons_of_pos (by simpa using hw.symm),
        List.filter_cons_of_neg (by simpa using hw.symm)]
      rfl
    · have hw' : w.1 ≠ key a := fun h => hw h.symm
      rw [if_neg hw, ih, List.filter_cons_of_neg (by simpa using hw'),
        List.filter_cons_of_pos (by simpa using hw')]
      rfl

omit hf in
theorem mem_filter_ne {ws : List (κ × ω)} {k j : κ} :
    j ∈ (ws.filter fun w => w.1 ≠ k).map Prod.fst ↔ j ∈ ws.map Prod.fst ∧ j ≠ k := by
  simp only [List.mem_map, List.mem_filter, decide_eq_true_iff]
  constructor
  · rintro ⟨w, ⟨hw, hne⟩, rfl⟩
    exact ⟨⟨w, hw, rfl⟩, hne⟩
  · rintro ⟨⟨w, hw, rfl⟩, hne⟩
    exact ⟨w, ⟨hw, hne⟩, rfl⟩

omit hf in
theorem under_filter_ne (ws : List (κ × ω)) {k j : κ} (h : j ≠ k) :
    under (ws.filter fun w => w.1 ≠ k) j = under ws j := by
  rw [under, under, List.filter_filter]
  refine congrArg _ (List.filter_congr fun w _ => ?_)
  by_cases hw : w.1 = j
  · simp [hw, h]
  · simp [hw]

omit hf in
theorem under_eq_nil {ws : List (κ × ω)} {k : κ} (h : k ∉ ws.map Prod.fst) : under ws k = [] := by
  rw [under, List.map_eq_nil_iff, List.filter_eq_nil_iff]
  exact fun w hw hk => h (List.mem_map.mpr ⟨w, hw, of_decide_eq_true hk⟩)

/-- **Changes without effect.** A list of changes leaves a list as it is if and only if each key
changed is there and its first element is what the changes make of it. -/
theorem upsertAll_eq_self_iff {ws : List (κ × ω)} {l : List α} :
    upsertAll key new f ws l = l ↔ ∀ k ∈ ws.map Prod.fst, ∃ a, first? key l k = some a ∧
      (under ws k).foldl (fun a w => f w a) a = a := by
  induction l generalizing ws with
  | nil =>
    cases ws with
    | nil => exact iff_of_true rfl nofun
    | cons w ws =>
      refine iff_of_false (fun h => ?_) fun h => ?_
      · have hcons : upsertAll key new f (w :: ws) [] =
            upsertAll key new f ws [f w.2 (new w.1)] := rfl
        rw [hcons, upsertAll_cons new hf] at h
        cases h
      · obtain ⟨a, ha, -⟩ := h w.1 List.mem_cons_self
        cases ha
  | cons a l ih =>
    rw [upsertAll_cons new hf, List.cons.injEq, ih]
    constructor
    · rintro ⟨hhead, htail⟩ k hk
      rw [first?_cons]
      split_ifs with ha
      · exact ⟨a, rfl, ha ▸ hhead⟩
      · have hne : k ≠ key a := fun h => ha h.symm
        obtain ⟨b, hb, hfix⟩ := htail k (mem_filter_ne.mpr ⟨hk, hne⟩)
        rw [under_filter_ne ws hne] at hfix
        exact ⟨b, hb, hfix⟩
    · intro h
      refine ⟨?_, fun k hk => ?_⟩
      · by_cases hk : key a ∈ ws.map Prod.fst
        · obtain ⟨b, hb, hfix⟩ := h (key a) hk
          rw [first?_cons, if_pos rfl, Option.some.injEq] at hb
          rw [hb]
          exact hb ▸ hfix
        · rw [under_eq_nil hk]
          rfl
      · obtain ⟨hk, hne⟩ := mem_filter_ne.mp hk
        obtain ⟨b, hb, hfix⟩ := h k hk
        rw [first?_cons, if_neg fun h => hne h.symm] at hb
        rw [under_filter_ne ws hne]
        exact ⟨b, hb, hfix⟩

end Upsert

/-! ## The index -/

theorem index_append (l : List α) (a : α) :
    index key (l ++ [a]) = (index key l).set (key a) l.length := by
  rw [index, List.zipIdx_append, List.foldl_append]
  simp [index]

/-- **The index** of a list with distinct keys. -/
theorem get?_index_iff {l : List α} (h : (l.map key).Nodup) (k : κ) (i : ℕ) :
    (index key l).get? k = some i ↔ ∃ a, l[i]? = some a ∧ key a = k := by
  induction l using List.reverseRecOn generalizing i with
  | nil => simp [index]
  | append_singleton l a ih =>
    rw [List.map_append, List.map_singleton, List.nodup_append] at h
    rw [index_append, KeyMap.get?_set]
    split_ifs with hk
    · subst hk
      constructor
      · intro hi
        obtain rfl := Option.some.inj hi
        exact ⟨a, List.getElem?_concat_length, rfl⟩
      · rintro ⟨b, hb, hkey⟩
        rcases Nat.lt_or_ge i l.length with hlt | hge
        · rw [List.getElem?_append_left hlt] at hb
          have hmem : key b ∈ l.map key := List.mem_map_of_mem (List.mem_of_getElem? hb)
          exact absurd hkey (h.2.2 _ hmem _ (List.mem_singleton.mpr rfl))
        · obtain ⟨hlt, -⟩ := List.getElem?_eq_some_iff.mp hb
          rw [List.length_append, List.length_singleton] at hlt
          rw [show i = l.length by omega]
    · rw [ih h.1]
      refine exists_congr fun b => and_congr_left fun hkey => ?_
      rcases Nat.lt_trichotomy i l.length with hlt | rfl | hgt
      · rw [List.getElem?_append_left hlt]
      · rw [List.getElem?_concat_length, List.getElem?_eq_none le_rfl]
        exact iff_of_false (Option.some_ne_none _).symm fun e => hk (Option.some.inj e ▸ hkey.symm)
      · rw [List.getElem?_eq_none hgt.le, List.getElem?_eq_none (by rw [List.length_append]; exact hgt)]

end Keyed
