import Mathlib.Data.List.Basic
import Mathlib.Order.Lattice

/-!
# Maps in the order of their keys

`OrderedMap K V`: a list of entries, strictly ascending in their keys, with the operations of an
ordered map that is walked from its first key to its last.

* `set`, `get?`, `getD`: the operations; `get?_set`, `getD_set`: how they meet.
* `filter_entries`: at most one entry is found under a key; `mem_entries_iff`: the entries are what
  is found, `nodup_keys`: with no key twice.
-/

set_option autoImplicit false

variable {K V : Type} [LinearOrder K]

structure OrderedMap (K V : Type) [LinearOrder K] where
  entries : List (K × V)
  ascending : entries.Pairwise fun a b => a.1 < b.1

namespace OrderedMap

def empty : OrderedMap K V := ⟨[], .nil⟩

/-- The value at `k`, if any. -/
def get? (m : OrderedMap K V) (k : K) : Option V := (m.entries.find? fun e => e.1 = k).map Prod.snd

/-- The value at `k`, or the default. -/
def getD (m : OrderedMap K V) (k : K) (default : V) : V := (m.get? k).getD default

/-- An entry in its place, or in the place of the one with its key. -/
def insertEntry (k : K) (v : V) : List (K × V) → List (K × V)
  | [] => [(k, v)]
  | e :: l => if k < e.1 then (k, v) :: e :: l else if k = e.1 then (k, v) :: l
    else e :: insertEntry k v l

theorem mem_insertEntry {k : K} {v : V} {l : List (K × V)} {e : K × V}
    (h : e ∈ insertEntry k v l) : e = (k, v) ∨ e ∈ l := by
  induction l with
  | nil => exact Or.inl (List.mem_singleton.mp h)
  | cons d l ih =>
    unfold insertEntry at h
    split_ifs at h
    · exact List.mem_cons.mp h
    · exact (List.mem_cons.mp h).imp_right fun h => List.mem_cons_of_mem d h
    · rcases List.mem_cons.mp h with rfl | h
      · exact Or.inr List.mem_cons_self
      · exact (ih h).imp_right fun h => List.mem_cons_of_mem d h

theorem ascending_insertEntry (k : K) (v : V) {l : List (K × V)}
    (h : l.Pairwise fun a b => a.1 < b.1) : (insertEntry k v l).Pairwise fun a b => a.1 < b.1 := by
  induction l with
  | nil => exact List.pairwise_singleton _ _
  | cons e l ih =>
    obtain ⟨he, hl⟩ := List.pairwise_cons.mp h
    unfold insertEntry
    split_ifs with hlt heq
    · refine List.pairwise_cons.mpr ⟨fun d hd => ?_, h⟩
      rcases List.mem_cons.mp hd with rfl | hd
      · exact hlt
      · exact lt_trans hlt (he d hd)
    · exact List.pairwise_cons.mpr ⟨fun d hd => heq ▸ he d hd, hl⟩
    · refine List.pairwise_cons.mpr ⟨fun d hd => ?_, ih hl⟩
      rcases mem_insertEntry hd with rfl | hd
      · exact lt_of_le_of_ne (not_lt.mp hlt) (Ne.symm heq)
      · exact he d hd

/-- Bind `k` to `v`, replacing what was there. -/
def set (m : OrderedMap K V) (k : K) (v : V) : OrderedMap K V :=
  ⟨insertEntry k v m.entries, ascending_insertEntry k v m.ascending⟩

@[simp] theorem get?_empty (k : K) : (empty : OrderedMap K V).get? k = none := rfl

theorem find?_insertEntry (k j : K) (v : V) (l : List (K × V)) :
    (insertEntry k v l).find? (fun e => e.1 = j) =
      if j = k then some (k, v) else l.find? fun e => e.1 = j := by
  induction l with
  | nil =>
    rw [insertEntry, List.find?_cons, List.find?_nil]
    by_cases h : j = k
    · simp [h]
    · simp [h, Ne.symm h]
  | cons e l ih =>
    unfold insertEntry
    by_cases h : j = k
    · subst h
      rw [if_pos rfl] at ih ⊢
      split_ifs with hlt heq
      · simp
      · simp
      · rw [List.find?_cons_of_neg (by simpa using Ne.symm heq), ih]
    · rw [if_neg h] at ih ⊢
      split_ifs with hlt heq
      · rw [List.find?_cons_of_neg (by simpa using Ne.symm h)]
      · rw [List.find?_cons_of_neg (by simpa using Ne.symm h),
          List.find?_cons_of_neg (by simpa using heq ▸ Ne.symm h)]
      · rw [List.find?_cons, List.find?_cons, ih]

theorem get?_set (m : OrderedMap K V) (k j : K) (v : V) :
    (m.set k v).get? j = if j = k then some v else m.get? j := by
  rw [get?, set, find?_insertEntry]
  split_ifs <;> rfl

theorem getD_set (m : OrderedMap K V) (k j : K) (v default : V) :
    (m.set k v).getD j default = if j = k then v else m.getD j default := by
  rw [getD, get?_set]
  split_ifs <;> rfl

theorem filter_entries (m : OrderedMap K V) (k : K) :
    (m.entries.filter fun e => e.1 = k) = ((m.get? k).map fun v => (k, v)).toList := by
  obtain ⟨l, hl⟩ := m
  unfold get?
  dsimp only
  induction l with
  | nil => rfl
  | cons e l ih =>
    obtain ⟨he, hl⟩ := List.pairwise_cons.mp hl
    by_cases hk : e.1 = k
    · have hnone : (l.filter fun d => d.1 = k) = [] :=
        List.filter_eq_nil_iff.mpr fun d hd => by simpa using ne_of_gt (hk ▸ he d hd)
      rw [List.filter_cons_of_pos (by simpa using hk), hnone,
        List.find?_cons_of_pos (by simpa using hk)]
      subst hk
      rfl
    · rw [List.filter_cons_of_neg (by simpa using hk), List.find?_cons_of_neg (by simpa using hk)]
      exact ih hl

theorem mem_entries_iff (m : OrderedMap K V) (k : K) (v : V) :
    (k, v) ∈ m.entries ↔ m.get? k = some v := by
  have hfilter : (k, v) ∈ m.entries ↔ (k, v) ∈ m.entries.filter fun e => e.1 = k := by
    rw [List.mem_filter]
    exact (and_iff_left (decide_eq_true rfl)).symm
  rw [hfilter, filter_entries, Option.mem_toList, Option.map_eq_some_iff]
  constructor
  · rintro ⟨v', hv, heq⟩
    rwa [← (Prod.mk.inj heq).2]
  · intro hv
    exact ⟨v, hv, rfl⟩

theorem nodup_keys (m : OrderedMap K V) : (m.entries.map Prod.fst).Nodup :=
  List.pairwise_map.mpr (m.ascending.imp ne_of_lt)

end OrderedMap
