import Mathlib.Data.Finmap

/-!
# Finite maps with a size

`KeyMap K V` is Mathlib's finite map at a constant value type, with the operations of an ordered
or hashed map of a standard library: `set`, `get?`, `size` and the inserting read `fetch`.
-/

set_option autoImplicit false

/-- A finite map. -/
abbrev KeyMap (K V : Type) := Finmap fun _ : K => V

namespace KeyMap

variable {K V : Type} [DecidableEq K]

/-- Bind `k` to `v`, replacing what was there. -/
def set (m : KeyMap K V) (k : K) (v : V) : KeyMap K V := Finmap.insert k v m

/-- The value at `k`, if any. -/
def get? (m : KeyMap K V) (k : K) : Option V := Finmap.lookup k m

/-- The number of keys. -/
def size (m : KeyMap K V) : ℕ := m.keys.card

/-- The value at `k`, a default one being inserted first when there is none. -/
def fetch [Inhabited V] (m : KeyMap K V) (k : K) : KeyMap K V × V :=
  match m.get? k with
  | some v => (m, v)
  | none => (m.set k default, default)

/-- The value at `k`, or the default. -/
def getD [Inhabited V] (m : KeyMap K V) (k : K) : V := (m.get? k).getD default

@[simp] theorem get?_empty (k : K) : get? (∅ : KeyMap K V) k = none := Finmap.lookup_empty k

@[simp] theorem get?_set_self (m : KeyMap K V) (k : K) (v : V) : (m.set k v).get? k = some v :=
  Finmap.lookup_insert m

theorem get?_set_ne (m : KeyMap K V) {k j : K} (v : V) (h : j ≠ k) :
    (m.set k v).get? j = m.get? j := Finmap.lookup_insert_of_ne m h

theorem get?_set (m : KeyMap K V) (k j : K) (v : V) :
    (m.set k v).get? j = if j = k then some v else m.get? j := by
  split_ifs with h
  · rw [h, get?_set_self]
  · exact get?_set_ne m v h

@[simp] theorem mem_set (m : KeyMap K V) (k j : K) (v : V) : j ∈ m.set k v ↔ j = k ∨ j ∈ m :=
  Finmap.mem_insert

theorem mem_iff_get? (m : KeyMap K V) (k : K) : k ∈ m ↔ ∃ v, m.get? k = some v := Finmap.mem_iff

theorem get?_eq_none_iff (m : KeyMap K V) (k : K) : m.get? k = none ↔ k ∉ m :=
  Finmap.lookup_eq_none

theorem keys_set (m : KeyMap K V) (k : K) (v : V) : (m.set k v).keys = insert k m.keys := by
  ext j
  rw [Finmap.mem_keys, mem_set, Finset.mem_insert, Finmap.mem_keys]

omit [DecidableEq K] in
@[simp] theorem size_empty : size (∅ : KeyMap K V) = 0 := rfl

theorem size_set_of_notMem (m : KeyMap K V) {k : K} (v : V) (h : k ∉ m) :
    (m.set k v).size = m.size + 1 := by
  rw [size, keys_set, Finset.card_insert_of_notMem (by rwa [Finmap.mem_keys]), size]

@[simp] theorem fetch_snd [Inhabited V] (m : KeyMap K V) (k : K) : (m.fetch k).2 = m.getD k := by
  unfold fetch getD
  cases m.get? k <;> rfl

theorem getD_set [Inhabited V] (m : KeyMap K V) (k j : K) (v : V) :
    (m.set k v).getD j = if j = k then v else m.getD j := by
  rw [getD, get?_set]
  split_ifs <;> rfl

@[simp] theorem getD_fetch_fst [Inhabited V] (m : KeyMap K V) (k j : K) :
    (m.fetch k).1.getD j = m.getD j := by
  unfold fetch
  cases h : m.get? k with
  | some v => rfl
  | none =>
    simp only [getD, get?_set]
    split_ifs with hj
    · rw [hj, h]; rfl
    · rfl

end KeyMap
