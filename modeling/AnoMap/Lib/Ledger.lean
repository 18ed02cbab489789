import Mathlib.Data.List.Nodup
import Mathlib.Data.Nat.Notation

/-!
# Ledgers

What arrived, one after another, and what remains of it: an arrival at full capacity takes the place
of the oldest one that remains, and arrivals are withdrawn. Every arrival has its number, so that two
equal ones are still two.

* `Ledger`: the arrivals, and those that remain with their numbers, in order and as they arrived.
* `arrive`, `withdraw`, `without`, `clear`: what happens to them.
* `contents`: what remains without the numbers; `contents_arrive`, `length_contents_arrive`: it is a
  queue of bounded length.
* **`eraseP_contents`**: with distinct keys, a search by key takes away the arrivals with that key,
  and (`eraseP_contents_of_mem`) exactly the one that is meant.
-/

set_option autoImplicit false

structure Ledger (α : Type) where
  arrivals : List α
  remaining : List (ℕ × α)
  sorted : remaining.Pairwise fun d e => d.1 < e.1
  recorded : ∀ e ∈ remaining, arrivals[e.1]? = some e.2

namespace Ledger

variable {α : Type}

/-- All but the oldest element of a full queue. -/
def room (cap : ℕ) {β : Type} (q : List β) : List β := if cap ≤ q.length then q.tail else q

theorem room_sublist (cap : ℕ) {β : Type} (q : List β) : (room cap q).Sublist q := by
  unfold room
  split_ifs
  · exact List.tail_sublist q
  · exact List.Sublist.refl q

theorem map_room (cap : ℕ) {β γ : Type} (f : β → γ) (q : List β) :
    (room cap q).map f = room cap (q.map f) := by
  unfold room
  rw [List.length_map]
  split_ifs
  · exact List.map_tail
  · rfl

theorem length_room_lt {cap : ℕ} (hcap : 0 < cap) {β : Type} {q : List β} (h : q.length ≤ cap) :
    (room cap q).length < cap := by
  unfold room
  split_ifs with hfull
  · rw [List.length_tail]
    omega
  · exact Nat.lt_of_not_le hfull

/-! ## The operations -/

def empty : Ledger α := ⟨[], [], .nil, nofun⟩

theorem lt_of_mem (l : Ledger α) {e : ℕ × α} (h : e ∈ l.remaining) : e.1 < l.arrivals.length :=
  (List.getElem?_eq_some_iff.mp (l.recorded e h)).1

/-- `a` arrives. -/
def arrive (cap : ℕ) (l : Ledger α) (a : α) : Ledger α where
  arrivals := l.arrivals ++ [a]
  remaining := room cap l.remaining ++ [(l.arrivals.length, a)]
  sorted := by
    have hsub := room_sublist cap l.remaining
    refine List.pairwise_append.mpr ⟨l.sorted.sublist hsub, List.pairwise_singleton _ _, ?_⟩
    intro d hd e he
    rw [List.mem_singleton.mp he]
    exact l.lt_of_mem (hsub.subset hd)
  recorded := by
    intro e he
    rcases List.mem_append.mp he with he | he
    · have hmem := (room_sublist cap l.remaining).subset he
      rw [List.getElem?_append_left (l.lt_of_mem hmem)]
      exact l.recorded e hmem
    · rw [List.mem_singleton.mp he]
      exact List.getElem?_concat_length

/-- The arrivals that satisfy `p` stay, the others are withdrawn. -/
def restrict (l : Ledger α) (p : ℕ × α → Bool) : Ledger α where
  arrivals := l.arrivals
  remaining := l.remaining.filter p
  sorted := l.sorted.filter p
  recorded e he := l.recorded e (List.mem_filter.mp he).1

/-- The arrivals with key `k` are withdrawn. -/
def withdraw {κ : Type} [DecidableEq κ] (key : α → κ) (l : Ledger α) (k : κ) : Ledger α :=
  l.restrict fun e => key e.2 ≠ k

/-- The arrival number `n` is withdrawn. -/
def without (l : Ledger α) (n : ℕ) : Ledger α := l.restrict fun e => e.1 ≠ n

/-- Everything is withdrawn. -/
def clear (l : Ledger α) : Ledger α := l.restrict fun _ => false

/-- What remains. -/
def contents (l : Ledger α) : List α := l.remaining.map Prod.snd

/-! ## The contents -/

theorem contents_arrive (cap : ℕ) (l : Ledger α) (a : α) :
    (l.arrive cap a).contents = room cap l.contents ++ [a] := by
  rw [contents, arrive, List.map_append, map_room]
  rfl

theorem length_contents_arrive {cap : ℕ} (hcap : 0 < cap) {l : Ledger α}
    (h : l.contents.length ≤ cap) (a : α) : (l.arrive cap a).contents.length ≤ cap := by
  rw [contents_arrive, List.length_append]
  exact length_room_lt hcap h

@[simp] theorem contents_clear (l : Ledger α) : l.clear.contents = [] :=
  congrArg (List.map Prod.snd) (List.filter_false l.remaining)

theorem contents_withdraw {κ : Type} [DecidableEq κ] (key : α → κ) (l : Ledger α) (k : κ) :
    (l.withdraw key k).contents = l.contents.filter fun a => key a ≠ k := by
  rw [contents, contents, List.filter_map]
  rfl

theorem eq_of_fst_eq (l : Ledger α) {d e : ℕ × α} (hd : d ∈ l.remaining) (he : e ∈ l.remaining)
    (h : d.1 = e.1) : d = e := by
  have hsnd := (l.recorded d hd).symm.trans (h ▸ l.recorded e he)
  exact Prod.ext h (Option.some.inj hsnd)

theorem eraseP_eq_filter {β κ : Type} [DecidableEq κ] (key : β → κ) {q : List β}
    (h : (q.map key).Nodup) (k : κ) :
    q.eraseP (fun b => key b = k) = q.filter fun b => key b ≠ k := by
  induction q with
  | nil => rfl
  | cons b q ih =>
    obtain ⟨hb, hq⟩ := List.nodup_cons.mp h
    by_cases hk : key b = k
    · rw [List.eraseP_cons_of_pos (by simpa using hk), List.filter_cons_of_neg (by simpa using hk)]
      have hother : ∀ c ∈ q, key c ≠ k := fun c hc he =>
        hb (hk.trans he.symm ▸ List.mem_map_of_mem hc)
      exact (List.filter_eq_self.mpr fun c hc => by simpa using hother c hc).symm
    · rw [List.eraseP_cons_of_neg (by simpa using hk), List.filter_cons_of_pos (by simpa using hk),
        ih hq]

section Keys

variable {κ : Type} [DecidableEq κ] {key : α → κ} {l : Ledger α}

theorem eraseP_contents (h : (l.contents.map key).Nodup) (k : κ) :
    l.contents.eraseP (fun a => key a = k) = (l.withdraw key k).contents := by
  rw [eraseP_eq_filter key h, contents_withdraw]

theorem withdraw_eq_without (h : (l.contents.map key).Nodup) {e : ℕ × α} (he : e ∈ l.remaining) :
    l.withdraw key (key e.2) = l.without e.1 := by
  have hinj : ∀ d ∈ l.remaining, key d.2 = key e.2 ↔ d.1 = e.1 := by
    intro d hd
    rw [contents, List.map_map] at h
    exact ⟨fun hk => congrArg Prod.fst (List.inj_on_of_nodup_map h hd he hk),
      fun hn => congrArg (key ·.2) (l.eq_of_fst_eq hd he hn)⟩
  have hfilter : (l.remaining.filter fun d => key d.2 ≠ key e.2) =
      l.remaining.filter fun d => d.1 ≠ e.1 :=
    List.filter_congr fun d hd => decide_eq_decide.mpr (hinj d hd).not
  unfold withdraw without restrict
  simp only [hfilter]

/-- **The one that is meant.** With distinct keys, a search by the key of an arrival takes it away
and no other. -/
theorem eraseP_contents_of_mem (h : (l.contents.map key).Nodup) {e : ℕ × α}
    (he : e ∈ l.remaining) :
    l.contents.eraseP (fun a => key a = key e.2) = (l.without e.1).contents := by
  rw [eraseP_contents h, withdraw_eq_without h he]

end Keys

end Ledger
