import AnoMap.Lib.Machine
import Mathlib.Data.Nat.Notation

/-!
# A channel with a kept value

Values are issued one after another. A value is sent at once, or kept until the next flush, or both;
a kept value takes the place of an older one. Every value carries the number of its issue.

* `Use`, `step`: issues, pauses of the clock and flushes, and what they send. Which values are kept
  is a predicate on them.
* `Sound`: what holds of every run in which no value is lost.
* `Fresh`: a flush finds nothing kept, or the last value issued is one that is kept.
* `issued_of_mem_sent`: the number beside a value is that of its issue.
* **`pairwise_outputs_iff`**: no value is sent after one issued later, if and only if every flush is
  fresh; `getLast?_outputs`: then, with nothing kept, the last value sent is the last one issued.
-/

set_option autoImplicit false

/-- `clock` counts the uses that are no flush. A value stands with the number of its issue. -/
structure Channel (α : Type) where
  clock : ℕ
  last : Option (ℕ × α)
  kept : Option (ℕ × α)

namespace Channel

/-- `issue v direct`: `v` is issued, and sent at once if `direct`. -/
inductive Use (α : Type) where
  | issue (v : α) (direct : Bool)
  | pass
  | flush

variable {α : Type} (keeps : α → Prop) [DecidablePred keeps]

def init : Channel α := ⟨0, none, none⟩

def step (c : Channel α) : Use α → Channel α × List (ℕ × α)
  | .issue v direct =>
    ({ clock := c.clock + 1
       last := some (c.clock, v)
       kept := if keeps v then some (c.clock, v) else c.kept },
      if direct then [(c.clock, v)] else [])
  | .pass => ({ c with clock := c.clock + 1 }, [])
  | .flush => ({ c with kept := none }, c.kept.toList)

/-- The channel after a run. -/
abbrev after (us : List (Use α)) : Channel α := Machine.final (step keeps) init us

/-- The values sent in a run. -/
abbrev sent (us : List (Use α)) : List (ℕ × α) := Machine.outputs (step keeps) init us

/-- A value that is issued is sent at once, or kept. -/
def Use.NotLost : Use α → Prop
  | .issue v direct => direct = true ∨ keeps v
  | .pass | .flush => True

/-- Nothing is newer than the last value issued, and that one is kept or was sent. A kept value is
the last one issued exactly when that one is of the kind that is kept. -/
structure Sound (c : Channel α) (sent : List (ℕ × α)) : Prop where
  last_lt : ∀ l, c.last = some l → l.1 < c.clock
  sent_le : ∀ e ∈ sent, ∃ l, c.last = some l ∧ e.1 ≤ l.1
  kept_le : ∀ e, c.kept = some e → ∃ l, c.last = some l ∧
    (keeps l.2 ∧ e = l ∨ ¬ keeps l.2 ∧ e.1 < l.1)
  last_mem : ∀ l, c.last = some l → c.kept = some l ∨ l ∈ sent

/-- A flush finds nothing kept, or the last value issued is one that is kept. -/
def Fresh (c : Channel α) : Use α → Prop
  | .flush => c.kept ≠ none → ∃ l, c.last = some l ∧ keeps l.2
  | .issue _ _ | .pass => True

variable {keeps}

theorem Sound.step {c : Channel α} {sent : List (ℕ × α)} (h : Sound keeps c sent) {u : Use α}
    (hu : u.NotLost keeps) : Sound keeps (c.step keeps u).1 (sent ++ (c.step keeps u).2) := by
  cases u with
  | pass =>
    rw [Channel.step, List.append_nil]
    exact ⟨fun l hl => Nat.lt_succ_of_lt (h.last_lt l hl), h.sent_le, h.kept_le, h.last_mem⟩
  | flush =>
    refine ⟨h.last_lt, fun e he => ?_, nofun, fun l hl => Or.inr (List.mem_append.mpr ?_)⟩
    · rcases List.mem_append.mp he with he | he
      · exact h.sent_le e he
      · obtain ⟨l, hl, ⟨-, rfl⟩ | ⟨-, hlt⟩⟩ := h.kept_le e (Option.mem_toList.mp he)
        · exact ⟨e, hl, Nat.le_refl _⟩
        · exact ⟨l, hl, Nat.le_of_lt hlt⟩
    · exact (h.last_mem l hl).symm.imp id Option.mem_toList.mpr
  | issue v direct =>
    have hold : ∀ e : ℕ × α, (∃ l, c.last = some l ∧ e.1 ≤ l.1) → e.1 < c.clock := by
      rintro e ⟨l, hl, hle⟩
      exact Nat.lt_of_le_of_lt hle (h.last_lt l hl)
    refine ⟨?_, fun e he => ⟨_, rfl, ?_⟩, fun e he => ⟨_, rfl, ?_⟩, ?_⟩
    · rintro l ⟨⟩
      exact Nat.lt_succ_self _
    · rcases List.mem_append.mp he with he | he
      · exact Nat.le_of_lt (hold e (h.sent_le e he))
      · cases direct with
        | true => exact Nat.le_of_eq (congrArg Prod.fst (List.mem_singleton.mp he))
        | false => exact absurd he List.not_mem_nil
    · by_cases hv : keeps v
      · refine Or.inl ⟨hv, ?_⟩
        rw [Channel.step, if_pos hv] at he
        exact (Option.some.inj he).symm
      · refine Or.inr ⟨hv, ?_⟩
        rw [Channel.step, if_neg hv] at he
        obtain ⟨l, hl, ⟨-, rfl⟩ | ⟨-, hlt⟩⟩ := h.kept_le e he
        · exact h.last_lt e hl
        · exact hold e ⟨l, hl, Nat.le_of_lt hlt⟩
    · rintro l ⟨⟩
      rcases hu with rfl | hv
      · exact Or.inr (List.mem_append_right _ (List.mem_singleton.mpr rfl))
      · exact Or.inl (if_pos hv)

theorem sound_after {us : List (Use α)} (hus : ∀ u ∈ us, u.NotLost keeps) :
    Sound keeps (after keeps us) (sent keeps us) := by
  induction us using List.reverseRecOn with
  | nil => exact ⟨nofun, nofun, nofun, nofun⟩
  | append_singleton us u ih =>
    rw [after, sent, Machine.final_concat, Machine.outputs_concat]
    exact (ih fun w hw => hus w (List.mem_append_left _ hw)).step
      (hus u (List.mem_append_right _ (List.mem_singleton.mpr rfl)))

/-- **One use** sends nothing older than what was sent if and only if it is fresh. -/
theorem Sound.fresh_iff {c : Channel α} {sent : List (ℕ × α)} (h : Sound keeps c sent)
    (u : Use α) : Fresh keeps c u ↔ ∀ e ∈ sent, ∀ d ∈ (c.step keeps u).2, e.1 ≤ d.1 := by
  cases u with
  | pass => exact ⟨fun _ _ _ d hd => absurd hd List.not_mem_nil, fun _ => trivial⟩
  | issue v direct =>
    refine ⟨fun _ e he d hd => ?_, fun _ => trivial⟩
    obtain ⟨l, hl, hle⟩ := h.sent_le e he
    cases direct with
    | true =>
      rw [List.mem_singleton.mp hd]
      exact Nat.le_of_lt (Nat.lt_of_le_of_lt hle (h.last_lt l hl))
    | false => exact absurd hd List.not_mem_nil
  | flush =>
    constructor
    · intro hf e he d hd
      have hd := Option.mem_toList.mp hd
      obtain ⟨l, hl, hkeeps⟩ := hf (by rw [hd]; nofun)
      obtain ⟨k, hk, hle⟩ := h.sent_le e he
      obtain ⟨m, hm, ⟨-, rfl⟩ | ⟨hn, -⟩⟩ := h.kept_le d hd
      · rwa [Option.some.inj (hk.symm.trans hm)] at hle
      · exact absurd (Option.some.inj (hl.symm.trans hm) ▸ hkeeps) hn
    · intro hle hkept
      obtain ⟨e, he⟩ := Option.ne_none_iff_exists'.mp hkept
      obtain ⟨l, hl, ⟨hk, -⟩ | ⟨-, hlt⟩⟩ := h.kept_le e he
      · exact ⟨l, hl, hk⟩
      · -- The last value issued was sent, and it is newer than the kept one.
        rcases h.last_mem l hl with hkl | hmem
        · rw [Option.some.inj (he.symm.trans hkl)] at hlt
          exact absurd hlt (Nat.lt_irrefl _)
        · exact absurd (hle l hmem e (Option.mem_toList.mpr he)) (Nat.not_le_of_lt hlt)

theorem pairwise_step (c : Channel α) (u : Use α) :
    (c.step keeps u).2.Pairwise fun a b => a.1 ≤ b.1 := by
  cases u with
  | pass => exact .nil
  | issue v direct =>
    cases direct
    · exact .nil
    · exact List.pairwise_singleton _ _
  | flush =>
    rw [step]
    cases c.kept with
    | none => exact .nil
    | some e => exact List.pairwise_singleton _ _

/-- **In order, exactly.** No value is sent after one issued later if and only if every flush is
fresh. -/
theorem pairwise_outputs_iff {us : List (Use α)} (hus : ∀ u ∈ us, u.NotLost keeps) :
    (sent keeps us).Pairwise (fun a b => a.1 ≤ b.1) ↔
      Machine.Along (step keeps) (Fresh keeps) init us := by
  induction us using List.reverseRecOn with
  | nil => exact ⟨fun _ => trivial, fun _ => .nil⟩
  | append_singleton us u ih =>
    have hus' : ∀ w ∈ us, w.NotLost keeps := fun w hw => hus w (List.mem_append_left _ hw)
    rw [sent, Machine.outputs_concat, List.pairwise_append, ih hus', Machine.along_concat,
      (sound_after hus').fresh_iff u]
    exact and_congr_right fun _ => and_iff_right (pairwise_step _ u)

theorem along_fresh (hall : ∀ v, keeps v) (us : List (Use α)) :
    Machine.Along (step keeps) (Fresh keeps) init us := by
  refine (Machine.along_iff (step keeps) init us).mpr fun pre u post _ => ?_
  cases u with
  | pass => trivial
  | issue v direct => trivial
  | flush =>
    intro hkept
    obtain ⟨e, he⟩ := Option.ne_none_iff_exists'.mp hkept
    have hlost : ∀ w ∈ pre, w.NotLost keeps := fun w _ => by
      cases w with
      | issue v direct => exact Or.inr (hall v)
      | pass => trivial
      | flush => trivial
    obtain ⟨l, hl, -⟩ := (sound_after hlost).kept_le e he
    exact ⟨l, hl, hall l.2⟩

/-- **Settled.** When every flush is fresh and nothing is kept, the last value sent is the last one
issued. -/
theorem getLast?_outputs {us : List (Use α)} (hus : ∀ u ∈ us, u.NotLost keeps)
    (h : Machine.Along (step keeps) (Fresh keeps) init us) :
    (after keeps us).kept = none → (sent keeps us).getLast? = (after keeps us).last := by
  induction us using List.reverseRecOn with
  | nil => exact fun _ => rfl
  | append_singleton us u ih =>
    have hus' : ∀ w ∈ us, w.NotLost keeps := fun w hw => hus w (List.mem_append_left _ hw)
    obtain ⟨halong, hfresh⟩ := (Machine.along_concat _ _ us u).mp h
    have ih := ih hus' halong
    rw [after, sent, Machine.final_concat, Machine.outputs_concat]
    cases u with
    | pass =>
      rw [step, List.append_nil]
      exact ih
    | flush =>
      intro _
      show (sent keeps us ++ (after keeps us).kept.toList).getLast? = (after keeps us).last
      cases hkept : (after keeps us).kept with
      | none =>
        rw [Option.toList_none, List.append_nil]
        exact ih hkept
      | some e =>
        obtain ⟨l, hl, hkeeps⟩ := hfresh (by rw [hkept]; nofun)
        obtain ⟨m, hm, ⟨-, rfl⟩ | ⟨hn, -⟩⟩ := (sound_after hus').kept_le e hkept
        · rw [Option.toList_some, List.getLast?_concat, hm]
        · exact absurd (Option.some.inj (hl.symm.trans hm) ▸ hkeeps) hn
    | issue v direct =>
      intro hnone
      have hv : ¬ keeps v := fun hv => by
        rw [step, if_pos hv] at hnone
        cases hnone
      obtain rfl : direct = true :=
        (hus _ (List.mem_append_right _ (List.mem_singleton.mpr rfl))).resolve_right hv
      exact List.getLast?_concat

/-! ## The numbers of the issues -/

/-- The clock counts the use. -/
def Use.ticks : Use α → Bool
  | .issue _ _ | .pass => true
  | .flush => false

/-- The value was issued by the use its number counts. -/
def IssuedIn (us : List (Use α)) (e : ℕ × α) : Prop :=
  ∃ direct, (us.filter Use.ticks)[e.1]? = some (.issue e.2 direct)

theorem IssuedIn.append {us : List (Use α)} {e : ℕ × α} (h : IssuedIn us e) (vs : List (Use α)) :
    IssuedIn (us ++ vs) e := by
  obtain ⟨direct, h⟩ := h
  refine ⟨direct, ?_⟩
  rw [List.filter_append, List.getElem?_append_left (List.getElem?_eq_some_iff.mp h).1, h]

/-- Every value the channel knows of was issued by the use its number counts. -/
structure Numbered (us : List (Use α)) (c : Channel α) (sent : List (ℕ × α)) : Prop where
  clock : c.clock = (us.filter Use.ticks).length
  kept : ∀ e, c.kept = some e → IssuedIn us e
  sent : ∀ e ∈ sent, IssuedIn us e

theorem Numbered.step {us : List (Use α)} {c : Channel α} {sent : List (ℕ × α)}
    (h : Numbered us c sent) (u : Use α) :
    Numbered (us ++ [u]) (c.step keeps u).1 (sent ++ (c.step keeps u).2) := by
  have hsent : ∀ e ∈ sent, IssuedIn (us ++ [u]) e := fun e he => (h.sent e he).append _
  have hkept : ∀ e, c.kept = some e → IssuedIn (us ++ [u]) e := fun e he => (h.kept e he).append _
  cases u with
  | pass =>
    refine ⟨?_, hkept, fun e he => hsent e (by rwa [Channel.step, List.append_nil] at he)⟩
    rw [List.filter_append, List.length_append, ← h.clock]
    rfl
  | flush =>
    refine ⟨?_, nofun, fun e he => ?_⟩
    · rw [List.filter_append, List.length_append, ← h.clock]
      rfl
    · exact (List.mem_append.mp he).elim (hsent e) fun he => hkept e (Option.mem_toList.mp he)
  | issue v direct =>
    have hnew : IssuedIn (us ++ [.issue v direct]) (c.clock, v) := by
      refine ⟨direct, ?_⟩
      rw [List.filter_append, h.clock, List.getElem?_append_right (Nat.le_refl _), Nat.sub_self]
      rfl
    refine ⟨?_, fun e he => ?_, fun e he => ?_⟩
    · rw [List.filter_append, List.length_append, ← h.clock]
      rfl
    · rw [Channel.step] at he
      dsimp only at he
      split_ifs at he with hv
      · rwa [← Option.some.inj he]
      · exact hkept e he
    · rcases List.mem_append.mp he with he | he
      · exact hsent e he
      · cases direct with
        | true =>
          obtain rfl := List.mem_singleton.mp he
          exact hnew
        | false => exact absurd he List.not_mem_nil

theorem numbered_after (us : List (Use α)) : Numbered us (after keeps us) (sent keeps us) := by
  induction us using List.reverseRecOn with
  | nil => exact ⟨rfl, nofun, nofun⟩
  | append_singleton us u ih =>
    rw [after, sent, Machine.final_concat, Machine.outputs_concat]
    exact ih.step u

theorem issued_of_mem_sent {us : List (Use α)} {e : ℕ × α} (he : e ∈ sent keeps us) :
    IssuedIn us e := (numbered_after us).sent e he

end Channel
