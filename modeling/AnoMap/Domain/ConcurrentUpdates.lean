import AnoMap.Domain.Camera
import AnoMap.Lib.Machine
import Mathlib.Data.List.Permutation

/-!
# Concurrent updates of the camera store

An update takes the store's lock once for every entry it reads and once more for the list. Several
workers may be updating the store at a time.

* `Updates`, `step`: calls in progress, one locked section at a time.
* `updateFromJson_fst`: a call that runs alone is `updateFromJson`.
* `Atomic`: with no call in progress, the store is as if the calls had been made one after the other,
  and the URLs of the listed cameras come from the same list.
* `Intact`: when a call ends, the URLs it has put into the table are still there, but for those that
  another call in progress has put in as well.
* `Inv.step`: what holds of the store while calls are in progress.
* **`update_atomic`**: a run whose calls all end intact is atomic.
-/

set_option autoImplicit false

namespace AnoMap

namespace Domain

namespace CameraStore

/-! ## Calls in progress -/

/-- The entries a call puts into the table, before it throws or ends. -/
def entriesOf : Json → List (CameraData × String)
  | .array items => entriesBefore items
  | _ => []

/-- A call in progress: the entries whose URLs it has put into the table, and those to come. -/
structure Call where
  parsed : Json
  written : List (CameraData × String)
  todo : List (CameraData × String)

/-- The cameras whose URLs the call has put in. -/
def Call.cameraIds (call : Call) : List String := call.written.map fun e => e.1.cameraId

/-- The store, the calls in progress, and the entries of the list that `data` comes from. -/
structure Updates where
  store : CameraStore
  calls : List Call
  source : Option (List (CameraData × String))

/-- A worker enters `updateFromJson`, or the `i`-th call in progress runs its next section. -/
inductive StoreEvent where
  | start (parsed : Json)
  | run (i : ℕ)

namespace Updates

/-- No call in progress. -/
def idle (s : CameraStore) : Updates := ⟨s, [], none⟩

/-- The end of a call: the list is replaced if the text was one that reads well. -/
def finish (u : Updates) (i : ℕ) (call : Call) : Updates × List (List CameraData) :=
  match listed call.parsed with
  | some _ =>
    (⟨{ u.store with data := call.written.map Prod.fst }, u.calls.eraseIdx i, some call.written⟩,
      [call.written.map Prod.fst])
  | none => ({ u with calls := u.calls.eraseIdx i }, [])

/-- One event, with the snapshots handed to callbacks. -/
def step (u : Updates) : StoreEvent → Updates × List (List CameraData)
  | .start parsed => ({ u with calls := u.calls ++ [⟨parsed, [], entriesOf parsed⟩] }, [])
  | .run i =>
    match u.calls[i]? with
    | none => (u, [])
    | some call =>
      match call.todo with
      | e :: todo =>
        ({ u with
            store := { u.store with table := setSourceUrl u.store.table e.1.cameraId e.2 }
            calls := u.calls.set i ⟨call.parsed, call.written ++ [e], todo⟩ }, [])
      | [] => u.finish i call

/-- The state after a run. -/
def after (s : CameraStore) (es : List StoreEvent) : Updates := Machine.final step (idle s) es

end Updates

/-! ## The statement -/

/-- Calls made one after the other. -/
def serial (s : CameraStore) (texts : List Json) : CameraStore :=
  texts.foldl (fun s parsed => (s.updateFromJson parsed).1) s

/-- The texts of the calls of a run. -/
def texts (es : List StoreEvent) : List Json :=
  es.filterMap fun
    | .start parsed => some parsed
    | .run _ => none

/-- The URL the table has for a camera. -/
def urlIn (table : KeyMap String CameraStruct) (cameraId : String) : Option String :=
  (table.get? cameraId).map CameraStruct.sourceUrl

/-- The URL a list has for a camera. -/
def lastUrl (es : List (CameraData × String)) (cameraId : String) : Option String :=
  (lastListed es cameraId).map Prod.snd

/-- **The calls were atomic.** -/
structure Atomic (s : CameraStore) (es : List StoreEvent) : Prop where
  serial : ∃ order, order.Perm (texts es) ∧ (Updates.after s es).store = s.serial order
  source : ∀ entries, (Updates.after s es).source = some entries →
    (Updates.after s es).store.data = entries.map Prod.fst ∧
      ∀ e ∈ entries, urlIn (Updates.after s es).store.table e.1.cameraId =
        lastUrl entries e.1.cameraId

/-- No other call in progress has put a URL of the camera into the table. -/
def Updates.NoOther (u : Updates) (i : ℕ) (cameraId : String) : Prop :=
  ∀ other ∈ u.calls.eraseIdx i, cameraId ∉ other.cameraIds

instance (u : Updates) (i : ℕ) (cameraId : String) : Decidable (u.NoOther i cameraId) :=
  inferInstanceAs (Decidable (∀ _ ∈ _, _))

/-- The URLs of a call are still in the table. One that throws has not put in another URL for a
camera of the list. -/
structure Stands (u : Updates) (i : ℕ) (call : Call) : Prop where
  urls : ∀ cid ∈ call.cameraIds, u.NoOther i cid → urlIn u.store.table cid = lastUrl call.written cid
  thrown : listed call.parsed = none → ∀ entries ∈ u.source, ∀ e ∈ entries,
    e.1.cameraId ∈ call.cameraIds → u.NoOther i e.1.cameraId →
      lastUrl call.written e.1.cameraId = lastUrl entries e.1.cameraId

/-- **The condition**: the URLs of a call stand when it ends. -/
def Intact (u : Updates) : StoreEvent → Prop
  | .start _ => True
  | .run i => ∀ call ∈ u.calls[i]?, call.todo = [] → Stands u i call

/-! ## URLs in the table -/

theorem lastUrl_eq_none_iff (es : List (CameraData × String)) (cid : String) :
    lastUrl es cid = none ↔ cid ∉ es.map fun e => e.1.cameraId := by
  rw [lastUrl, Option.map_eq_none_iff, lastListed, List.find?_eq_none]
  simp only [List.mem_reverse, decide_eq_true_eq, List.mem_map, not_exists, not_and]

/-- What differs between two tables is URLs. -/
def bare (c : CameraStruct) : CameraStruct := { c with sourceUrl := "" }

theorem eq_of_bare {c c' : CameraStruct} (h : bare c = bare c') :
    c = { c' with sourceUrl := c.sourceUrl } := by
  obtain ⟨deviceInfo, aiInfo, sourceUrl⟩ := c
  obtain ⟨hdevice, hai, -⟩ := CameraStruct.mk.inj h
  rw [← hdevice, ← hai]

theorem get?_setSourceUrls_of_mem (table : KeyMap String CameraStruct)
    {es : List (CameraData × String)} {cid url : String} (h : lastUrl es cid = some url) :
    (setSourceUrls table es).get? cid = some { table.getD cid with sourceUrl := url } := by
  obtain ⟨e, he, rfl⟩ := Option.map_eq_some_iff.mp h
  rw [get?_setSourceUrls, he]

theorem get?_setSourceUrls_of_notMem (table : KeyMap String CameraStruct)
    {es : List (CameraData × String)} {cid : String} (h : lastUrl es cid = none) :
    (setSourceUrls table es).get? cid = table.get? cid := by
  rw [get?_setSourceUrls, Option.map_eq_none_iff.mp h]

theorem bare_setSourceUrls (table : KeyMap String CameraStruct) (es : List (CameraData × String))
    (cid : String) : bare ((setSourceUrls table es).getD cid) = bare (table.getD cid) := by
  cases hl : lastUrl es cid with
  | none => rw [KeyMap.getD, get?_setSourceUrls_of_notMem table hl, KeyMap.getD]
  | some url =>
    rw [KeyMap.getD, get?_setSourceUrls_of_mem table hl]
    rfl

theorem entriesBefore_of_listed {items : List Json} {es : List (CameraData × String)}
    (h : listedItems items = .ok es) : entriesBefore items = es := by
  induction items generalizing es with
  | nil =>
    cases h
    rfl
  | cons item items ih =>
    rw [listedItems] at h
    rw [entriesBefore]
    cases hr : readItem item with
    | error e =>
      rw [hr] at h
      cases h
    | ok r =>
      rw [hr] at h
      cases hi : listedItems items with
      | error e =>
        rw [hi] at h
        cases h
      | ok es' =>
        rw [hi] at h
        cases h
        exact congrArg _ (ih hi)

theorem updateFromJson_fst (s : CameraStore) (parsed : Json) : (s.updateFromJson parsed).1 =
    ⟨if (listed parsed).isSome = true then (entriesOf parsed).map Prod.fst else s.data,
      setSourceUrls s.table (entriesOf parsed)⟩ := by
  cases parsed with
  | array items =>
    cases hi : listedItems items with
    | error e =>
      have hthrow := readItems_not_listed hi s.table []
      have htable := readItems_fst items s.table []
      rw [updateFromJson]
      cases hread : readItems items s.table [] with
      | mk table r =>
        rw [hread] at hthrow htable
        obtain rfl : r = .error e := hthrow
        obtain rfl : table = setSourceUrls s.table (entriesBefore items) := htable
        rw [listed, hi]
        rfl
    | ok es =>
      have hl : listed (.array items) = some es := by
        rw [listed, hi]
        rfl
      rw [updateFromJson_listed hl, hl, entriesOf, entriesBefore_of_listed hi]
      rfl
  | _ => rfl

theorem serial_concat (s : CameraStore) (texts : List Json) (parsed : Json) :
    s.serial (texts ++ [parsed]) = ((s.serial texts).updateFromJson parsed).1 := by
  rw [serial, List.foldl_append]
  rfl

/-! ## The calls in progress -/

theorem exists_calls {calls : List Call} {i : ℕ} {call : Call} (h : calls[i]? = some call) :
    ∃ before after, calls = before ++ call :: after ∧ calls.eraseIdx i = before ++ after ∧
      ∀ call', calls.set i call' = before ++ call' :: after := by
  obtain ⟨hi, rfl⟩ := List.getElem?_eq_some_iff.mp h
  refine ⟨calls.take i, calls.drop (i + 1), ?_, List.eraseIdx_eq_take_drop_succ _ _, fun call' =>
    List.set_eq_take_append_cons_drop ▸ if_pos hi⟩
  rw [List.getElem_cons_drop, List.take_append_drop]

/-- A call in progress has put in a URL of the camera. -/
def Touched (u : Updates) (cameraId : String) : Prop := ∃ call ∈ u.calls, cameraId ∈ call.cameraIds

/-- **What holds while calls are in progress**, with those that have ended made one after the other
in the order of their ends. -/
structure Inv (s : CameraStore) (order : List Json) (u : Updates) : Prop where
  data : u.store.data = (s.serial order).data
  bare : ∀ cid, bare (u.store.table.getD cid) = bare ((s.serial order).table.getD cid)
  table : ∀ cid, u.store.table.get? cid = (s.serial order).table.get? cid ∨ Touched u cid
  calls : ∀ call ∈ u.calls, call.written ++ call.todo = entriesOf call.parsed
  source : ∀ entries ∈ u.source, u.store.data = entries.map Prod.fst ∧
    ∀ e ∈ entries, urlIn u.store.table e.1.cameraId = lastUrl entries e.1.cameraId ∨
      Touched u e.1.cameraId

theorem inv_idle (s : CameraStore) : Inv s [] (.idle s) where
  data := rfl
  bare := fun _ => rfl
  table := fun _ => .inl rfl
  calls := fun _ h => absurd h List.not_mem_nil
  source := nofun

theorem Inv.start {s : CameraStore} {order : List Json} {u : Updates} (h : Inv s order u)
    (parsed : Json) : Inv s order (u.step (.start parsed)).1 := by
  have htouched : ∀ cid, Touched u cid → Touched (u.step (.start parsed)).1 cid :=
    fun cid ⟨call, hc, hm⟩ => ⟨call, List.mem_append_left _ hc, hm⟩
  refine ⟨h.data, h.bare, fun cid => (h.table cid).imp_right (htouched cid), fun call hc => ?_,
    fun entries he => ⟨(h.source entries he).1, fun e hm =>
      ((h.source entries he).2 e hm).imp_right (htouched _)⟩⟩
  rcases List.mem_append.mp hc with hc | hc
  · exact h.calls call hc
  · rw [List.mem_singleton.mp hc]
    rfl

theorem touched_iff {u : Updates} {i : ℕ} {call : Call} (hi : u.calls[i]? = some call)
    (cid : String) : Touched u cid ↔ cid ∈ call.cameraIds ∨ ¬ u.NoOther i cid := by
  obtain ⟨before, after, hcalls, herase, -⟩ := exists_calls hi
  unfold Touched Updates.NoOther
  rw [hcalls] at herase ⊢
  rw [herase]
  simp only [List.mem_append, List.mem_cons]
  push Not
  constructor
  · rintro ⟨other, ho | rfl | ho, hm⟩
    · exact .inr ⟨other, .inl ho, hm⟩
    · exact .inl hm
    · exact .inr ⟨other, .inr ho, hm⟩
  · rintro (hm | ⟨other, ho, hm⟩)
    · exact ⟨call, .inr (.inl rfl), hm⟩
    · exact ⟨other, ho.imp_right .inr, hm⟩

theorem step_write {u : Updates} {i : ℕ} {call : Call} {e : CameraData × String}
    {todo : List (CameraData × String)} (hi : u.calls[i]? = some call)
    (htodo : call.todo = e :: todo) : (u.step (.run i)).1 =
      ⟨⟨u.store.data, setSourceUrl u.store.table e.1.cameraId e.2⟩,
        u.calls.set i ⟨call.parsed, call.written ++ [e], todo⟩, u.source⟩ := by
  rw [Updates.step, hi]
  dsimp only
  rw [htodo]

/-- The call has touched the camera of its URL, and those touched before stay so. -/
theorem touched_write {u : Updates} {i : ℕ} {call : Call} {e : CameraData × String}
    {todo : List (CameraData × String)} (hi : u.calls[i]? = some call)
    (htodo : call.todo = e :: todo) {cid : String} (h : cid = e.1.cameraId ∨ Touched u cid) :
    Touched (u.step (.run i)).1 cid := by
  obtain ⟨before, after, hcalls, -, hset⟩ := exists_calls hi
  have hmem : cid = e.1.cameraId ∨ cid ∈ call.cameraIds →
      cid ∈ (⟨call.parsed, call.written ++ [e], todo⟩ : Call).cameraIds := by
    intro hc
    rw [Call.cameraIds, List.map_append, List.mem_append]
    exact hc.symm.imp_right fun hh => List.mem_singleton.mpr hh
  rw [step_write hi htodo, Touched, hset]
  rcases h with hc | ⟨other, ho, hm⟩
  · exact ⟨_, List.mem_append_right _ List.mem_cons_self, hmem (.inl hc)⟩
  · rw [hcalls, List.mem_append, List.mem_cons] at ho
    rcases ho with ho | rfl | ho
    · exact ⟨other, List.mem_append_left _ ho, hm⟩
    · exact ⟨_, List.mem_append_right _ List.mem_cons_self, hmem (.inr hm)⟩
    · exact ⟨other, List.mem_append_right _ (List.mem_cons_of_mem _ ho), hm⟩

theorem Inv.write {s : CameraStore} {order : List Json} {u : Updates} (h : Inv s order u) {i : ℕ}
    {call : Call} {e : CameraData × String} {todo : List (CameraData × String)}
    (hi : u.calls[i]? = some call) (htodo : call.todo = e :: todo) :
    Inv s order (u.step (.run i)).1 := by
  have htouched : ∀ cid, cid = e.1.cameraId ∨ Touched u cid → Touched (u.step (.run i)).1 cid :=
    fun _ => touched_write hi htodo
  have hget : ∀ cid, cid ≠ e.1.cameraId →
      (setSourceUrl u.store.table e.1.cameraId e.2).get? cid = u.store.table.get? cid :=
    fun cid hc => KeyMap.get?_set_ne _ _ hc
  rw [step_write hi htodo] at htouched ⊢
  refine ⟨h.data, fun cid => ?_, fun cid => ?_, fun other ho => ?_, fun entries he => ?_⟩
  · exact (bare_setSourceUrls u.store.table [e] cid).trans (h.bare cid)
  · by_cases hc : cid = e.1.cameraId
    · exact .inr (htouched cid (.inl hc))
    · dsimp only
      rw [hget cid hc]
      exact (h.table cid).imp_right fun ht => htouched cid (.inr ht)
  · rcases List.mem_or_eq_of_mem_set ho with ho | rfl
    · exact h.calls other ho
    · rw [← h.calls call (List.mem_of_getElem? hi), htodo, List.append_assoc]
      rfl
  · obtain ⟨hdata, hurls⟩ := h.source entries he
    refine ⟨hdata, fun e' he' => ?_⟩
    by_cases hc : e'.1.cameraId = e.1.cameraId
    · exact .inr (htouched _ (.inl hc))
    · dsimp only
      rw [urlIn, hget _ hc]
      exact (hurls e' he').imp_right fun ht => htouched _ (.inr ht)

theorem finish_table (u : Updates) (i : ℕ) (call : Call) :
    (u.finish i call).1.store.table = u.store.table := by
  unfold Updates.finish
  split <;> rfl

theorem finish_calls (u : Updates) (i : ℕ) (call : Call) :
    (u.finish i call).1.calls = u.calls.eraseIdx i := by
  unfold Updates.finish
  split <;> rfl

theorem touched_finish {u : Updates} {i : ℕ} {cid : String} (h : ¬ u.NoOther i cid) (call : Call) :
    Touched (u.finish i call).1 cid := by
  rw [Touched, finish_calls]
  unfold Updates.NoOther at h
  push Not at h
  exact h

/-- **A camera that no other call has touched** is in the table as if the call had been made at its
end. -/
theorem Inv.get?_of_stands {s : CameraStore} {order : List Json} {u : Updates} (h : Inv s order u)
    {i : ℕ} {call : Call} (hi : u.calls[i]? = some call) (hstands : Stands u i call) {cid : String}
    (hno : u.NoOther i cid) : u.store.table.get? cid =
      (setSourceUrls (s.serial order).table call.written).get? cid := by
  cases hl : lastUrl call.written cid with
  | none =>
    have hnot := (lastUrl_eq_none_iff _ _).mp hl
    rw [get?_setSourceUrls_of_notMem _ hl]
    refine (h.table cid).resolve_right fun ht => ?_
    exact ((touched_iff hi cid).mp ht).elim hnot fun hother => hother hno
  | some url =>
    -- the URL is that of the call, and everything else is as it was
    have hmem : cid ∈ call.cameraIds := by
      by_contra hnot
      rw [(lastUrl_eq_none_iff _ _).mpr hnot] at hl
      cases hl
    have hurl := hstands.urls cid hmem hno
    rw [hl] at hurl
    obtain ⟨c, hc, rfl⟩ := Option.map_eq_some_iff.mp hurl
    have hbare := h.bare cid
    rw [KeyMap.getD, hc] at hbare
    rw [get?_setSourceUrls_of_mem _ hl, hc]
    exact congrArg some (eq_of_bare hbare)

theorem Inv.source_finish {s : CameraStore} {order : List Json} {u : Updates} (h : Inv s order u)
    {i : ℕ} {call : Call} (hi : u.calls[i]? = some call) (hstands : Stands u i call) :
    ∀ entries ∈ (u.finish i call).1.source,
      (u.finish i call).1.store.data = entries.map Prod.fst ∧ ∀ e ∈ entries,
        urlIn (u.finish i call).1.store.table e.1.cameraId = lastUrl entries e.1.cameraId ∨
          Touched (u.finish i call).1 e.1.cameraId := by
  have hown : ∀ entries, (∀ e ∈ entries, u.NoOther i e.1.cameraId →
      urlIn u.store.table e.1.cameraId = lastUrl entries e.1.cameraId) →
      ∀ e ∈ entries, urlIn u.store.table e.1.cameraId = lastUrl entries e.1.cameraId ∨
        Touched (u.finish i call).1 e.1.cameraId := by
    intro entries hurls e he
    by_cases hno : u.NoOther i e.1.cameraId
    · exact .inl (hurls e he hno)
    · exact .inr (touched_finish hno call)
  rw [finish_table]
  revert hown
  unfold Updates.finish
  cases hlisted : listed call.parsed with
  | some es =>
    rintro hown entries he
    obtain rfl := Option.some.inj he
    exact ⟨rfl, hown _ fun e hm hno => hstands.urls _ (List.mem_map_of_mem hm) hno⟩
  | none =>
    rintro hown entries he
    obtain ⟨hdata, hurls⟩ := h.source entries he
    refine ⟨hdata, hown _ fun e hm hno => (hurls e hm).elim id fun ht => ?_⟩
    have hmem := ((touched_iff hi _).mp ht).resolve_right fun hother => hother hno
    exact (hstands.urls _ hmem hno).trans (hstands.thrown hlisted entries he e hm hmem hno)

theorem Inv.finish {s : CameraStore} {order : List Json} {u : Updates} (h : Inv s order u) {i : ℕ}
    {call : Call} (hi : u.calls[i]? = some call) (htodo : call.todo = [])
    (hstands : Stands u i call) : Inv s (order ++ [call.parsed]) (u.finish i call).1 := by
  have hwritten : entriesOf call.parsed = call.written := by
    rw [← h.calls call (List.mem_of_getElem? hi), htodo, List.append_nil]
  have hserial := updateFromJson_fst (s.serial order) call.parsed
  rw [hwritten, ← serial_concat] at hserial
  refine ⟨?_, fun cid => ?_, fun cid => ?_, fun other ho => ?_, h.source_finish hi hstands⟩
  · rw [hserial]
    unfold Updates.finish
    cases listed call.parsed with
    | some es => rfl
    | none => exact h.data
  · rw [hserial, finish_table]
    exact (h.bare cid).trans (bare_setSourceUrls _ _ cid).symm
  · by_cases hno : u.NoOther i cid
    · left
      rw [hserial, finish_table]
      exact h.get?_of_stands hi hstands hno
    · exact .inr (touched_finish hno call)
  · rw [finish_calls] at ho
    exact h.calls other (List.mem_of_mem_eraseIdx ho)

theorem Inv.step {s : CameraStore} {order : List Json} {u : Updates} (h : Inv s order u)
    {e : StoreEvent} (he : Intact u e) :
    ∃ order', Inv s order' (u.step e).1 ∧ (order' ++ (u.step e).1.calls.map Call.parsed).Perm
      (order ++ u.calls.map Call.parsed ++ texts [e]) := by
  cases e with
  | start parsed =>
    refine ⟨order, h.start parsed, List.Perm.of_eq ?_⟩
    rw [Updates.step, List.map_append, List.append_assoc]
    rfl
  | run i =>
    rw [show texts [.run i] = [] from rfl, List.append_nil]
    cases hi : u.calls[i]? with
    | none =>
      refine ⟨order, ?_⟩
      rw [Updates.step, hi]
      exact ⟨h, .rfl⟩
    | some call =>
      obtain ⟨before, after, hcalls, herase, hset⟩ := exists_calls hi
      cases htodo : call.todo with
      | cons e todo =>
        refine ⟨order, h.write hi htodo, List.Perm.of_eq ?_⟩
        rw [step_write hi htodo]
        dsimp only
        rw [hset, hcalls, List.map_append, List.map_append, List.map_cons, List.map_cons]
      | nil =>
        have hstep : u.step (.run i) = u.finish i call := by
          rw [Updates.step, hi]
          dsimp only
          rw [htodo]
        refine ⟨order ++ [call.parsed], ?_, ?_⟩
        · rw [hstep]
          exact h.finish hi htodo (he call hi htodo)
        · rw [hstep, finish_calls, herase, hcalls, List.append_assoc, List.singleton_append,
            List.map_append, List.map_append, List.map_cons]
          exact List.Perm.append_left order List.perm_middle.symm

/-! ## The theorem -/

theorem inv_after {s : CameraStore} {es : List StoreEvent}
    (h : Machine.Along Updates.step Intact (.idle s) es) :
    ∃ order, Inv s order (Updates.after s es) ∧
      (order ++ (Updates.after s es).calls.map Call.parsed).Perm (texts es) := by
  induction es using List.reverseRecOn with
  | nil => exact ⟨[], inv_idle s, .nil⟩
  | append_singleton es e ih =>
    obtain ⟨hpre, he⟩ := (Machine.along_concat Updates.step _ es e).mp h
    obtain ⟨order, hinv, hperm⟩ := ih hpre
    obtain ⟨order', hinv', hperm'⟩ := hinv.step he
    rw [Updates.after, Machine.final_concat, texts, List.filterMap_append]
    exact ⟨order', hinv', hperm'.trans (hperm.append_right _)⟩

/-- **Atomic updates.** A run of concurrent calls that all end intact leaves the store as the calls
made one after the other would, with the URLs of the list it holds. -/
theorem update_atomic (s : CameraStore) (es : List StoreEvent)
    (h : Machine.Along Updates.step Intact (.idle s) es) (hidle : (Updates.after s es).calls = []) :
    Atomic s es := by
  obtain ⟨order, hinv, hperm⟩ := inv_after h
  have hnone : ∀ cid, ¬ Touched (Updates.after s es) cid := by
    rintro cid ⟨call, hc, -⟩
    rw [hidle] at hc
    exact absurd hc List.not_mem_nil
  rw [hidle, List.map_nil, List.append_nil] at hperm
  refine ⟨⟨order, hperm, ?_⟩, fun entries he => ?_⟩
  · have htable : (Updates.after s es).store.table = (s.serial order).table :=
      Finmap.ext_lookup fun cid => (hinv.table cid).resolve_right (hnone cid)
    have hdata := hinv.data
    revert htable hdata
    generalize (Updates.after s es).store = store
    rintro htable hdata
    obtain ⟨data, table⟩ := store
    obtain rfl := htable
    obtain rfl := hdata
    rfl
  · obtain ⟨hdata, hurls⟩ := hinv.source entries he
    exact ⟨hdata, fun e hm => (hurls e hm).resolve_right (hnone _)⟩

instance (u : Updates) (i : ℕ) (call : Call) : Decidable (Stands u i call) :=
  decidable_of_iff ((∀ cid ∈ call.cameraIds, u.NoOther i cid →
      urlIn u.store.table cid = lastUrl call.written cid) ∧
    (listed call.parsed = none → ∀ entries ∈ u.source, ∀ e ∈ entries,
      e.1.cameraId ∈ call.cameraIds → u.NoOther i e.1.cameraId →
        lastUrl call.written e.1.cameraId = lastUrl entries e.1.cameraId))
    ⟨fun h => ⟨h.1, h.2⟩, fun h => ⟨h.urls, h.thrown⟩⟩

instance (u : Updates) : ∀ e, Decidable (Intact u e)
  | .start _ => isTrue trivial
  | .run i => inferInstanceAs (Decidable (∀ call ∈ u.calls[i]?, call.todo = [] → Stands u i call))

/-- A list with one camera of `10.0.0.1`. -/
def sampleList (sourceUrl : String) (isOnline : Bool) : Json :=
  .array [.object [("ip", .string "10.0.0.1"), ("is_online", .bool isOnline),
    ("source_url", .string sourceUrl)]]

/-- Two lists with the same URLs, whose calls overlap. -/
theorem update_atomic_overlap : Atomic empty
    [.start (sampleList "rtsp://10.0.0.1/0/a" true), .start (sampleList "rtsp://10.0.0.1/0/a" false),
      .run 0, .run 1, .run 1, .run 0] :=
  update_atomic _ _ (by decide +kernel) (by decide +kernel)

/-- **Not atomic.** The second call puts in its URL and its list between the two sections of the
first. -/
theorem update_atomic_fails : ¬ Atomic empty
    [.start (sampleList "rtsp://10.0.0.1/0/a" true), .start (sampleList "rtsp://10.0.0.1/0/b" false),
      .run 0, .run 1, .run 1, .run 0] := by
  rintro ⟨⟨order, hperm, hstore⟩, -⟩
  rcases List.perm_pair.mp hperm with rfl | rfl
  · have hdata := congrArg CameraStore.data hstore
    revert hdata
    decide +kernel
  · have hurl := congrArg (fun s => urlIn s.table "10.0.0.1/0") hstore
    revert hurl
    decide +kernel

end CameraStore

end Domain

end AnoMap
