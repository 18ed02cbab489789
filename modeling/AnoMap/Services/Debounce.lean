import AnoMap.Services.DeviceCommands

/-!
# The debounce timer

The modes and switches of device commands are put together for a second before they are sent. Each
device then gets one message.

* `NetworkBridge.step`, `reach`: runs of the bridge.
* `lastGiven`: the last value of a field that some commands gave a device, movements left out.
* `Tracks`: what waits is what was given since the timer expired, and the timer runs while anything
  waits.
* `Debounces`: what is claimed of the timer, of the messages when it expires and of those sent at
  once.
* **`debounce_coalesces`**: it holds of every run; commands without an address are ignored.
-/

set_option autoImplicit false

namespace AnoMap

namespace Services

/-! ## The statement -/

/-- The fields that are given, by name. -/
def DeviceState.fields (st : DeviceState) : List (String × String) :=
  (Field.all.filter fun F => st.get F ≠ "").map fun F => (F.name, st.get F)

/-- The commands since the timer expired. -/
def sinceExpiry (es : List BridgeEvent) : List (String × DeviceState) :=
  es.foldl (fun calls e =>
    match e with
    | .sendDevice ip cmd => calls ++ [(ip, cmd)]
    | .timeout => []) []

/-- The last value of the field given for the device: of the motor, the last mode. -/
def lastGiven (calls : List (String × DeviceState)) (d : String) (F : Field) : Option String :=
  (calls.reverse.find? fun c => c.1 = d ∧ c.2.Leaves F).map fun c => c.2.get F

namespace NetworkBridge

def step (b : NetworkBridge) : BridgeEvent → NetworkBridge × List DeviceMessage
  | .sendDevice ip cmd => b.sendDevice ip cmd
  | .timeout => b.timeout

/-- The bridge after a run. -/
def reach (es : List BridgeEvent) : NetworkBridge := Machine.final step init es

/-- Some field of the device waits. -/
def Waits (b : NetworkBridge) (d : String) : Prop := ∃ F, (b.pending d).get F ≠ ""

/-- **Debouncing**, after a run. `Answered` says for which devices an action is sent at once. -/
structure Debounces (Answered : String → Prop) (es : List BridgeEvent) : Prop where
  timer : ∀ d, (reach es).Waits d → (reach es).debounceTimer = true
  once : (reach es).debounceTimer = true → ((reach es).timeout.2.map DeviceMessage.device).Nodup ∧
    ∀ d, d ∈ (reach es).timeout.2.map DeviceMessage.device ↔ (reach es).Waits d
  values : (reach es).debounceTimer = true → ∀ m ∈ (reach es).timeout.2,
    m.state.fields = Field.all.filterMap fun F =>
      (lastGiven (sinceExpiry es) m.device F).map fun v => (F.name, v)
  cleared : (reach es).debounceTimer = true → (reach es).timeout.1.pendingStates = .empty
  atOnce : ∀ ip cmd, Answered ip → cmd.isAction → ∃ m, ((reach es).sendDevice ip cmd).2 = [m] ∧
    m.device = ip ∧ m.state.fields = cmd.fields

end NetworkBridge

/-! ## Fields -/

theorem DeviceState.fields_eq (st : DeviceState) : st.fields =
    Field.all.filterMap fun F => if st.get F = "" then none else some (F.name, st.get F) := by
  rw [fields, ← List.filterMap_eq_map, List.filterMap_filter]
  refine List.filterMap_congr fun F _ => ?_
  by_cases h : st.get F = "" <;> simp [h]

theorem DeviceState.eq_empty_iff (st : DeviceState) : st = .empty ↔ ∀ F, st.get F = "" := by
  constructor
  · rintro rfl F
    exact get_empty F
  · intro h
    obtain ⟨motor, ir, heater⟩ := st
    have hmotor : motor = "" := h .motor
    have hir : ir = "" := h .ir
    have hheater : heater = "" := h .heater
    rw [hmotor, hir, hheater]
    rfl

theorem sinceExpiry_concat (es : List BridgeEvent) (e : BridgeEvent) :
    sinceExpiry (es ++ [e]) =
      match e with
      | .sendDevice ip cmd => sinceExpiry es ++ [(ip, cmd)]
      | .timeout => [] := by
  rw [sinceExpiry, List.foldl_append]
  rfl

theorem lastGiven_concat (calls : List (String × DeviceState)) (ip : String) (cmd : DeviceState)
    (d : String) (F : Field) : lastGiven (calls ++ [(ip, cmd)]) d F =
      if d = ip ∧ cmd.Leaves F then some (cmd.get F) else lastGiven calls d F := by
  rw [lastGiven, List.reverse_append, List.reverse_singleton, List.singleton_append,
    List.find?_cons]
  by_cases h : d = ip ∧ cmd.Leaves F
  · obtain ⟨rfl, hl⟩ := h
    simp [hl]
  · rw [if_neg h, decide_eq_false fun hh => h ⟨hh.1.symm, hh.2⟩]
    rfl

theorem lastGiven_ne {calls : List (String × DeviceState)} {d : String} {F : Field} {v : String}
    (h : lastGiven calls d F = some v) : v ≠ "" := by
  obtain ⟨c, hc, rfl⟩ := Option.map_eq_some_iff.mp h
  have hgiven : c.1 = d ∧ c.2.Leaves F := by simpa using List.find?_some hc
  exact hgiven.2.1

/-! ## What waits -/

namespace NetworkBridge

/-- What waits is what was given, nothing waits without an address, and the timer runs while
anything waits. -/
structure Tracks (calls : List (String × DeviceState)) (b : NetworkBridge) : Prop where
  given : ∀ d, d ≠ "" → ∀ F, (b.pending d).get F = (lastGiven calls d F).getD ""
  nameless : ∀ F, (b.pending "").get F = ""
  armed : b.debounceTimer = false → ∀ d F, (b.pending d).get F = ""

theorem tracks_init : Tracks [] init :=
  ⟨fun _ _ F => DeviceState.get_empty F, DeviceState.get_empty, fun _ _ => DeviceState.get_empty⟩

theorem Tracks.sendDevice {calls : List (String × DeviceState)} {b : NetworkBridge}
    (h : Tracks calls b) (ip : String) (cmd : DeviceState) :
    Tracks (calls ++ [(ip, cmd)]) (b.sendDevice ip cmd).1 := by
  by_cases hip : ip = ""
  · subst hip
    rw [NetworkBridge.sendDevice, if_pos rfl]
    refine ⟨fun d hd F => ?_, h.nameless, h.armed⟩
    rw [lastGiven_concat, if_neg fun hh => hd hh.1]
    exact h.given d hd F
  · have hpending : ∀ d F, ((b.sendDevice ip cmd).1.pending d).get F =
        if d = ip ∧ cmd.Leaves F then cmd.get F else (b.pending d).get F := by
      intro d F
      rw [NetworkBridge.sendDevice, if_neg hip, pending, OrderedMap.getD_set]
      by_cases hd : d = ip
      · rw [if_pos hd, DeviceState.get_merge, hd]
        simp only [true_and]
      · rw [if_neg hd, if_neg fun hh => hd hh.1]
        rfl
    refine ⟨fun d hd F => ?_, fun F => ?_, fun htimer d F => ?_⟩
    · rw [hpending, lastGiven_concat, h.given d hd]
      split_ifs <;> rfl
    · rw [hpending, if_neg fun hh => hip hh.1.symm]
      exact h.nameless F
    · rw [NetworkBridge.sendDevice, if_neg hip] at htimer
      obtain ⟨ht, hup⟩ := Bool.or_eq_false_iff.mp htimer
      rw [hpending, if_neg fun hh => of_decide_eq_false hup (DeviceState.updates_of_leaves hh.2)]
      exact h.armed ht d F

theorem Tracks.timeout {calls : List (String × DeviceState)} {b : NetworkBridge}
    (h : Tracks calls b) : Tracks [] b.timeout.1 := by
  have hnone : ∀ d F, (b.timeout.1.pending d).get F = "" := by
    intro d F
    unfold NetworkBridge.timeout
    cases ht : b.debounceTimer with
    | false => exact h.armed ht d F
    | true => exact DeviceState.get_empty F
  exact ⟨fun d _ F => hnone d F, hnone "", fun _ => hnone⟩

/-- **What waits is tracked** in every run. -/
theorem tracks_reach (es : List BridgeEvent) : Tracks (sinceExpiry es) (reach es) := by
  refine Machine.history step (fun es b => Tracks (sinceExpiry es) b) tracks_init
    (fun pre b e h => ?_) es
  rw [sinceExpiry_concat]
  cases e with
  | sendDevice ip cmd => exact h.sendDevice ip cmd
  | timeout => exact h.timeout

/-! ## The messages of an expiry -/

theorem waits_iff (b : NetworkBridge) (d : String) : b.Waits d ↔ b.pending d ≠ .empty := by
  rw [ne_eq, DeviceState.eq_empty_iff, not_forall]
  rfl

theorem timeout_eq {b : NetworkBridge} (ht : b.debounceTimer = true) :
    b.timeout = (⟨.empty, false⟩,
      (b.pendingStates.entries.filter fun e => e.2 ≠ .empty).map fun e => ⟨e.1, e.2⟩) := by
  rw [timeout, if_pos ht]
  rfl

/-- A message is sent for every device that has something waiting, with what waits. -/
theorem mem_timeout_iff {b : NetworkBridge} (ht : b.debounceTimer = true) (m : DeviceMessage) :
    m ∈ b.timeout.2 ↔ b.Waits m.device ∧ m.state = b.pending m.device := by
  have hentry : m ∈ b.timeout.2 ↔ b.pendingStates.get? m.device = some m.state ∧
      m.state ≠ .empty := by
    rw [timeout_eq ht, List.mem_map, ← OrderedMap.mem_entries_iff]
    constructor
    · rintro ⟨e, he, rfl⟩
      obtain ⟨he, hne⟩ := List.mem_filter.mp he
      exact ⟨he, of_decide_eq_true hne⟩
    · rintro ⟨he, hne⟩
      exact ⟨(m.device, m.state), List.mem_filter.mpr ⟨he, decide_eq_true hne⟩, rfl⟩
  rw [hentry, waits_iff, pending, OrderedMap.getD]
  cases b.pendingStates.get? m.device with
  | none => exact iff_of_false (fun h => Option.some_ne_none _ h.1.symm) fun h => h.1 rfl
  | some st =>
    constructor
    · rintro ⟨heq, hne⟩
      obtain rfl := Option.some.inj heq
      exact ⟨hne, rfl⟩
    · rintro ⟨hne, heq⟩
      rw [heq]
      exact ⟨rfl, hne⟩

theorem nodup_timeout {b : NetworkBridge} (ht : b.debounceTimer = true) :
    (b.timeout.2.map DeviceMessage.device).Nodup := by
  rw [timeout_eq ht, List.map_map]
  exact b.pendingStates.nodup_keys.sublist (List.filter_sublist.map Prod.fst)

theorem Tracks.fields_eq {calls : List (String × DeviceState)} {b : NetworkBridge}
    (h : Tracks calls b) {d : String} (hd : b.Waits d) : (b.pending d).fields =
      Field.all.filterMap fun F => (lastGiven calls d F).map fun v => (F.name, v) := by
  have hne : d ≠ "" := by
    rintro rfl
    obtain ⟨F, hF⟩ := hd
    exact hF (h.nameless F)
  rw [DeviceState.fields_eq]
  refine List.filterMap_congr fun F _ => ?_
  rw [h.given d hne]
  cases hl : lastGiven calls d F with
  | none => rfl
  | some v => exact if_neg (lastGiven_ne hl)

/-! ## The theorem -/

/-- **Debouncing coalesces without loss**: the timer runs while anything waits, each waiting device
gets one message with the values given last when it expires, and an action is sent at once. -/
theorem debounce_coalesces (es : List BridgeEvent) : Debounces (· ≠ "") es := by
  have h := tracks_reach es
  refine ⟨fun d hd => ?_, fun ht => ⟨nodup_timeout ht, fun d => ?_⟩, fun ht m hm => ?_,
    fun ht => ?_, fun ip cmd hip hact => ?_⟩
  · by_contra htimer
    obtain ⟨F, hF⟩ := hd
    exact hF (h.armed (Bool.eq_false_of_not_eq_true htimer) d F)
  · rw [List.mem_map]
    constructor
    · rintro ⟨m, hm, rfl⟩
      exact ((mem_timeout_iff ht m).mp hm).1
    · intro hd
      exact ⟨⟨d, (reach es).pending d⟩, (mem_timeout_iff ht _).mpr ⟨hd, rfl⟩, rfl⟩
  · obtain ⟨hd, hstate⟩ := (mem_timeout_iff ht m).mp hm
    rw [hstate]
    exact h.fields_eq hd
  · rw [timeout_eq ht]
  · refine ⟨⟨ip, cmd⟩, ?_, rfl, rfl⟩
    rw [sendDevice, if_neg hip, if_pos hact]

/-- **No address.** A movement is given without one. -/
theorem debounce_coalesces_fails : ¬ Debounces (fun _ => True) [] := fun h => by
  obtain ⟨m, hm, -⟩ := h.atOnce "" ⟨"left", "", ""⟩ trivial (by decide)
  cases hm

end NetworkBridge

end Services

end AnoMap
