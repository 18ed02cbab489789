import AnoMap.Domain.DeviceRuns
import AnoMap.Models.DeviceModel

/-!
# The rows of the device model

The device store and the device model, each snapshot of the store handed to the model in order.

* `Mirrors`: what the model owes one snapshot; `foldl_updateRow_indexed`: while the index is right
  a snapshot refreshes the rows it finds and appends the entries that have none.
* `mirrors_iff_newOnce`: one snapshot; `newOnce_camera_iff`: which camera lists make such a snapshot.
* **`mirrors_store_iff`**: the model mirrors the store throughout a run exactly when no camera list
  names an address twice that has no row yet.
-/

set_option autoImplicit false

namespace AnoMap

namespace Models

open Domain

namespace DeviceModel

/-- The addresses of the rows. -/
def ips (rows : List DeviceEntry) : List String := rows.map DeviceEntry.ip

/-- `byIp_` leads from each row's address to that row and to nothing else. -/
def Indexed (m : DeviceModel) : Prop :=
  ∀ ip idx, m.findIndexByIp ip = some idx ↔ ∃ r, m.devices[idx]? = some r ∧ r.ip = ip

/-- The last entry of a snapshot for an address. -/
def lastEntry (snapshot : List DeviceIntegrated) (ip : String) : Option DeviceIntegrated :=
  Keyed.first? DeviceIntegrated.ip snapshot.reverse ip

/-- What a model `m'` that was `m` owes a snapshot. -/
structure Mirrors (m : DeviceModel) (snapshot : List DeviceIntegrated) (m' : DeviceModel) :
    Prop where
  oneRow : ∀ ip ∈ DeviceStore.ips snapshot, (ips m'.devices).count ip = 1
  indexed : m'.Indexed
  last : ∀ r ∈ m'.devices, ∀ d, lastEntry snapshot r.ip = some d → r = .ofDevice d
  others : ∀ (idx : ℕ) (r : DeviceEntry), r.ip ∉ DeviceStore.ips snapshot →
    (m'.devices[idx]? = some r ↔ m.devices[idx]? = some r)

/-- The row after a snapshot. -/
def refresh (snapshot : List DeviceIntegrated) (r : DeviceEntry) : DeviceEntry :=
  match lastEntry snapshot r.ip with
  | some d => { DeviceEntry.ofDevice d with ip := r.ip }
  | none => r

/-- The entries without a row. -/
def newEntries (rows : List DeviceEntry) (snapshot : List DeviceIntegrated) :
    List DeviceIntegrated :=
  snapshot.filter fun d => d.ip ∉ ips rows

theorem lastEntry_concat (snapshot : List DeviceIntegrated) (d : DeviceIntegrated) (ip : String) :
    lastEntry (snapshot ++ [d]) ip = if d.ip = ip then some d else lastEntry snapshot ip := by
  rw [lastEntry, List.reverse_append, List.reverse_singleton, List.singleton_append,
    Keyed.first?_cons]
  rfl

theorem lastEntry_eq_none_iff {snapshot : List DeviceIntegrated} {ip : String} :
    lastEntry snapshot ip = none ↔ ip ∉ DeviceStore.ips snapshot := by
  rw [lastEntry, Keyed.first?_eq_none_iff, List.map_reverse, List.mem_reverse]
  rfl

theorem refresh_concat (snapshot : List DeviceIntegrated) (d : DeviceIntegrated) (r : DeviceEntry) :
    refresh (snapshot ++ [d]) r =
      if d.ip = r.ip then { DeviceEntry.ofDevice d with ip := r.ip } else refresh snapshot r := by
  unfold refresh
  rw [lastEntry_concat]
  split_ifs <;> rfl

@[simp] theorem ip_refresh (snapshot : List DeviceIntegrated) (r : DeviceEntry) :
    (refresh snapshot r).ip = r.ip := by
  unfold refresh
  cases lastEntry snapshot r.ip <;> rfl

theorem refresh_of_some {snapshot : List DeviceIntegrated} {r : DeviceEntry} {d : DeviceIntegrated}
    (h : lastEntry snapshot r.ip = some d) : refresh snapshot r = .ofDevice d := by
  have hip : d.ip = r.ip := Keyed.key_of_first? h
  unfold refresh
  rw [h]
  dsimp only
  rw [← hip]
  rfl

theorem refresh_of_notMem {snapshot : List DeviceIntegrated} {r : DeviceEntry}
    (h : r.ip ∉ DeviceStore.ips snapshot) : refresh snapshot r = r := by
  unfold refresh
  rw [lastEntry_eq_none_iff.mpr h]

theorem Indexed.eq_none_iff {m : DeviceModel} (h : m.Indexed) {ip : String} :
    m.findIndexByIp ip = none ↔ ip ∉ ips m.devices := by
  rw [← not_iff_not, not_not, ← ne_eq, Option.ne_none_iff_exists']
  constructor
  · rintro ⟨idx, hidx⟩
    obtain ⟨r, hr, rfl⟩ := (h ip idx).mp hidx
    exact List.mem_map_of_mem (List.mem_of_getElem? hr)
  · intro hmem
    obtain ⟨r, hr, rfl⟩ := List.mem_map.mp hmem
    obtain ⟨idx, hidx⟩ := List.getElem?_of_mem hr
    exact ⟨idx, (h r.ip idx).mpr ⟨r, hidx, rfl⟩⟩

theorem newEntries_concat (rows : List DeviceEntry) (snapshot : List DeviceIntegrated)
    (d : DeviceIntegrated) : newEntries rows (snapshot ++ [d]) =
      newEntries rows snapshot ++ if d.ip ∈ ips rows then [] else [d] := by
  rw [newEntries, List.filter_append, List.filter_singleton]
  split_ifs with h
  · rw [decide_eq_false (not_not.mpr h)]; rfl
  · rw [decide_eq_true h]; rfl

theorem modify_refresh {m : DeviceModel} (h : m.Indexed) {d : DeviceIntegrated} {idx : ℕ}
    (hf : m.findIndexByIp d.ip = some idx) (snapshot : List DeviceIntegrated)
    (extra : List DeviceEntry) :
    (m.devices.map (refresh snapshot) ++ extra).modify idx
        (fun entry => { DeviceEntry.ofDevice d with ip := entry.ip }) =
      m.devices.map (refresh (snapshot ++ [d])) ++ extra := by
  obtain ⟨r₀, hr₀, hip₀⟩ := (h d.ip idx).mp hf
  have hlt : idx < m.devices.length := (List.getElem?_eq_some_iff.mp hr₀).1
  refine List.ext_getElem? fun j => ?_
  rw [List.getElem?_modify]
  rcases Nat.lt_or_ge j m.devices.length with hj | hj
  · rw [List.getElem?_append_left (by rwa [List.length_map]),
      List.getElem?_append_left (by rwa [List.length_map]), List.getElem?_map, List.getElem?_map]
    cases hr : m.devices[j]? with
    | none => rfl
    | some r =>
      have hiff : idx = j ↔ d.ip = r.ip := by
        constructor
        · rintro rfl
          obtain rfl := Option.some.inj (hr₀.symm.trans hr)
          exact hip₀.symm
        · intro hip
          exact Option.some.inj (hf.symm.trans ((h d.ip j).mpr ⟨r, hr, hip.symm⟩))
      simp only [Option.map_some, Option.map_eq_map, refresh_concat, hiff, ip_refresh]
  · rw [List.getElem?_append_right (by rwa [List.length_map]),
      List.getElem?_append_right (by rwa [List.length_map]), List.length_map, List.length_map]
    simp only [show idx ≠ j by omega, if_false, Option.map_eq_map, Option.map_id']

/-- **The loop of `onStoreUpdated`**, whose lookups go through the index of the rows before it. -/
theorem foldl_updateRow_indexed {m : DeviceModel} (h : m.Indexed)
    (snapshot : List DeviceIntegrated) : snapshot.foldl updateRow m =
      ⟨m.devices.map (refresh snapshot) ++ (newEntries m.devices snapshot).map .ofDevice,
        m.byIp⟩ := by
  induction snapshot using List.reverseRecOn with
  | nil =>
    have hid : refresh [] = id := funext fun r => refresh_of_notMem List.not_mem_nil
    rw [hid, List.map_id]
    exact congrArg (fun rows => DeviceModel.mk rows m.byIp) (List.append_nil _).symm
  | append_singleton snapshot d ih =>
    rw [List.foldl_concat, ih, newEntries_concat]
    cases hf : m.findIndexByIp d.ip with
    | some idx =>
      have hmem : d.ip ∈ ips m.devices := by
        by_contra hnot
        exact absurd (h.eq_none_iff.mpr hnot) (by rw [hf]; nofun)
      rw [if_pos hmem, List.append_nil, ← modify_refresh h hf]
      unfold findIndexByIp at hf
      unfold updateRow findIndexByIp
      rw [hf]
    | none =>
      have hnot := h.eq_none_iff.mp hf
      have hrows : m.devices.map (refresh (snapshot ++ [d])) = m.devices.map (refresh snapshot) := by
        refine List.map_congr_left fun r hr => ?_
        rw [refresh_concat, if_neg fun e : d.ip = r.ip => hnot (e ▸ List.mem_map_of_mem hr)]
      rw [if_neg hnot, hrows, List.map_append, ← List.append_assoc]
      unfold findIndexByIp at hf
      unfold updateRow findIndexByIp
      rw [hf]
      rfl

/-! ## One snapshot -/

/-- No address without a row occurs twice. -/
def NewOnce (m : DeviceModel) (snapshot : List DeviceIntegrated) : Prop :=
  ∀ ip, ip ∉ ips m.devices → (DeviceStore.ips snapshot).count ip ≤ 1

theorem nodup_ips_of_indexed {m : DeviceModel} (h : m.Indexed) : (ips m.devices).Nodup := by
  rw [List.nodup_iff_getElem?_ne_getElem?]
  intro i j hij hlt he
  rw [ips, List.length_map] at hlt
  have hi : m.devices[i]? = some m.devices[i] := List.getElem?_eq_getElem (hij.trans hlt)
  have hj : m.devices[j]? = some m.devices[j] := List.getElem?_eq_getElem hlt
  rw [ips, List.getElem?_map, List.getElem?_map, hi, hj] at he
  have hip : m.devices[i].ip = m.devices[j].ip := Option.some.inj he
  have hfi := (h _ i).mpr ⟨_, hi, hip⟩
  have hfj := (h _ j).mpr ⟨_, hj, rfl⟩
  exact hij.ne (Option.some.inj (hfi.symm.trans hfj))

theorem devices_onStoreUpdated {m : DeviceModel} (h : m.Indexed)
    (snapshot : List DeviceIntegrated) : (m.onStoreUpdated snapshot).devices =
      m.devices.map (refresh snapshot) ++ (newEntries m.devices snapshot).map .ofDevice := by
  unfold onStoreUpdated
  rw [foldl_updateRow_indexed h]

theorem count_newEntries (rows : List DeviceEntry) (snapshot : List DeviceIntegrated)
    (ip : String) : ((newEntries rows snapshot).map DeviceIntegrated.ip).count ip =
      if ip ∈ ips rows then 0 else (DeviceStore.ips snapshot).count ip := by
  have hmap : (newEntries rows snapshot).map DeviceIntegrated.ip =
      (DeviceStore.ips snapshot).filter fun ip => ip ∉ ips rows := by
    rw [DeviceStore.ips, List.filter_map]
    rfl
  rw [hmap]
  split_ifs with hip
  · exact List.count_eq_zero.mpr fun hm => absurd hip (of_decide_eq_true (List.mem_filter.mp hm).2)
  · exact List.count_filter (by rwa [decide_eq_true_iff])

theorem ips_onStoreUpdated {m : DeviceModel} (h : m.Indexed) (snapshot : List DeviceIntegrated) :
    ips (m.onStoreUpdated snapshot).devices =
      ips m.devices ++ (newEntries m.devices snapshot).map DeviceIntegrated.ip := by
  rw [devices_onStoreUpdated h, ips, List.map_append, List.map_map, List.map_map]
  congr 1
  exact List.map_congr_left fun r _ => ip_refresh snapshot r

theorem count_ips_onStoreUpdated {m : DeviceModel} (h : m.Indexed)
    (snapshot : List DeviceIntegrated) (ip : String) :
    (ips (m.onStoreUpdated snapshot).devices).count ip =
      if ip ∈ ips m.devices then 1 else (DeviceStore.ips snapshot).count ip := by
  rw [ips_onStoreUpdated h, List.count_append, count_newEntries]
  split_ifs with hip
  · rw [List.count_eq_one_of_mem (nodup_ips_of_indexed h) hip]
  · rw [List.count_eq_zero.mpr hip, Nat.zero_add]

theorem indexed_onStoreUpdated {m : DeviceModel} {snapshot : List DeviceIntegrated}
    (h : (ips (m.onStoreUpdated snapshot).devices).Nodup) : (m.onStoreUpdated snapshot).Indexed :=
  fun ip idx => Keyed.get?_index_iff h ip idx

theorem indexed_empty : empty.Indexed := by
  refine fun _ _ => iff_of_false nofun ?_
  rintro ⟨_, hrow, -⟩
  cases hrow

theorem mem_ips_onStoreUpdated {m : DeviceModel} (h : m.Indexed) {snapshot : List DeviceIntegrated}
    {ip : String} : ip ∈ ips (m.onStoreUpdated snapshot).devices ↔
      ip ∈ ips m.devices ∨ ip ∈ DeviceStore.ips snapshot := by
  rw [← List.count_pos_iff, count_ips_onStoreUpdated h]
  split_ifs with hip
  · exact iff_of_true Nat.one_pos (Or.inl hip)
  · exact List.count_pos_iff.trans (or_iff_right hip).symm

/-- The last entry for an address without a row is the one entry for it. -/
theorem lastEntry_of_mem_newEntries {m : DeviceModel} {snapshot : List DeviceIntegrated}
    (hn : m.NewOnce snapshot) {d e : DeviceIntegrated} (he : e ∈ newEntries m.devices snapshot)
    (hd : lastEntry snapshot e.ip = some d) : d = e := by
  have hnd : ((newEntries m.devices snapshot).map DeviceIntegrated.ip).Nodup := by
    refine List.nodup_iff_count_le_one.mpr fun ip => ?_
    rw [count_newEntries]
    split_ifs with hip
    · exact Nat.zero_le 1
    · exact hn ip hip
  have hip : d.ip = e.ip := Keyed.key_of_first? hd
  have hmem : d ∈ newEntries m.devices snapshot := by
    refine List.mem_filter.mpr ⟨List.mem_reverse.mp (List.mem_of_find?_eq_some hd), ?_⟩
    rw [hip]
    exact (List.mem_filter.mp he).2
  exact List.inj_on_of_nodup_map hnd hmem he hip

theorem getElem?_onStoreUpdated {m : DeviceModel} (h : m.Indexed)
    {snapshot : List DeviceIntegrated} (idx : ℕ) {r : DeviceEntry}
    (hr : r.ip ∉ DeviceStore.ips snapshot) :
    (m.onStoreUpdated snapshot).devices[idx]? = some r ↔ m.devices[idx]? = some r := by
  rw [devices_onStoreUpdated h]
  rcases Nat.lt_or_ge idx m.devices.length with hlt | hge
  · rw [List.getElem?_append_left (by rwa [List.length_map]), List.getElem?_map]
    constructor
    · intro he
      obtain ⟨r₀, hr₀, rfl⟩ := Option.map_eq_some_iff.mp he
      rw [ip_refresh] at hr
      rw [refresh_of_notMem hr, hr₀]
    · intro he
      rw [he, Option.map_some, refresh_of_notMem hr]
  · refine iff_of_false (fun he => ?_) (fun he => ?_)
    · rw [List.getElem?_append_right (by rwa [List.length_map])] at he
      obtain ⟨d, hd, rfl⟩ := List.mem_map.mp (List.mem_of_getElem? he)
      exact hr (List.mem_map_of_mem (List.mem_filter.mp hd).1)
    · exact absurd (List.getElem?_eq_some_iff.mp he).1 (Nat.not_lt_of_le hge)

/-- **One snapshot** is mirrored by a model whose index is right if and only if no address without a
row occurs twice in it. -/
theorem mirrors_iff_newOnce {m : DeviceModel} (h : m.Indexed) (snapshot : List DeviceIntegrated) :
    Mirrors m snapshot (m.onStoreUpdated snapshot) ↔ m.NewOnce snapshot := by
  constructor
  · intro hm ip hip
    by_cases hs : ip ∈ DeviceStore.ips snapshot
    · have hone := hm.oneRow ip hs
      rw [count_ips_onStoreUpdated h, if_neg hip] at hone
      exact hone.le
    · rw [List.count_eq_zero.mpr hs]
      exact Nat.zero_le 1
  · intro hn
    have hcount : ∀ ip, (ips (m.onStoreUpdated snapshot).devices).count ip ≤ 1 := by
      intro ip
      rw [count_ips_onStoreUpdated h]
      split_ifs with hip
      · exact le_rfl
      · exact hn ip hip
    refine ⟨fun ip hs => ?_, indexed_onStoreUpdated (List.nodup_iff_count_le_one.mpr hcount),
      fun r hr d hd => ?_, fun idx r hr => getElem?_onStoreUpdated h idx hr⟩
    · exact (hcount ip).antisymm
        (List.count_pos_iff.mpr ((mem_ips_onStoreUpdated h).mpr (Or.inr hs)))
    · rw [devices_onStoreUpdated h, List.mem_append] at hr
      rcases hr with hr | hr
      · obtain ⟨r₀, -, rfl⟩ := List.mem_map.mp hr
        rw [ip_refresh] at hd
        exact refresh_of_some hd
      · obtain ⟨e, he, rfl⟩ := List.mem_map.mp hr
        rw [lastEntry_of_mem_newEntries hn he hd]

end DeviceModel

/-! ## The run -/

/-- The store and the model. -/
structure DeviceFeed where
  store : DeviceStore
  model : DeviceModel

/-- A packet. -/
inductive Update where
  | camera (parsed : Json)
  | available (timestamp : ℤ) (parsed : Json)

def Update.op : Update → DeviceStore.Op
  | .camera parsed => .camera parsed
  | .available timestamp parsed => .available timestamp parsed

namespace DeviceFeed

def init : DeviceFeed := ⟨.empty, .empty⟩

/-- One packet: the store's update, and what it hands on to the model. -/
def step (s : DeviceFeed) (u : Update) : DeviceFeed × List (List DeviceIntegrated) :=
  let r := s.store.step u.op
  (⟨r.1, r.2.foldl DeviceModel.onStoreUpdated s.model⟩, r.2)

/-- The model mirrors every snapshot of the run, right after it was handed over. -/
def MirrorsStore (us : List Update) : Prop :=
  Machine.Along step (fun s u => ∀ snapshot ∈ (s.step u).2,
    DeviceModel.Mirrors s.model snapshot (s.step u).1.model) init us

/-- An accepted camera list names no address twice that has no row yet. -/
def NamesNewOnce (s : DeviceFeed) (u : Update) : Prop :=
  ∀ parsed cs, u = .camera parsed → DeviceStore.listed parsed = some cs →
    ∀ ip, ip ∉ DeviceModel.ips s.model.devices → (cs.map (·.ip)).count ip ≤ 1

/-- The index of the model is right, and the addresses the store holds twice have rows. -/
def Invariant (s : DeviceFeed) : Prop :=
  s.model.Indexed ∧ ∀ ip, 1 < (DeviceStore.ips s.store.devices).count ip →
    ip ∈ DeviceModel.ips s.model.devices

theorem newOnce_camera_iff {s : DeviceFeed} (cs : List CameraItem) :
    s.model.NewOnce (DeviceStore.cameraDevices s.store.devices cs) ↔
      ∀ ip, ip ∉ DeviceModel.ips s.model.devices → (cs.map (·.ip)).count ip ≤ 1 := by
  refine forall_congr' fun ip => imp_congr_right fun _ => ?_
  rw [DeviceStore.count_cameraDevices]
  split_ifs with hip hd
  · exact Iff.rfl
  · exact iff_of_true le_rfl (List.count_eq_zero.mpr hip ▸ Nat.zero_le 1)
  · exact iff_of_true (Nat.zero_le 1) (List.count_eq_zero.mpr hip ▸ Nat.zero_le 1)

theorem Invariant.onStoreUpdated {s : DeviceFeed} (h : s.Invariant) (store : DeviceStore)
    (hn : s.model.NewOnce store.devices) :
    Invariant ⟨store, s.model.onStoreUpdated store.devices⟩ := by
  refine ⟨((DeviceModel.mirrors_iff_newOnce h.1 _).mpr hn).indexed, fun ip hip => ?_⟩
  exact (DeviceModel.mem_ips_onStoreUpdated h.1).mpr
    (Or.inr (List.count_pos_iff.mp (Nat.zero_lt_of_lt hip)))

theorem step_mirrors_iff {s : DeviceFeed} (h : s.Invariant) (u : Update) :
    ((∀ snapshot ∈ (s.step u).2,
        DeviceModel.Mirrors s.model snapshot (s.step u).1.model) ↔ s.NamesNewOnce u) ∧
      (s.NamesNewOnce u → (s.step u).1.Invariant) := by
  cases u with
  | camera parsed =>
    cases hl : DeviceStore.listed parsed with
    | none =>
      rw [step, Update.op, DeviceStore.step_camera_not_listed hl]
      refine ⟨iff_of_true (fun _ hs => absurd hs List.not_mem_nil) ?_, fun _ => h⟩
      rintro _ cs ⟨⟩ hcs
      exact nomatch hl.symm.trans hcs
    | some cs =>
      have hiff : s.NamesNewOnce (.camera parsed) ↔
          s.model.NewOnce (DeviceStore.cameraDevices s.store.devices cs) := by
        rw [newOnce_camera_iff]
        constructor
        · exact fun hn => hn parsed cs rfl hl
        · rintro hn _ cs' ⟨⟩ hcs
          obtain rfl := Option.some.inj (hl.symm.trans hcs)
          exact hn
      rw [step, Update.op, DeviceStore.step_camera_listed hl, hiff]
      exact ⟨List.forall_mem_singleton.trans (DeviceModel.mirrors_iff_newOnce h.1 _),
        h.onStoreUpdated _⟩
  | available timestamp parsed =>
    have htrue : s.NamesNewOnce (.available timestamp parsed) := nofun
    have hcount := @DeviceStore.count_updateItems timestamp (DeviceStore.statusItems parsed)
      s.store.devices
    rw [step, Update.op]
    rcases DeviceStore.step_available_cases s.store timestamp parsed with he | ⟨out, he, rfl | rfl⟩
    · rw [he]
      exact ⟨iff_of_true (fun _ hs => absurd hs List.not_mem_nil) htrue, fun _ => h⟩
    · rw [he]
      exact ⟨iff_of_true (fun _ hs => absurd hs List.not_mem_nil) htrue,
        fun _ => ⟨h.1, fun ip hip => h.2 ip (hcount hip)⟩⟩
    · have hn : s.model.NewOnce (DeviceStore.updateItems timestamp
          (DeviceStore.statusItems parsed) s.store.devices).1 := fun ip hip =>
        Nat.le_of_not_lt fun hlt => hip (h.2 ip (hcount hlt))
      rw [he]
      exact ⟨iff_of_true (List.forall_mem_singleton.mpr
        ((DeviceModel.mirrors_iff_newOnce h.1 _).mpr hn)) htrue, fun _ => h.onStoreUpdated _ hn⟩

theorem invariant_init : init.Invariant :=
  ⟨DeviceModel.indexed_empty, fun _ h => absurd h (Nat.not_lt_zero 1)⟩

/-- **The model mirrors the store** throughout a run if and only if no accepted camera list of the
run names an address twice that has no row yet. -/
theorem mirrors_store_iff (us : List Update) :
    MirrorsStore us ↔ Machine.Along step NamesNewOnce init us :=
  Machine.along_congr step (P := Invariant) (fun _ u h => step_mirrors_iff h u) invariant_init us

/-- Two streams of a device that is new. -/
theorem mirrors_store_fails : ¬ MirrorsStore [.camera DeviceStore.twoStreams] := by
  intro h
  have hm := h.1 _ (List.mem_singleton.mpr rfl)
  exact absurd (hm.oneRow "10.0.0.1" (by decide +kernel)) (by decide +kernel)

end DeviceFeed

end Models

end AnoMap
