import AnoMap.Domain.DeviceRuns
import Mathlib.Data.List.DropRight

/-!
# The fold of the samples

What the status packets say of a device: its current values and its history.

* `DynamicInfo`: the values status packets set; `dynamicAt_cameraDevices`: camera lists, which
  copy, reorder and repeat devices, change none of them; `dynamicAt_addSample`.
* `dynamicAt_step`, `dynamicAt_reach`: the first device of an address carries all its samples.
* **`sample_fold`**: history and current values are the fold of the samples received.
-/

set_option autoImplicit false

namespace AnoMap

namespace Domain

namespace DeviceStore

/-! ## Dynamic values -/

/-- What status packets set: the current values, with the time of the last update, and the
history. -/
structure DynamicInfo where
  latest : DeviceSnapshot
  history : List DeviceSnapshot

/-- The dynamic values of a new device. -/
def DynamicInfo.default : DynamicInfo := ⟨⟨0, 0, 0, 0, 0⟩, []⟩

/-- One more sample. -/
def DynamicInfo.add (d : DynamicInfo) (snap : DeviceSnapshot) : DynamicInfo :=
  ⟨snap, (d.history ++ [snap]).rtake maxHistory⟩

def dynamicInfo (d : DeviceIntegrated) : DynamicInfo :=
  ⟨⟨d.lastUpdate, d.cpu, d.memory, d.temp, d.uptime⟩, d.history⟩

/-- The dynamic values of the device that `findIndexByIp` finds, the defaults if it finds none. -/
def dynamicAt (s : DeviceStore) (ip : String) : DynamicInfo :=
  match findIndexByIp s.devices ip with
  | some idx => dynamicInfo (s.devices.getD idx (.new ""))
  | none => .default

theorem dynamicAt_eq (s : DeviceStore) (ip : String) : s.dynamicAt ip =
    ((Keyed.first? DeviceIntegrated.ip s.devices ip).map dynamicInfo).getD .default := by
  unfold dynamicAt
  cases hf : findIndexByIp s.devices ip with
  | none => rw [Keyed.first?_eq_none_iff.mpr ((Keyed.findIdx?_eq_none_iff DeviceIntegrated.ip).mp hf)]; rfl
  | some idx =>
    have hmem : ip ∈ s.devices.map DeviceIntegrated.ip :=
      (Keyed.findIdx?_isSome_iff DeviceIntegrated.ip).mp (Option.isSome_iff_exists.mpr ⟨idx, hf⟩)
    obtain ⟨d, hd⟩ := Option.isSome_iff_exists.mp (Keyed.first?_isSome_iff.mpr hmem)
    dsimp only
    rw [List.getD_eq_getElem?_getD, Keyed.getElem?_of_findIdx? DeviceIntegrated.ip hf, hd]
    rfl

theorem getHistory_eq (s : DeviceStore) (ip : String) :
    s.getHistory ip = (s.dynamicAt ip).history := by
  unfold getHistory dynamicAt
  cases findIndexByIp s.devices ip <;> rfl

theorem dynamicInfo_mergeCamera (devices : List DeviceIntegrated) (c : CameraItem) :
    dynamicInfo (mergeCamera devices c) = dynamicAt ⟨devices⟩ c.ip := by
  rw [dynamicAt_eq]
  unfold mergeCamera Keyed.first?
  cases devices.find? fun d => d.ip = c.ip <;> rfl

/-- **A camera list changes no dynamic value.** -/
theorem dynamicAt_cameraDevices (devices : List DeviceIntegrated) (cs : List CameraItem)
    (ip : String) : dynamicAt ⟨cameraDevices devices cs⟩ ip = dynamicAt ⟨devices⟩ ip := by
  rw [dynamicAt_eq, cameraDevices, appendOffline_eq, Keyed.first?_appendAbsent ip_offline]
  cases hf : Keyed.first? DeviceIntegrated.ip (cs.map (mergeCamera devices)) ip with
  | some d =>
    obtain ⟨c, -, rfl⟩ := List.mem_map.mp (List.mem_of_find?_eq_some hf)
    have hip : c.ip = ip := (ip_mergeCamera devices c).symm.trans (Keyed.key_of_first? hf)
    rw [← hip]
    exact dynamicInfo_mergeCamera devices c
  | none =>
    rw [dynamicAt_eq]
    cases Keyed.first? DeviceIntegrated.ip devices ip <;> rfl

theorem dynamicInfo_sampled (d : DeviceIntegrated) (snap : DeviceSnapshot) :
    dynamicInfo (sampled d snap) = (dynamicInfo d).add snap := by
  unfold dynamicInfo sampled addSnapshot DynamicInfo.add List.rtake
  rfl

theorem ip_new (ip : String) : (DeviceIntegrated.new ip).ip = ip := rfl

theorem ip_sampled (d : DeviceIntegrated) (snap : DeviceSnapshot) :
    (sampled d snap).ip = d.ip := rfl

/-- A sample changes the device found for its address, or appends one. -/
theorem addSample_cases (devices : List DeviceIntegrated) (e : String × DeviceSnapshot) :
    (∃ idx d, findIndexByIp devices e.1 = some idx ∧
      Keyed.first? DeviceIntegrated.ip devices e.1 = some d ∧ (sampled d e.2).ip = e.1 ∧
      addSample devices e = devices.set idx (sampled d e.2)) ∨
    (Keyed.first? DeviceIntegrated.ip devices e.1 = none ∧
      addSample devices e = devices ++ [sampled (.new e.1) e.2]) := by
  unfold addSample
  cases hf : findIndexByIp devices e.1 with
  | some idx =>
    have hmem : e.1 ∈ devices.map DeviceIntegrated.ip :=
      (Keyed.findIdx?_isSome_iff DeviceIntegrated.ip).mp (Option.isSome_iff_exists.mpr ⟨idx, hf⟩)
    obtain ⟨d, hd⟩ := Option.isSome_iff_exists.mp (Keyed.first?_isSome_iff.mpr hmem)
    have hip : d.ip = e.1 := Keyed.key_of_first? hd
    refine Or.inl ⟨idx, d, rfl, hd, hip, ?_⟩
    dsimp only
    rw [List.getD_eq_getElem?_getD, Keyed.getElem?_of_findIdx? DeviceIntegrated.ip hf, hd]
    rfl
  | none =>
    exact Or.inr ⟨Keyed.first?_eq_none_iff.mpr
      ((Keyed.findIdx?_eq_none_iff DeviceIntegrated.ip).mp hf), rfl⟩

/-- **A sample** goes to the device of its address. -/
theorem dynamicAt_addSample (devices : List DeviceIntegrated) (e : String × DeviceSnapshot)
    (ip : String) : dynamicAt ⟨addSample devices e⟩ ip =
      if ip = e.1 then (dynamicAt ⟨devices⟩ ip).add e.2 else dynamicAt ⟨devices⟩ ip := by
  rw [dynamicAt_eq, dynamicAt_eq]
  rcases addSample_cases devices e with ⟨idx, d, hf, hd, hip, he⟩ | ⟨hnone, he⟩
  · rw [he]
    dsimp only
    rw [Keyed.first?_set DeviceIntegrated.ip hf hip]
    split_ifs with hip
    · rw [hip, hd]
      exact dynamicInfo_sampled d e.2
    · rfl
  · rw [he, Keyed.first?_append, Keyed.first?_singleton, ip_sampled]
    by_cases hip : ip = e.1
    · rw [if_pos hip, hip, hnone, if_pos (ip_new e.1)]
      exact dynamicInfo_sampled (.new e.1) e.2
    · rw [if_neg hip, ip_new, if_neg fun h : e.1 = ip => hip h.symm, Option.or_none]

theorem mem_ips_addSample {devices : List DeviceIntegrated} {e : String × DeviceSnapshot}
    {ip : String} : ip ∈ ips (addSample devices e) ↔ ip ∈ ips devices ∨ ip = e.1 := by
  rcases addSample_cases devices e with ⟨idx, d, hf, hd, hip, he⟩ | ⟨-, he⟩
  · rw [he, ips, Keyed.map_key_set DeviceIntegrated.ip hf hip]
    refine ⟨Or.inl, fun h => h.elim id fun hip => ?_⟩
    rw [hip]
    exact Keyed.first?_isSome_iff.mp (Option.isSome_iff_exists.mpr ⟨d, hd⟩)
  · rw [he, ips, List.map_append, List.mem_append, List.map_singleton, List.mem_singleton]
    rfl

theorem rtake_concat {α : Type} (l : List α) (a : α) (n : ℕ) :
    (l ++ [a]).rtake n = (l.rtake n ++ [a]).rtake n := by
  simp only [List.rtake_eq_reverse_take_reverse, List.reverse_append, List.reverse_reverse,
    List.reverse_singleton, List.singleton_append]
  cases n with
  | zero => rfl
  | succ n => simp [List.take_take]

theorem foldl_add (samples : List DeviceSnapshot) :
    samples.foldl DynamicInfo.add .default =
      ⟨samples.getLast?.getD ⟨0, 0, 0, 0, 0⟩, samples.rtake maxHistory⟩ := by
  induction samples using List.reverseRecOn with
  | nil => rfl
  | append_singleton samples snap ih =>
    rw [List.foldl_concat, ih, DynamicInfo.add, List.getLast?_concat, rtake_concat samples snap]
    rfl

theorem dynamicAt_foldl_addSample (es : List (String × DeviceSnapshot))
    (devices : List DeviceIntegrated) (ip : String) :
    dynamicAt ⟨es.foldl addSample devices⟩ ip =
      (es.filterMap fun e => if ip = e.1 then some e.2 else none).foldl DynamicInfo.add
        (dynamicAt ⟨devices⟩ ip) := by
  induction es generalizing devices with
  | nil => rfl
  | cons e es ih =>
    rw [List.foldl_cons, ih, dynamicAt_addSample, List.filterMap_cons]
    split_ifs <;> rfl

theorem mem_ips_foldl_addSample {es : List (String × DeviceSnapshot)}
    {devices : List DeviceIntegrated} {ip : String} :
    ip ∈ ips (es.foldl addSample devices) ↔ ip ∈ ips devices ∨ ip ∈ es.map Prod.fst := by
  induction es generalizing devices with
  | nil => simp
  | cons e es ih =>
    rw [List.foldl_cons, ih, mem_ips_addSample, List.map_cons, List.mem_cons, or_assoc]

/-! ## The fold of the samples -/

/-- The items an operation reads. -/
def Op.items : Op → List Json
  | .camera (.array items) => items
  | .available _ parsed => statusItems parsed
  | _ => []

/-- The members that are read have the right types. -/
def Op.WellTyped : Op → Prop
  | .camera parsed => ∀ items, parsed = .array items → ∀ item ∈ items, ∃ r, readCamera item = .ok r
  | .available _ parsed => ∀ item ∈ statusItems parsed, ReadsStatus item
  | .clear => True

/-- An item of the packet has the address. -/
def Op.Lists (op : Op) (ip : String) : Prop :=
  ∃ item ∈ op.items, item.isObject = true ∧ item.value "ip" "" = .ok ip

/-- The samples a packet brings for an address. -/
def Op.samples (ip : String) : Op → List DeviceSnapshot
  | .available timestamp parsed =>
    (samplesOf timestamp (statusItems parsed)).filterMap fun e => if ip = e.1 then some e.2 else none
  | _ => []

/-- The operations since the last `clear`. -/
def sinceClear (ops : List Op) : List Op :=
  ops.foldl (fun ops op => match op with | .clear => [] | op => ops ++ [op]) []

/-- The samples received for an address since the last `clear`, in the order they arrived. -/
def samples (ops : List Op) (ip : String) : List DeviceSnapshot :=
  (sinceClear ops).flatMap (Op.samples ip)

/-- The values of the latest sample, the defaults when there is none. -/
def latest (samples : List DeviceSnapshot) : DeviceSnapshot :=
  samples.getLast?.getD ⟨0, 0, 0, 0, 0⟩

/-- What the store says of an address after a run is the fold of the samples received for it, a
listed device is there, and a camera list changes none of it. -/
def SampleFold (ops : List Op) (ip : String) : Prop :=
  (reach ops).getHistory ip = (samples ops ip).rtake maxHistory ∧
    (∀ idx d, findIndexByIp (reach ops).devices ip = some idx → (reach ops).devices[idx]? = some d →
      (⟨d.lastUpdate, d.cpu, d.memory, d.temp, d.uptime⟩ : DeviceSnapshot) =
        latest (samples ops ip)) ∧
    (ip ≠ "" → (∃ op ∈ sinceClear ops, op.Lists ip) →
      (findIndexByIp (reach ops).devices ip).isSome) ∧
    ∀ parsed, (reach (ops ++ [.camera parsed])).dynamicAt ip = (reach ops).dynamicAt ip

theorem sinceClear_concat (ops : List Op) {op : Op} (h : op ≠ .clear) :
    sinceClear (ops ++ [op]) = sinceClear ops ++ [op] := by
  rw [sinceClear, List.foldl_concat]
  cases op with
  | clear => exact absurd rfl h
  | _ => rfl

theorem sinceClear_clear (ops : List Op) : sinceClear (ops ++ [.clear]) = [] := by
  rw [sinceClear, List.foldl_concat]

theorem samples_concat (ops : List Op) {op : Op} (h : op ≠ .clear) (ip : String) :
    samples (ops ++ [op]) ip = samples ops ip ++ op.samples ip := by
  rw [samples, sinceClear_concat ops h, List.flatMap_append, List.flatMap_singleton]
  rfl

theorem exists_cameraItems {items : List Json} (h : ∀ item ∈ items, ∃ r, readCamera item = .ok r) :
    ∃ cs, cameraItems items = .ok cs ∧ ∀ ip, ip ≠ "" →
      (∃ item ∈ items, item.isObject = true ∧ item.value "ip" "" = .ok ip) → ip ∈ cs.map (·.ip) := by
  induction items with
  | nil => exact ⟨[], rfl, fun _ _ ⟨_, hi, _⟩ => absurd hi List.not_mem_nil⟩
  | cons item items ih =>
    obtain ⟨⟨r, hr⟩, hrest⟩ := List.forall_mem_cons.mp h
    obtain ⟨cs, hcs, hall⟩ := ih hrest
    refine ⟨r.toList ++ cs, by rw [cameraItems, hr, hcs]; rfl, fun ip hne ⟨item', hi, ho, hip⟩ => ?_⟩
    rw [List.map_append, List.mem_append]
    rcases List.mem_cons.mp hi with rfl | hi
    · left
      unfold readCamera at hr
      rw [if_neg (by rw [ho]; decide)] at hr
      obtain ⟨ip', hip', hr⟩ := Json.bind_eq_ok.mp hr
      obtain rfl := Except.ok.inj (hip.symm.trans hip')
      rw [if_neg hne] at hr
      obtain ⟨_, -, hr⟩ := Json.bind_eq_ok.mp hr
      obtain ⟨_, -, hr⟩ := Json.bind_eq_ok.mp hr
      obtain ⟨_, -, hr⟩ := Json.bind_eq_ok.mp hr
      rw [← Except.ok.inj hr]
      exact List.mem_singleton.mpr rfl
    · exact Or.inr (hall ip hne ⟨item', hi, ho, hip⟩)

theorem mem_samplesOf {timestamp : ℤ} {items : List Json} {item : Json} {ip : String}
    (hr : ReadsStatus item) (hi : item ∈ items) (ho : item.isObject = true)
    (hip : item.value "ip" "" = .ok ip) (hne : ip ≠ "") :
    ip ∈ (samplesOf timestamp items).map Prod.fst := by
  obtain ⟨r, hread⟩ := exists_readSample timestamp hr
  have hsome : ∃ snap, r = some (ip, snap) := by
    unfold readSample at hread
    rw [if_neg (by rw [ho]; decide)] at hread
    obtain ⟨ip', hip', hread⟩ := Json.bind_eq_ok.mp hread
    obtain rfl := Except.ok.inj (hip.symm.trans hip')
    rw [if_neg hne] at hread
    obtain ⟨_, -, hread⟩ := Json.bind_eq_ok.mp hread
    obtain ⟨_, -, hread⟩ := Json.bind_eq_ok.mp hread
    obtain ⟨_, -, hread⟩ := Json.bind_eq_ok.mp hread
    obtain ⟨_, -, hread⟩ := Json.bind_eq_ok.mp hread
    exact ⟨_, (Except.ok.inj hread).symm⟩
  obtain ⟨snap, rfl⟩ := hsome
  exact List.mem_map.mpr ⟨(ip, snap), List.mem_filterMap.mpr ⟨item, hi, by rw [hread]⟩, rfl⟩

theorem statusItems_of_not_object {parsed : Json} (h : parsed.isObject = false) :
    statusItems parsed = [] := by
  cases parsed with
  | object members => cases h
  | _ => rfl

theorem dynamicAt_step_camera (s : DeviceStore) (parsed : Json) (ip : String) :
    (s.step (.camera parsed)).1.dynamicAt ip = s.dynamicAt ip := by
  cases hl : listed parsed with
  | none => rw [step_camera_not_listed hl]
  | some cs =>
    rw [step_camera_listed hl]
    exact dynamicAt_cameraDevices s.devices cs ip

theorem step_available_eq {parsed : Json} (h : ∀ item ∈ statusItems parsed, ReadsStatus item)
    (timestamp : ℤ) (s : DeviceStore) : (s.step (.available timestamp parsed)).1 =
      ⟨(samplesOf timestamp (statusItems parsed)).foldl addSample s.devices⟩ := by
  cases ho : parsed.isObject with
  | false =>
    rw [step, updateFromAvailableJson, if_pos ho, statusItems_of_not_object ho]
    rfl
  | true => rw [step, updateFromAvailableJson_eq ho h]

theorem dynamicAt_step (s : DeviceStore) {op : Op} (h : op.WellTyped) (hc : op ≠ .clear)
    (ip : String) : (s.step op).1.dynamicAt ip =
      (op.samples ip).foldl DynamicInfo.add (s.dynamicAt ip) := by
  cases op with
  | camera parsed => exact dynamicAt_step_camera s parsed ip
  | available timestamp parsed =>
    rw [step_available_eq h]
    exact dynamicAt_foldl_addSample _ _ ip
  | clear => exact absurd rfl hc

theorem mem_ips_step (s : DeviceStore) {op : Op} (h : op.WellTyped) (hc : op ≠ .clear) {ip : String}
    (hip : ip ∈ ips s.devices ∨ ip ≠ "" ∧ op.Lists ip) : ip ∈ ips (s.step op).1.devices := by
  cases op with
  | camera parsed =>
    cases parsed with
    | array items =>
      obtain ⟨cs, hcs, hall⟩ := exists_cameraItems (h items rfl)
      have hl : listed (.array items) = some cs := by rw [listed, hcs]; rfl
      rw [step_camera_listed hl]
      exact mem_ips_cameraDevices.mpr (hip.symm.imp_left fun hn => hall ip hn.1 hn.2)
    | _ =>
      refine hip.elim id fun hn => ?_
      obtain ⟨-, _, hi, -⟩ := hn
      cases hi
  | available timestamp parsed =>
    rw [step_available_eq h]
    refine mem_ips_foldl_addSample.mpr (hip.imp_right fun hn => ?_)
    obtain ⟨hne, item, hi, ho, hv⟩ := hn
    exact mem_samplesOf (h item hi) hi ho hv hne
  | clear => exact absurd rfl hc

/-- **The run lemma**: the dynamic values are the fold of the samples, and what was listed is
there. -/
theorem dynamicAt_reach {ops : List Op} (h : ∀ op ∈ ops, op.WellTyped) (ip : String) :
    (reach ops).dynamicAt ip = (samples ops ip).foldl DynamicInfo.add .default ∧
      (ip ≠ "" → (∃ op ∈ sinceClear ops, op.Lists ip) → ip ∈ ips (reach ops).devices) := by
  induction ops using List.reverseRecOn with
  | nil =>
    refine ⟨rfl, fun _ hl => ?_⟩
    obtain ⟨_, hop, -⟩ := hl
    cases hop
  | append_singleton ops op ih =>
    obtain ⟨hd, hm⟩ := ih fun o ho => h o (List.mem_append_left _ ho)
    have hop := h op (List.mem_append_right _ (List.mem_singleton.mpr rfl))
    rw [reach, Machine.final_concat]
    by_cases hc : op = .clear
    · subst hc
      rw [samples, sinceClear_clear]
      refine ⟨rfl, fun _ hl => ?_⟩
      obtain ⟨_, hop, -⟩ := hl
      cases hop
    · rw [dynamicAt_step _ hop hc, samples_concat ops hc, List.foldl_append, sinceClear_concat ops hc]
      refine ⟨congrArg (fun d => (op.samples ip).foldl DynamicInfo.add d) hd,
        fun hne hlists => mem_ips_step _ hop hc ?_⟩
      obtain ⟨op', hop', hl⟩ := hlists
      rcases List.mem_append.mp hop' with hold | hnew
      · exact Or.inl (hm hne ⟨op', hold, hl⟩)
      · exact Or.inr ⟨hne, List.mem_singleton.mp hnew ▸ hl⟩

/-- **The fold of the samples**, for every run of well-typed packets. -/
theorem sample_fold (ops : List Op) (h : ∀ op ∈ ops, op.WellTyped) (ip : String) :
    SampleFold ops ip := by
  obtain ⟨hd, hm⟩ := dynamicAt_reach h ip
  rw [foldl_add] at hd
  refine ⟨?_, fun idx d hf hget => ?_, fun hne hl => ?_, fun parsed => ?_⟩
  · rw [getHistory_eq, hd]
  · unfold dynamicAt at hd
    rw [hf] at hd
    dsimp only at hd
    rw [List.getD_eq_getElem?_getD, hget] at hd
    exact congrArg DynamicInfo.latest hd
  · exact (Keyed.findIdx?_isSome_iff DeviceIntegrated.ip).mpr (hm hne hl)
  · rw [reach, Machine.final_concat]
    exact dynamicAt_step_camera _ parsed ip

/-- A sample, then a camera list with two streams of its device. -/
theorem sample_fold_two_streams : SampleFold
    [.available 5 (.object [("devices", .array [.object [("ip", .string "10.0.0.1"),
      ("cpu", .integer 40)]])]), .camera twoStreams] "10.0.0.1" := by
  refine sample_fold _ (List.forall_mem_cons.mpr ⟨?_, List.forall_mem_singleton.mpr ?_⟩) _
  · exact List.forall_mem_singleton.mpr fun _ =>
      ⟨"10.0.0.1", rfl, fun _ => ⟨⟨40, rfl⟩, ⟨0, rfl⟩, ⟨0, rfl⟩, 0, rfl⟩⟩
  · rintro items h
    obtain rfl := Json.array.inj h
    exact List.forall_mem_cons.mpr ⟨⟨_, rfl⟩, List.forall_mem_singleton.mpr ⟨_, rfl⟩⟩

end DeviceStore

end Domain

end AnoMap
