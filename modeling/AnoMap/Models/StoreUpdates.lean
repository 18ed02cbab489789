import AnoMap.Models.SensorReadings

/-!
# Updates from the store

An update writes the store's snapshot into the rows, appends a row for every camera that has none,
and splits the rows that are configured so.

* `lookup_snapshotByCid`: the entry a hash table of a snapshot holds is the last one.
* `mem_onStoreUpdated_iff`: which cameras an update says are online.
* `applyAutoSplits_parts`: automatic splits replace each row that is split by its tiles, and keep
  the others.
* `sound_reach`: in every reachable state each row has a camera.
* `Synchronised`: the rows are those of the snapshot.
* **`store_update_synchronises`**: an update leaves the model synchronised, and the same snapshot
  once more changes nothing.
-/

set_option autoImplicit false

namespace AnoMap

namespace Models

open Domain

namespace CameraModel

/-! ## The snapshot as a hash table -/

theorem lookup_replace {β : Type} (h : List (String × β)) (key : String) (value : β) (k : String) :
    (h.map fun e => if e.1 = key then (key, value) else e).lookup k =
      if k = key ∧ key ∈ h.map Prod.fst then some value else h.lookup k := by
  induction h with
  | nil => exact (if_neg fun hh => absurd hh.2 List.not_mem_nil).symm
  | cons e h ih =>
    obtain ⟨j, v⟩ := e
    rw [List.map_cons, List.map_cons, List.lookup_cons, List.lookup_cons, ih]
    by_cases hj : j = key
    · subst hj
      by_cases hk : k = j
      · simp [hk]
      · simp [hk, beq_false_of_ne hk]
    · by_cases hk : k = j
      · subst hk
        simp [hj]
      · have hmem : key ∈ j :: h.map Prod.fst ↔ key ∈ h.map Prod.fst := by
          rw [List.mem_cons]
          exact or_iff_right (Ne.symm hj)
        simp only [if_neg hj, hmem, beq_false_of_ne hk]

theorem lookup_hashInsert {β : Type} (h : List (String × β)) (key : String) (value : β)
    (k : String) : (hashInsert h key value).lookup k =
      if k = key then some value else h.lookup k := by
  unfold hashInsert
  by_cases hkey : key ∈ h.map Prod.fst
  · rw [if_pos hkey, lookup_replace]
    simp only [hkey, and_true]
  · rw [if_neg hkey, List.lookup_append]
    by_cases hk : k = key
    · have hnone : h.lookup key = none := by
        rw [List.lookup_eq_none_iff]
        intro e he
        refine bne_iff_ne.mpr fun heq => hkey ?_
        rw [heq]
        exact List.mem_map_of_mem he
      simp [hk, hnone]
    · rw [if_neg hk, List.lookup_cons, beq_false_of_ne hk]
      exact Option.or_none

theorem lookup_snapshotByCid (snapshot : List CameraData) {cid : String} (hcid : cid ≠ "") :
    (snapshotByCid snapshot).lookup cid = snapshot.reverse.find? fun cam => cam.cameraId = cid := by
  unfold snapshotByCid
  induction snapshot using List.reverseRecOn with
  | nil => rfl
  | append_singleton snapshot cam ih =>
    rw [List.foldl_append, List.foldl_cons, List.foldl_nil, List.reverse_append,
      List.reverse_singleton, List.singleton_append, List.find?_cons]
    by_cases hempty : cam.cameraId = ""
    · have hne : cam.cameraId ≠ cid := fun he => hcid (he ▸ hempty)
      rw [if_pos hempty, ih]
      simp [hne]
    · rw [if_neg hempty, lookup_hashInsert, ih]
      by_cases hc : cam.cameraId = cid
      · simp [hc]
      · simp [hc, Ne.symm hc]

/-! ## The signals of an update -/

theorem applyAutoSplitForSlot_cases (autoSplit : String → ℤ) (s : CameraModel) (slotId : ℤ) :
    s.applyAutoSplitForSlot autoSplit slotId = (s, []) ∨
      (s.applyAutoSplitForSlot autoSplit slotId).2 =
        (s.applyAutoSplitForSlot autoSplit slotId).1.slotsSignals := by
  unfold applyAutoSplitForSlot
  cases s.indexBySlotId slotId with
  | none => exact Or.inl rfl
  | some idx =>
    show autoSplitForIndex autoSplit s idx = (s, []) ∨
      (autoSplitForIndex autoSplit s idx).2 = (autoSplitForIndex autoSplit s idx).1.slotsSignals
    unfold autoSplitForIndex splitSlotAtIndex
    dsimp only
    split_ifs
    · exact Or.inl rfl
    · exact Or.inr rfl
    · exact Or.inl rfl

theorem applyAutoSplits_eq (autoSplit : String → ℤ) (s : CameraModel) (slotIds : List ℤ) :
    s.applyAutoSplits autoSplit slotIds =
      (Machine.final (applyAutoSplitForSlot autoSplit) s slotIds,
        Machine.outputs (applyAutoSplitForSlot autoSplit) s slotIds) :=
  Machine.foldl_collect_eq (applyAutoSplitForSlot autoSplit) s slotIds

theorem mem_applyAutoSplits (autoSplit : String → ℤ) (s : CameraModel) (slotIds : List ℤ) :
    ∀ signal ∈ (s.applyAutoSplits autoSplit slotIds).2, ∃ s' : CameraModel,
      signal ∈ s'.slotsSignals := by
  rw [applyAutoSplits_eq]
  induction slotIds generalizing s with
  | nil => exact nofun
  | cons slotId slotIds ih =>
    rw [Machine.outputs_cons, List.forall_mem_append]
    refine ⟨fun signal h => ?_, ih _⟩
    rcases s.applyAutoSplitForSlot_cases autoSplit slotId with heq | heq
    · rw [heq] at h
      exact absurd h List.not_mem_nil
    · rw [heq] at h
      exact ⟨_, h⟩

theorem cameraIds_appendNew (s : CameraModel) (streams : List (String × CameraData)) :
    (s.appendNew streams).cameras.map CameraEntry.cameraId =
      s.cameras.map CameraEntry.cameraId ++ streams.map Prod.fst := by
  unfold appendNew
  induction streams generalizing s with
  | nil => exact (List.append_nil _).symm
  | cons e streams ih =>
    rw [List.foldl_cons, ih, List.map_append, List.append_assoc]
    rfl

theorem mem_cameraIds_mergeSnapshot (order : HashOrder CameraData) (s : CameraModel)
    {snapshot : List CameraData} {cid : String}
    (h : ((snapshotByCid snapshot).lookup cid).isSome = true) :
    cid ∈ (mergeSnapshot order s snapshot).cameras.map CameraEntry.cameraId := by
  rw [mergeSnapshot, cameraIds_appendNew, List.map_map]
  have hids : CameraEntry.cameraId ∘ updateEntry (snapshotByCid snapshot) = CameraEntry.cameraId :=
    funext (cameraId_updateEntry _)
  rw [hids, List.mem_append]
  by_cases hrow : cid ∈ s.cameras.map CameraEntry.cameraId
  · exact Or.inl hrow
  · obtain ⟨e, he, hkey⟩ := List.lookup_isSome_iff.mp h
    obtain rfl := eq_of_beq hkey
    refine Or.inr (List.mem_map_of_mem (List.mem_filter.mpr ⟨(order.perm _).mem_iff.mpr he, ?_⟩))
    exact decide_eq_true fun hrep => hrow (List.mem_filter.mp hrep).1

theorem mem_onlineSignals_iff (byCid : List (String × CameraData)) (entry : CameraEntry)
    (cid : String) : .cameraOnline cid ∈ onlineSignals byCid entry ↔ entry.cameraId = cid ∧
      entry.isOnline = false ∧ ∃ snap, byCid.lookup cid = some snap ∧ snap.isOnline = true := by
  unfold onlineSignals
  cases hl : byCid.lookup entry.cameraId with
  | none =>
    refine iff_of_false List.not_mem_nil ?_
    rintro ⟨rfl, -, snap, hsnap, -⟩
    cases hl.symm.trans hsnap
  | some snap =>
    dsimp only
    split_ifs with h
    · rw [List.mem_singleton]
      constructor
      · intro he
        obtain rfl := CameraSignal.cameraOnline.inj he
        exact ⟨rfl, h.1, snap, hl, h.2⟩
      · rintro ⟨rfl, -⟩
        rfl
    · refine iff_of_false List.not_mem_nil ?_
      rintro ⟨rfl, hoff, snap', hsnap, hon⟩
      obtain rfl := Option.some.inj (hl.symm.trans hsnap)
      exact h ⟨hoff, hon⟩

theorem mem_onStoreUpdated_iff (autoSplit : String → ℤ) (order : HashOrder CameraData)
    (s : CameraModel) (snapshot : List CameraData) (cid : String) :
    .cameraOnline cid ∈ (s.onStoreUpdated autoSplit order snapshot).2 ↔
      ∃ entry ∈ s.cameras, entry.cameraId = cid ∧ entry.isOnline = false ∧
        ∃ snap, (snapshotByCid snapshot).lookup cid = some snap ∧ snap.isOnline = true := by
  have hrows : ∀ s' : CameraModel, CameraSignal.cameraOnline cid ∉ s'.slotsSignals := by
    intro s' h
    rcases List.mem_cons.mp h with h | h
    · cases h
    · cases List.mem_singleton.mp h
  have hsplits : CameraSignal.cameraOnline cid ∉ (applyAutoSplits autoSplit
      (mergeSnapshot order s snapshot) (mergeSnapshot order s snapshot).candidateSlots).2 :=
    fun h => (mem_applyAutoSplits _ _ _ _ h).elim fun s' => hrows s'
  show _ ∈ _ ++ _ ++ _ ↔ _
  rw [List.mem_append, or_iff_left hsplits, List.mem_append, or_iff_left (hrows _),
    List.mem_flatMap]
  exact exists_congr fun entry => and_congr_right fun _ => mem_onlineSignals_iff _ _ _

/-! ## The statement -/

/-- The last entry of a camera. -/
def lastEntry (snapshot : List CameraData) (cameraId : String) : Option CameraData :=
  snapshot.reverse.find? fun cam => cam.cameraId = cameraId

/-- What becomes of a row: it stays, or its tiles are in its place when it is split automatically. -/
def Part (autoSplit : String → ℤ) (s : CameraModel) (row : CameraEntry) (part : List CameraEntry) :
    Prop :=
  ¬ AutoSplits autoSplit s row ∧ part = [row] ∨
    AutoSplits autoSplit s row ∧ ∃ slotId splitGroupId, part =
      newTiles row slotId splitGroupId (autoSplit row.cameraId) .col (autoSplit row.cameraId).toNat 0

/-- **Synchronised** with a snapshot, after an update of `s`. -/
structure Synchronised (autoSplit : String → ℤ) (s : CameraModel) (snapshot : List CameraData)
    (s' : CameraModel) : Prop where
  present : ∀ cam ∈ snapshot, cam.cameraId ≠ "" →
    cam.cameraId ∈ s'.cameras.map CameraEntry.cameraId
  listed : ∀ row ∈ s'.cameras, ∀ cam, lastEntry snapshot row.cameraId = some cam →
    row.isOnline = cam.isOnline ∧ row.cameraType = cam.cameraType ∧
      (row.splitCount = 1 → row.title = cam.title)
  unlisted : ∀ row ∈ s'.cameras, lastEntry snapshot row.cameraId = none → row.isOnline = false
  stays : ∀ row ∈ s.cameras, lastEntry snapshot row.cameraId = none →
    { row with isOnline := false } ∈ s'.cameras
  order : ∃ parts added, s'.cameras = List.flatten parts ++ added ∧
    List.Forall₂ (fun row => Part autoSplit s (updateEntry (snapshotByCid snapshot) row)) s.cameras
      parts

/-! ## Automatic splits -/

variable {l : List (String × Layout)} {s : CameraModel}

theorem applyAutoSplitForSlot_row (autoSplit : String → ℤ) (h : Shows l s)
    {before after : List CameraEntry} {row : CameraEntry}
    (hs : s.cameras = before ++ row :: after) :
    ¬ AutoSplits autoSplit s row ∧ s.applyAutoSplitForSlot autoSplit row.slotId = (s, []) ∨
      AutoSplits autoSplit s row ∧ Splitting s before row after (autoSplit row.cameraId) .col true
        (s.applyAutoSplitForSlot autoSplit row.slotId).1 := by
  have hids := h.slotIds
  rw [hs, List.map_append, List.map_cons, List.nodup_append'] at hids
  have hindex : s.indexBySlotId row.slotId = some before.length := by
    rw [indexBySlotId, hs, List.findIdx?_append, List.findIdx?_eq_none_iff.mpr, List.findIdx?_cons]
    · simp
    · intro cam hc
      simpa using fun he : cam.slotId = row.slotId =>
        hids.2.2 (List.mem_map_of_mem hc) (by rw [he]; exact List.mem_cons_self)
  have hat : s.rowAt (before.length : ℕ) = row := by
    rw [rowAt, Int.toNat_natCast, hs, List.getD_eq_getElem _ _ (by simp), List.getElem_append_right
      le_rfl]
    simp
  have hr : s.IsRow (before.length : ℕ) := by
    refine ⟨Int.natCast_nonneg _, ?_⟩
    rw [hs]
    simp
  rw [applyAutoSplitForSlot, hindex]
  dsimp only
  by_cases ha : AutoSplits autoSplit s row
  · obtain ⟨before', after', hlen, hsplit⟩ := exists_auto_splitting hr (hat.symm ▸ ha)
    rw [hat] at hsplit
    obtain ⟨rfl, hrest⟩ := List.append_inj (hs.symm.trans hsplit.rows) (by simpa using hlen.symm)
    obtain rfl := (List.cons.inj hrest).2
    exact .inr ⟨ha, hsplit⟩
  · exact .inl ⟨ha, autoSplitForIndex_of_not fun _ => hat.symm ▸ ha⟩

/-- A split marks its tiles, whose slots are new, and unmarks the row: the rows after it keep their
marks. -/
theorem Splitting.mem_applied_of_mem_after {t t' : CameraModel} {l : List (String × Layout)}
    (h : Shows l t) {before after : List CameraEntry} {row : CameraEntry} {tileCount : ℤ}
    {direction : SplitDirection} {autoSplit : Bool}
    (hsplit : Splitting t before row after tileCount direction autoSplit t') {r : CameraEntry}
    (hr : r ∈ after) :
    r.slotId ∈ t'.autoSplitAppliedSlotIds ↔ r.slotId ∈ t.autoSplitAppliedSlotIds := by
  have hne : r.slotId ≠ row.slotId := fun he => by
    have hnodup := h.slotIds
    rw [hsplit.rows, List.map_append, List.map_cons] at hnodup
    exact (List.nodup_cons.mp (List.nodup_append.mp hnodup).2.1).1 (he ▸ List.mem_map_of_mem hr)
  have hold : r.slotId < t.nextSlotId := h.slotIds_lt r (by rw [hsplit.rows]; simp [hr])
  rw [hsplit.applied]
  refine ⟨fun ⟨_, hor⟩ => hor.elim id fun ⟨_, hm⟩ => ?_, fun hin => ⟨hne, .inl hin⟩⟩
  obtain ⟨cam, hcam, he⟩ := List.mem_map.mp hm
  obtain ⟨k, -, rfl⟩ := List.mem_map.mp hcam
  have : t.nextSlotId + (k : ℤ) = r.slotId := he
  omega

/-- The slots of the rows that may be split. -/
def candidatesOf (rows : List CameraEntry) : List ℤ :=
  (rows.filter fun entry => entry.splitCount = 1 ∧ entry.isOnline = true).map CameraEntry.slotId

/-- The rows still to come are split or not as they would have been at first. -/
theorem exists_parts (autoSplit : String → ℤ) (todo : List CameraEntry) :
    ∀ (done : List CameraEntry) {t : CameraModel} {l : List (String × Layout)}, Shows l t →
      t.cameras = done ++ todo →
      (∀ row ∈ todo, row.slotId ∈ t.autoSplitAppliedSlotIds ↔
        row.slotId ∈ s.autoSplitAppliedSlotIds) →
      ∃ parts, (Machine.final (applyAutoSplitForSlot autoSplit) t (candidatesOf todo)).cameras =
          done ++ List.flatten parts ∧ List.Forall₂ (Part autoSplit s) todo parts ∧
        t.autoSplitAppliedSlotIds ⊆ (Machine.final (applyAutoSplitForSlot autoSplit) t
          (candidatesOf todo)).autoSplitAppliedSlotIds := by
  induction todo with
  | nil => exact fun _ _ _ _ ht _ => ⟨[], ht, .nil, fun _ h => h⟩
  | cons row rest ih =>
    intro done t l h ht hids
    have hsame : AutoSplits autoSplit t row ↔ AutoSplits autoSplit s row :=
      and_congr_left fun _ => not_congr (hids row List.mem_cons_self)
    have hkeep : ¬ AutoSplits autoSplit s row →
        ∃ parts, (Machine.final (applyAutoSplitForSlot autoSplit) t (candidatesOf rest)).cameras =
            done ++ List.flatten parts ∧ List.Forall₂ (Part autoSplit s) (row :: rest) parts ∧
          t.autoSplitAppliedSlotIds ⊆ (Machine.final (applyAutoSplitForSlot autoSplit) t
            (candidatesOf rest)).autoSplitAppliedSlotIds := fun hn => by
      obtain ⟨parts, hcams, hparts, hsub⟩ := ih (done ++ [row]) h (by simp [ht])
        fun r hr => hids r (List.mem_cons_of_mem _ hr)
      exact ⟨[row] :: parts, by simp [hcams], .cons (.inl ⟨hn, rfl⟩) hparts, hsub⟩
    by_cases hc : row.splitCount = 1 ∧ row.isOnline = true
    · have hcand : candidatesOf (row :: rest) = row.slotId :: candidatesOf rest := by
        rw [candidatesOf, List.filter_cons_of_pos (by simpa using hc)]
        rfl
      rw [hcand, Machine.final_cons]
      rcases applyAutoSplitForSlot_row autoSplit h ht with ⟨hn, heq⟩ | ⟨ha, hsplit⟩
      · rw [heq]
        exact hkeep (hsame.not.mp hn)
      · obtain ⟨l', h'⟩ := h.of_splitting hsplit ha.2.2.1 ha.2.1
        have hlater : ∀ r ∈ rest, r.slotId ∈ (t.applyAutoSplitForSlot autoSplit
            row.slotId).1.autoSplitAppliedSlotIds ↔ r.slotId ∈ s.autoSplitAppliedSlotIds :=
          fun r hr => (hsplit.mem_applied_of_mem_after h hr).trans
            (hids r (List.mem_cons_of_mem _ hr))
        obtain ⟨parts, hcams, hparts, hsub⟩ := ih _ h' (by rw [hsplit.cameras]) hlater
        refine ⟨t.tilesOf row (autoSplit row.cameraId) .col :: parts, by rw [hcams]; simp,
          .cons (.inr ⟨hsame.mp ha, _, _, rfl⟩) hparts, fun id hid => hsub ?_⟩
        exact (hsplit.applied id).mpr ⟨fun he => ha.1 (he ▸ hid), .inl hid⟩
    · have hcand : candidatesOf (row :: rest) = candidatesOf rest := by
        rw [candidatesOf, List.filter_cons_of_neg (by simpa using hc)]
        rfl
      rw [hcand]
      exact hkeep fun ha => hc ha.2.2

/-- **Automatic splits** replace each row that is split by its tiles. -/
theorem applyAutoSplits_parts (autoSplit : String → ℤ) (h : Shows l s) :
    ∃ parts, (s.applyAutoSplits autoSplit s.candidateSlots).1.cameras = List.flatten parts ∧
      List.Forall₂ (Part autoSplit s) s.cameras parts ∧ s.autoSplitAppliedSlotIds ⊆
        (s.applyAutoSplits autoSplit s.candidateSlots).1.autoSplitAppliedSlotIds := by
  rw [applyAutoSplits_eq]
  exact exists_parts autoSplit s.cameras [] h rfl fun _ _ => Iff.rfl

theorem applyAutoSplits_of_none {autoSplit : String → ℤ}
    (h : ∀ row ∈ s.cameras, ¬ AutoSplits autoSplit s row) (slotIds : List ℤ) :
    (s.applyAutoSplits autoSplit slotIds).1 = s := by
  rw [applyAutoSplits_eq]
  induction slotIds with
  | nil => rfl
  | cons slotId slotIds ih =>
    have hone : s.applyAutoSplitForSlot autoSplit slotId = (s, []) := by
      unfold applyAutoSplitForSlot
      split
      · rfl
      · next idx hi =>
        exact autoSplitForIndex_of_not fun hr => h _ hr.rowAt_mem
    rw [Machine.final_cons, hone]
    exact ih

/-! ## Rows that an update has written -/

theorem updateEntry_updateEntry (byCid : List (String × CameraData)) (cam : CameraEntry) :
    updateEntry byCid (updateEntry byCid cam) = updateEntry byCid cam := by
  unfold updateEntry
  cases hl : byCid.lookup cam.cameraId with
  | none => simp only [hl]
  | some snap =>
    simp only [hl]
    split_ifs <;> rfl

theorem updateEntry_newEntry {byCid : List (String × CameraData)} {cid : String} {snap : CameraData}
    (h : byCid.lookup cid = some snap) (slotId : ℤ) :
    updateEntry byCid (newEntry slotId cid snap) = newEntry slotId cid snap := by
  unfold updateEntry
  rw [show (newEntry slotId cid snap).cameraId = cid from rfl, h]
  rfl

theorem updateEntry_tileEntry {byCid : List (String × CameraData)} {row : CameraEntry}
    (h : updateEntry byCid row = row) (hon : row.isOnline = true) (slotId splitGroupId : ℤ)
    {tileCount : ℤ} (hn : 2 ≤ tileCount) (direction : SplitDirection) (i : ℕ) :
    updateEntry byCid (tileEntry row slotId splitGroupId tileCount direction i) =
      tileEntry row slotId splitGroupId tileCount direction i := by
  unfold updateEntry at h ⊢
  rw [show (tileEntry row slotId splitGroupId tileCount direction i).cameraId = row.cameraId from
    rfl]
  cases hl : byCid.lookup row.cameraId with
  | none =>
    rw [hl] at h
    have hoff : false = row.isOnline := congrArg CameraEntry.isOnline h
    rw [hon] at hoff
    cases hoff
  | some snap =>
    rw [hl] at h
    have honline : snap.isOnline = row.isOnline := congrArg CameraEntry.isOnline h
    have htype : snap.cameraType = row.cameraType := congrArg CameraEntry.cameraType h
    have hone : (tileEntry row slotId splitGroupId tileCount direction i).splitCount ≠ 1 := by
      show tileCount ≠ 1
      omega
    dsimp only
    rw [if_neg hone, honline, htype]
    rfl

theorem updateEntry_eq_self {snapshot : List CameraData} {row : CameraEntry}
    (h : updateEntry (snapshotByCid snapshot) row = row) (hid : row.cameraId ≠ "") :
    (∀ cam, lastEntry snapshot row.cameraId = some cam → row.isOnline = cam.isOnline ∧
      row.cameraType = cam.cameraType ∧ (row.splitCount = 1 → row.title = cam.title)) ∧
    (lastEntry snapshot row.cameraId = none → row.isOnline = false) := by
  unfold updateEntry at h
  rw [lookup_snapshotByCid snapshot hid] at h
  unfold lastEntry
  cases hl : snapshot.reverse.find? fun cam => cam.cameraId = row.cameraId with
  | none =>
    rw [hl] at h
    exact ⟨nofun, fun _ => (congrArg CameraEntry.isOnline h).symm⟩
  | some snap =>
    rw [hl] at h
    refine ⟨fun cam hc => ?_, nofun⟩
    obtain rfl := Option.some.inj hc
    refine ⟨(congrArg CameraEntry.isOnline h).symm, (congrArg CameraEntry.cameraType h).symm,
      fun hone => ?_⟩
    have htitle := congrArg CameraEntry.title h
    dsimp only at htitle
    rw [if_pos hone] at htitle
    exact htitle.symm

theorem lookup_of_mem {β : Type} {h : List (String × β)} (hn : (h.map Prod.fst).Nodup)
    {e : String × β} (he : e ∈ h) : h.lookup e.1 = some e.2 := by
  induction h with
  | nil => cases he
  | cons e' h ih =>
    obtain ⟨hnot, hn'⟩ := List.nodup_cons.mp hn
    obtain ⟨key, value⟩ := e'
    rw [List.lookup_cons]
    rcases List.mem_cons.mp he with rfl | he
    · rw [beq_self_eq_true]
    · have hne : e.1 ≠ key := fun heq => hnot (List.mem_map.mpr ⟨e, he, heq⟩)
      rw [beq_false_of_ne hne]
      exact ih hn' he

theorem exists_newEntry (s : CameraModel) (streams : List (String × CameraData)) :
    ∃ added, (s.appendNew streams).cameras = s.cameras ++ added ∧
      ∀ row ∈ added, ∃ slotId, ∃ e ∈ streams, row = newEntry slotId e.1 e.2 := by
  induction streams generalizing s with
  | nil =>
    refine ⟨[], ?_, fun _ h => absurd h List.not_mem_nil⟩
    show s.cameras = _
    rw [List.append_nil]
  | cons e streams ih =>
    obtain ⟨added, hcams, hadded⟩ := ih { s with
      nextSlotId := s.nextSlotId + 1
      cameras := s.cameras ++ [newEntry s.nextSlotId e.1 e.2] }
    refine ⟨newEntry s.nextSlotId e.1 e.2 :: added, ?_, List.forall_mem_cons.mpr ⟨?_, ?_⟩⟩
    · refine Eq.trans hcams ?_
      rw [List.append_assoc, List.singleton_append]
    · exact ⟨_, e, List.mem_cons_self, rfl⟩
    · intro row hr
      obtain ⟨slotId, e', he', hrow⟩ := hadded row hr
      exact ⟨slotId, e', List.mem_cons_of_mem e he', hrow⟩

/-- **The rows before the splits**: those there were, written anew, and new ones, all up to date. -/
theorem mergeSnapshot_cameras (order : HashOrder CameraData) (s : CameraModel)
    (snapshot : List CameraData) : ∃ added, (mergeSnapshot order s snapshot).cameras =
        s.cameras.map (updateEntry (snapshotByCid snapshot)) ++ added ∧
      ∀ row ∈ (mergeSnapshot order s snapshot).cameras,
        updateEntry (snapshotByCid snapshot) row = row := by
  unfold mergeSnapshot
  obtain ⟨added, hcams, hadded⟩ := exists_newEntry
    { s with cameras := s.cameras.map (updateEntry (snapshotByCid snapshot)) }
    ((order.walk (snapshotByCid snapshot)).filter fun e =>
      e.1 ∉ (s.cameras.map CameraEntry.cameraId).filter fun cid =>
        ((snapshotByCid snapshot).lookup cid).isSome)
  refine ⟨added, hcams, fun row hr => ?_⟩
  dsimp only at hr
  rw [hcams] at hr
  rcases List.mem_append.mp hr with hr | hr
  · obtain ⟨old, -, rfl⟩ := List.mem_map.mp hr
    exact updateEntry_updateEntry _ _
  · obtain ⟨slotId, e, he, rfl⟩ := hadded row hr
    have hmem := (order.perm _).mem_iff.mp (List.mem_filter.mp he).1
    exact updateEntry_newEntry (lookup_of_mem (keys_snapshotByCid snapshot) hmem) slotId

/-! ## Every row has a camera -/

theorem mem_cameraIds_of_splitting {s' : CameraModel} {before after : List CameraEntry}
    {original : CameraEntry} {tileCount : ℤ} {direction : SplitDirection} {autoSplit : Bool}
    (hs : Splitting s before original after tileCount direction autoSplit s') {cid : String}
    (h : cid ∈ s'.cameras.map CameraEntry.cameraId) : cid ∈ s.cameras.map CameraEntry.cameraId := by
  obtain ⟨cam, hc, rfl⟩ := List.mem_map.mp h
  rw [hs.rows]
  rw [hs.cameras, List.append_assoc, List.mem_append, List.mem_append] at hc
  rcases hc with hc | hc | hc
  · exact List.mem_map_of_mem (List.mem_append_left _ hc)
  · obtain ⟨k, -, rfl⟩ := List.mem_map.mp hc
    exact List.mem_map.mpr ⟨original, List.mem_append_right _ List.mem_cons_self, rfl⟩
  · exact List.mem_map_of_mem (List.mem_append_right _ (List.mem_cons_of_mem _ hc))

theorem key_ne_empty (snapshot : List CameraData) :
    ∀ e ∈ snapshotByCid snapshot, e.1 ≠ "" := by
  unfold snapshotByCid
  refine List.foldlRecOn (motive := fun (h : List (String × CameraData)) => ∀ e ∈ h, e.1 ≠ "")
    snapshot _ (fun _ h => absurd h List.not_mem_nil) fun h hne cam _ => ?_
  split_ifs with hc
  · exact hne
  · unfold hashInsert
    split_ifs
    · intro e he
      obtain ⟨e', he', rfl⟩ := List.mem_map.mp he
      split_ifs
      · exact hc
      · exact hne e' he'
    · intro e he
      rcases List.mem_append.mp he with he | he
      · exact hne e he
      · rw [List.mem_singleton.mp he]
        exact hc

theorem mem_cameraIds_splitSlot (s : CameraModel) (rowIndex tileCount direction : ℤ) {cid : String}
    (hc : cid ∈ (s.splitSlot rowIndex tileCount direction).1.cameras.map CameraEntry.cameraId) :
    cid ∈ s.cameras.map CameraEntry.cameraId := by
  by_cases hs : s.IsRow rowIndex ∧ Splits (s.rowAt rowIndex) tileCount (directionOf direction)
  · obtain ⟨before, after, -, hsplit⟩ := s.exists_splitting false hs.1 hs.2.1 hs.2.2.1 hs.2.2.2
    exact mem_cameraIds_of_splitting hsplit hc
  · have heq : s.splitSlot rowIndex tileCount direction = (s, []) :=
      splitSlotAtIndex_of_not false hs
    rwa [heq] at hc

theorem mem_cameraIds_mergeSlots (s : CameraModel) (anyTileRowIndex : ℤ) {cid : String} :
    cid ∈ (s.mergeSlots anyTileRowIndex).1.cameras.map CameraEntry.cameraId →
      cid ∈ s.cameras.map CameraEntry.cameraId := by
  unfold mergeSlots mergeGroupByIndex
  dsimp only
  split_ifs
  · exact id
  · split
    · exact id
    · exact id
    · next firstPos rest _ hi =>
      obtain ⟨before, after, first, hrows, hsub, -⟩ := mergeRows_perm s _ hi
      rw [hrows]
      intro hc
      refine (hsub.map CameraEntry.cameraId).subset ?_
      rw [List.map_append, List.map_cons] at hc ⊢
      exact hc

theorem mem_cameraIds_applyAutoSplitForSlot (autoSplit : String → ℤ) (s : CameraModel) (slotId : ℤ)
    {cid : String}
    (hc : cid ∈ (s.applyAutoSplitForSlot autoSplit slotId).1.cameras.map CameraEntry.cameraId) :
    cid ∈ s.cameras.map CameraEntry.cameraId := by
  unfold CameraModel.applyAutoSplitForSlot at hc
  split at hc
  · exact hc
  · next idx _ =>
    by_cases ha : s.IsRow idx ∧ AutoSplits autoSplit s (s.rowAt idx)
    · obtain ⟨before, after, -, hs⟩ := exists_auto_splitting ha.1 ha.2
      exact mem_cameraIds_of_splitting hs hc
    · rw [autoSplitForIndex_of_not fun hr has => ha ⟨hr, has⟩] at hc
      exact hc

theorem mem_cameraIds_applyAutoSplits (autoSplit : String → ℤ) (s : CameraModel)
    (slotIds : List ℤ) {cid : String}
    (hc : cid ∈ (s.applyAutoSplits autoSplit slotIds).1.cameras.map CameraEntry.cameraId) :
    cid ∈ s.cameras.map CameraEntry.cameraId := by
  rw [applyAutoSplits_eq] at hc
  induction slotIds generalizing s with
  | nil => exact hc
  | cons slotId slotIds ih =>
    rw [Machine.final_cons] at hc
    exact mem_cameraIds_applyAutoSplitForSlot autoSplit s slotId (ih _ hc)

theorem mem_cameraIds_onStoreUpdated (autoSplit : String → ℤ) (order : HashOrder CameraData)
    (s : CameraModel) (snapshot : List CameraData) {cid : String}
    (hc : cid ∈ (s.onStoreUpdated autoSplit order snapshot).1.cameras.map CameraEntry.cameraId) :
    cid ∈ s.cameras.map CameraEntry.cameraId ∨ cid ≠ "" := by
  have hmerge := mem_cameraIds_applyAutoSplits autoSplit (mergeSnapshot order s snapshot) _ hc
  have hids : CameraEntry.cameraId ∘ updateEntry (snapshotByCid snapshot) = CameraEntry.cameraId :=
    funext (cameraId_updateEntry _)
  rw [mergeSnapshot, cameraIds_appendNew, List.map_map, hids, List.mem_append] at hmerge
  refine hmerge.imp_right fun hm => ?_
  obtain ⟨e, he, rfl⟩ := List.mem_map.mp hm
  exact key_ne_empty snapshot e ((order.perm _).mem_iff.mp (List.mem_filter.mp he).1)

theorem mem_cameraIds_step (h : Shows l s) (autoSplit : String → ℤ) (op : Op) {cid : String}
    (hc : cid ∈ (s.step autoSplit op).1.cameras.map CameraEntry.cameraId) :
    cid ∈ s.cameras.map CameraEntry.cameraId ∨ cid ≠ "" := by
  have hsame : ∀ {s' : CameraModel}, Shows l s' → cid ∈ s'.cameras.map CameraEntry.cameraId →
      cid ∈ s.cameras.map CameraEntry.cameraId := fun h' hc =>
    (h.mem_cameras_iff cid).mp ((h'.mem_cameras_iff cid).mpr hc)
  cases op with
  | onStoreUpdated order snapshot =>
    exact mem_cameraIds_onStoreUpdated autoSplit order s snapshot hc
  | splitSlot rowIndex tileCount direction =>
    exact .inl (mem_cameraIds_splitSlot s rowIndex tileCount direction hc)
  | mergeSlots anyTileRowIndex => exact .inl (mem_cameraIds_mergeSlots s anyTileRowIndex hc)
  | swapSlots indexA indexB => exact .inl (hsame (h.swapSlots indexA indexB) hc)
  | applyAutoSplitForSlot slotId =>
    exact .inl (mem_cameraIds_applyAutoSplitForSlot autoSplit s slotId hc)
  | setOnline index online => exact .inl (hsame (h.setOnline index online) hc)
  | setData row edit => exact .inl (hsame (h.setData row edit) hc)
  | updateSensorInfo cameraId info => exact .inl (hsame (h.updateSensorInfo cameraId info) hc)
  | clearAll => cases hc

/-- The rows show a layout, and each has a camera. -/
structure Sound (s : CameraModel) : Prop where
  shows : ∃ l, Shows l s
  cameraIds : ∀ row ∈ s.cameras, row.cameraId ≠ ""

theorem sound_empty : Sound empty := ⟨⟨[], shows_empty⟩, fun _ h => absurd h List.not_mem_nil⟩

theorem Sound.step (h : Sound s) (autoSplit : String → ℤ) (op : Op) :
    Sound (s.step autoSplit op).1 := by
  obtain ⟨⟨l, hl⟩, hid⟩ := h
  refine ⟨hl.step autoSplit op, fun row hr he => ?_⟩
  rcases mem_cameraIds_step hl autoSplit op (List.mem_map_of_mem hr) with hm | hne
  · obtain ⟨old, ho, heq⟩ := List.mem_map.mp hm
    exact hid old ho (heq.trans he)
  · exact hne he

theorem sound_reach (autoSplit : String → ℤ) (ops : List Op) : Sound (reach autoSplit ops) :=
  Machine.invariant (CameraModel.step autoSplit) Sound (fun _ => True) sound_empty
    (fun _ op _ hs => hs.step autoSplit op) ops fun _ _ => trivial

/-! ## The theorem -/

theorem exists_append_of_forall₂ {α β : Type} {R : α → β → Prop} {as as' : List α} {bs : List β}
    (h : List.Forall₂ R (as ++ as') bs) :
    ∃ front back, bs = front ++ back ∧ List.Forall₂ R as front := by
  induction as generalizing bs with
  | nil => exact ⟨[], bs, rfl, .nil⟩
  | cons a as ih =>
    obtain ⟨b, bs', hab, hrest, rfl⟩ := List.forall₂_cons_left_iff.mp h
    obtain ⟨front, back, rfl, hfront⟩ := ih hrest
    exact ⟨b :: front, back, rfl, .cons hab hfront⟩

theorem mem_flatten_parts {autoSplit : String → ℤ} {rows : List CameraEntry}
    {parts : List (List CameraEntry)} (h : List.Forall₂ (Part autoSplit s) rows parts) :
    (∀ row ∈ List.flatten parts, ∃ old ∈ rows, ∃ part, Part autoSplit s old part ∧ row ∈ part) ∧
      ∀ old ∈ rows, ∃ part, Part autoSplit s old part ∧ ∀ row ∈ part, row ∈ List.flatten parts := by
  induction h with
  | nil => exact ⟨fun _ h => absurd h List.not_mem_nil, fun _ h => absurd h List.not_mem_nil⟩
  | cons hab hrest ih =>
    rename_i old part olds parts
    rw [List.flatten_cons]
    constructor
    · intro row hr
      rcases List.mem_append.mp hr with hr | hr
      · exact ⟨old, List.mem_cons_self, part, hab, hr⟩
      · obtain ⟨old', ho, part', hp, hr⟩ := ih.1 row hr
        exact ⟨old', List.mem_cons_of_mem _ ho, part', hp, hr⟩
    · refine List.forall_mem_cons.mpr ⟨⟨part, hab, fun row hr => List.mem_append_left _ hr⟩,
        fun old' ho => ?_⟩
      obtain ⟨part', hp, hall⟩ := ih.2 old' ho
      exact ⟨part', hp, fun row hr => List.mem_append_right _ (hall row hr)⟩

theorem exists_mem_part {autoSplit : String → ℤ} {row : CameraEntry} {part : List CameraEntry}
    (h : Part autoSplit s row part) : ∃ cam ∈ part, cam.cameraId = row.cameraId := by
  rcases h with ⟨-, rfl⟩ | ⟨ha, slotId, g, rfl⟩
  · exact ⟨row, List.mem_singleton_self row, rfl⟩
  · have hn := two_le_of_validCount ha.2.1
    exact ⟨_, List.mem_map.mpr ⟨0, List.mem_range.mpr (by omega), rfl⟩, rfl⟩

/-- Rows that are up to date, cameras that all have a row, and nothing to split: an update changes
nothing. -/
theorem onStoreUpdated_eq_self {autoSplit : String → ℤ} {snapshot : List CameraData}
    (hfresh : ∀ row ∈ s.cameras, updateEntry (snapshotByCid snapshot) row = row)
    (hrows : ∀ e ∈ snapshotByCid snapshot, e.1 ∈ s.cameras.map CameraEntry.cameraId)
    (hsplit : ∀ row ∈ s.cameras, ¬ AutoSplits autoSplit s row) (order : HashOrder CameraData) :
    (s.onStoreUpdated autoSplit order snapshot).1 = s := by
  have hmap : s.cameras.map (updateEntry (snapshotByCid snapshot)) = s.cameras :=
    (List.map_congr_left hfresh).trans (List.map_id _)
  have hstreams : ((order.walk (snapshotByCid snapshot)).filter fun e =>
      e.1 ∉ (s.cameras.map CameraEntry.cameraId).filter fun cid =>
        ((snapshotByCid snapshot).lookup cid).isSome) = [] := by
    refine List.filter_eq_nil_iff.mpr fun e he hnot => ?_
    have hmem := (order.perm _).mem_iff.mp he
    exact of_decide_eq_true hnot
      (List.mem_filter.mpr ⟨hrows e hmem, lookup_isSome_of_mem hmem⟩)
  have hmerge : mergeSnapshot order s snapshot = s := by
    rw [mergeSnapshot, hmap, hstreams]
    rfl
  rw [onStoreUpdated]
  dsimp only
  rw [hmerge]
  exact applyAutoSplits_of_none hsplit _

theorem Shows.updated_parts (h : Shows l s) (autoSplit : String → ℤ)
    (order : HashOrder CameraData) (snapshot : List CameraData) :
    ∃ parts, (s.onStoreUpdated autoSplit order snapshot).1.cameras = List.flatten parts ∧
      List.Forall₂ (Part autoSplit s) (CameraModel.mergeSnapshot order s snapshot).cameras parts ∧
      s.autoSplitAppliedSlotIds ⊆
        (s.onStoreUpdated autoSplit order snapshot).1.autoSplitAppliedSlotIds := by
  obtain ⟨l', h'⟩ := h.mergeSnapshot order snapshot
  obtain ⟨parts, hparts, hall, hsub⟩ := applyAutoSplits_parts autoSplit h'
  have happlied : (CameraModel.mergeSnapshot order s snapshot).autoSplitAppliedSlotIds =
      s.autoSplitAppliedSlotIds := appendNew_applied _ _
  refine ⟨parts, hparts, hall.imp fun row part hp => ?_, happlied ▸ hsub⟩
  unfold Part AutoSplits at hp ⊢
  rwa [happlied] at hp

theorem Shows.present_updated (h : Shows l s) (autoSplit : String → ℤ)
    (order : HashOrder CameraData) {snapshot : List CameraData} {cid : String}
    (hc : ((snapshotByCid snapshot).lookup cid).isSome = true) :
    cid ∈ (s.onStoreUpdated autoSplit order snapshot).1.cameras.map CameraEntry.cameraId := by
  obtain ⟨parts, hparts, hall, -⟩ := h.updated_parts autoSplit order snapshot
  obtain ⟨old, ho, rfl⟩ := List.mem_map.mp (mem_cameraIds_mergeSnapshot order s hc)
  obtain ⟨part, hp, hin⟩ := (mem_flatten_parts hall).2 old ho
  obtain ⟨cam, hcam, he⟩ := exists_mem_part hp
  exact List.mem_map.mpr ⟨cam, hparts ▸ hin cam hcam, he⟩

theorem Shows.fresh_updated (h : Shows l s) (autoSplit : String → ℤ)
    (order : HashOrder CameraData) (snapshot : List CameraData) :
    ∀ row ∈ (s.onStoreUpdated autoSplit order snapshot).1.cameras,
      updateEntry (snapshotByCid snapshot) row = row := by
  obtain ⟨-, -, hfresh⟩ := mergeSnapshot_cameras order s snapshot
  obtain ⟨parts, hparts, hall, -⟩ := h.updated_parts autoSplit order snapshot
  rw [hparts]
  intro row hr
  obtain ⟨old, ho, part, ⟨-, rfl⟩ | ⟨ha, slotId, g, rfl⟩, hr⟩ := (mem_flatten_parts hall).1 row hr
  · rw [List.mem_singleton.mp hr]
    exact hfresh old ho
  · obtain ⟨k, -, rfl⟩ := List.mem_map.mp hr
    exact updateEntry_tileEntry (hfresh old ho) ha.2.2.2 _ _ (two_le_of_validCount ha.2.1) _ _

theorem Shows.unsplit_updated (h : Shows l s) (autoSplit : String → ℤ)
    (order : HashOrder CameraData) (snapshot : List CameraData) :
    ∀ row ∈ (s.onStoreUpdated autoSplit order snapshot).1.cameras,
      ¬ AutoSplits autoSplit (s.onStoreUpdated autoSplit order snapshot).1 row := by
  obtain ⟨parts, hparts, hall, hsub⟩ := h.updated_parts autoSplit order snapshot
  rw [hparts]
  rintro row hr ⟨hnot, hs⟩
  obtain ⟨old, ho, part, ⟨hn, rfl⟩ | ⟨ha, slotId, g, rfl⟩, hr⟩ := (mem_flatten_parts hall).1 row hr
  · rw [List.mem_singleton.mp hr] at hnot hs
    exact hn ⟨fun hin => hnot (hsub hin), hs⟩
  · obtain ⟨k, -, rfl⟩ := List.mem_map.mp hr
    have hn := two_le_of_validCount ha.2.1
    have hone : autoSplit old.cameraId = 1 := hs.2.1
    omega

theorem Shows.stays_updated (h : Shows l s) (autoSplit : String → ℤ)
    (order : HashOrder CameraData) (snapshot : List CameraData) {row : CameraEntry}
    (hr : row ∈ s.cameras) (hl : (snapshotByCid snapshot).lookup row.cameraId = none) :
    { row with isOnline := false } ∈ (s.onStoreUpdated autoSplit order snapshot).1.cameras := by
  obtain ⟨added, hcams, -⟩ := mergeSnapshot_cameras order s snapshot
  obtain ⟨parts, hparts, hall, -⟩ := h.updated_parts autoSplit order snapshot
  have hoff : updateEntry (snapshotByCid snapshot) row = { row with isOnline := false } := by
    rw [updateEntry, hl]
  have hm : { row with isOnline := false } ∈
      (CameraModel.mergeSnapshot order s snapshot).cameras := by
    rw [hcams, ← hoff]
    exact List.mem_append_left _ (List.mem_map_of_mem hr)
  obtain ⟨part, ⟨-, rfl⟩ | ⟨ha, -⟩, hin⟩ := (mem_flatten_parts hall).2 _ hm
  · exact hparts ▸ hin _ (List.mem_singleton_self _)
  · cases ha.2.2.2

/-- **An update synchronises**, and is done after one call. -/
theorem Sound.onStoreUpdated (hs : Sound s) (autoSplit : String → ℤ)
    (order : HashOrder CameraData) (snapshot : List CameraData) :
    Synchronised autoSplit s snapshot (s.onStoreUpdated autoSplit order snapshot).1 ∧
      ∀ order', ((s.onStoreUpdated autoSplit order snapshot).1.onStoreUpdated autoSplit order'
        snapshot).1 = (s.onStoreUpdated autoSplit order snapshot).1 := by
  obtain ⟨l, h⟩ := hs.shows
  have hfresh := h.fresh_updated autoSplit order snapshot
  have hids := (hs.step autoSplit (.onStoreUpdated order snapshot)).cameraIds
  have hpresent : ∀ cid, ((snapshotByCid snapshot).lookup cid).isSome = true → cid ∈
      (s.onStoreUpdated autoSplit order snapshot).1.cameras.map CameraEntry.cameraId :=
    fun cid => h.present_updated autoSplit order
  refine ⟨⟨fun cam hc hne => hpresent _ ?_, fun row hr =>
    (updateEntry_eq_self (hfresh row hr) (hids row hr)).1, fun row hr =>
    (updateEntry_eq_self (hfresh row hr) (hids row hr)).2, fun row hr hl => ?_, ?_⟩, fun order' =>
    onStoreUpdated_eq_self hfresh (fun e he => hpresent _ (lookup_isSome_of_mem he))
      (h.unsplit_updated autoSplit order snapshot) order'⟩
  · rw [lookup_snapshotByCid snapshot hne, List.find?_isSome]
    exact ⟨cam, List.mem_reverse.mpr hc, decide_eq_true rfl⟩
  · exact h.stays_updated autoSplit order snapshot hr
      ((lookup_snapshotByCid snapshot (hs.cameraIds row hr)).trans hl)
  · obtain ⟨added, hcams, -⟩ := mergeSnapshot_cameras order s snapshot
    obtain ⟨parts, hparts, hall, -⟩ := h.updated_parts autoSplit order snapshot
    rw [hcams] at hall
    obtain ⟨front, back, rfl, hfront⟩ := exists_append_of_forall₂ hall
    exact ⟨front, List.flatten back, by rw [hparts, List.flatten_append],
      List.forall₂_map_left_iff.mp hfront⟩

/-- **Updates synchronise.** After any run, an update makes the rows those of the snapshot, and the
same snapshot once more, walked in any order, changes nothing. -/
theorem store_update_synchronises (autoSplit : String → ℤ) (ops : List Op)
    (order order' : HashOrder CameraData) (snapshot : List CameraData) :
    Synchronised autoSplit (reach autoSplit ops) snapshot
        ((reach autoSplit ops).onStoreUpdated autoSplit order snapshot).1 ∧
      (((reach autoSplit ops).onStoreUpdated autoSplit order snapshot).1.onStoreUpdated autoSplit
        order' snapshot).1 = ((reach autoSplit ops).onStoreUpdated autoSplit order snapshot).1 := by
  obtain ⟨hsync, hagain⟩ := (sound_reach autoSplit ops).onStoreUpdated autoSplit order snapshot
  exact ⟨hsync, hagain order'⟩

end CameraModel

end Models

end AnoMap
