import AnoMap.Models.SensorReadings

/-!
# A merge after a split

A split replaces a row by its tiles, swaps scatter them, and a merge puts one row back in the place
of the first.

* `content`: what swaps exchange; `contents_swapAll`: they only move it.
* `lastMarker_append`, `stripMarker_tileEntry`: the title is recovered from any tile's, whatever
  brackets it contains.
* `exists_merged`: what a merge makes of a group.
* **`merge_undoes_split`**: the row is back, once, and every other row has kept its content.
-/

set_option autoImplicit false

namespace AnoMap

namespace Models

open Domain

namespace CameraModel

/-! ## The statement -/

/-- What a swap exchanges of a row. -/
def content (cam : CameraEntry) : CameraEntry := takeContent .default cam

/-- Swaps, one after the other. -/
def swapAll (s : CameraModel) (swaps : List (ℤ × ℤ)) : CameraModel :=
  swaps.foldl (fun s ab => (s.swapSlots ab.1 ab.2).1) s

/-- The model after a split and some swaps. -/
def rearranged (s : CameraModel) (rowIndex tileCount direction : ℤ) (swaps : List (ℤ × ℤ)) :
    CameraModel :=
  (s.splitSlot rowIndex tileCount direction).1.swapAll swaps

/-- The row shows the original's camera whole. -/
structure Restores (original cam : CameraEntry) : Prop where
  cameraId : cam.cameraId = original.cameraId
  title : cam.title = original.title
  isOnline : cam.isOnline = original.isOnline
  cameraType : cam.cameraType = original.cameraType
  description : cam.description = original.description
  splitCount : cam.splitCount = 1
  splitGroupId : cam.splitGroupId = -1
  splitIndex : cam.splitIndex = 0
  cropRect : cam.cropRect = .unit

/-- **Undone.** Of the rows `s''` one restores the row of `s` that was split, at the position of the
group's first tile in `s'`; no other row shows its camera, and their contents are those there were. -/
def Undone (s s' s'' : CameraModel) (rowIndex : ℤ) : Prop :=
  s''.cameras.length = s.cameras.length ∧
  ∃ before cam after, s''.cameras = before ++ cam :: after ∧
    (s'.groupIndices s.nextSplitGroupId).head? = some before.length ∧
    Restores (s.rowAt rowIndex) cam ∧
    (∀ other ∈ before ++ after, other.cameraId ≠ (s.rowAt rowIndex).cameraId) ∧
    ((before ++ after).map content).Perm ((s.cameras.eraseIdx rowIndex.toNat).map content)

/-! ## The title -/

theorem lastMarker_append (cs : List Char) {suffix : List Char} {i : ℕ}
    (h : lastMarker suffix = some i) : lastMarker (cs ++ suffix) = some (cs.length + i) := by
  induction cs with
  | nil => rw [List.nil_append, h, List.length_nil, Nat.zero_add]
  | cons c cs ih =>
    rw [List.cons_append, lastMarker, ih, List.length_cons]
    dsimp only
    rw [Nat.add_right_comm]

theorem lastMarker_number {tileCount : ℤ} {direction : SplitDirection}
    (hv : ValidCount tileCount direction) {i : ℕ} (hi : i < tileCount.toNat) :
    ∃ number, " [" ++ toString (i + 1) ++ "/" ++ toString tileCount ++ "]" = number ∧
      lastMarker number.toList = some 0 ∧ number.toList.getLast? = some ']' := by
  have htwo := two_le_of_validCount hv
  have hfour : tileCount ≤ 4 := by
    cases direction <;> simp only [ValidCount] at hv <;> omega
  have hcases : (tileCount = 2 ∧ (i = 0 ∨ i = 1)) ∨ (tileCount = 3 ∧ (i = 0 ∨ i = 1 ∨ i = 2)) ∨
      tileCount = 4 ∧ (i = 0 ∨ i = 1 ∨ i = 2 ∨ i = 3) := by omega
  rcases hcases with ⟨rfl, rfl | rfl⟩ | ⟨rfl, rfl | rfl | rfl⟩ | ⟨rfl, rfl | rfl | rfl | rfl⟩ <;>
    exact ⟨_, rfl, by decide +kernel, by decide +kernel⟩

/-- **The title** is recovered from a tile's. -/
theorem stripMarker_tileEntry (original : CameraEntry) (slotId splitGroupId : ℤ) {tileCount : ℤ}
    {direction : SplitDirection} (hv : ValidCount tileCount direction) {i : ℕ}
    (hi : i < tileCount.toNat) (ht : original.title ≠ "") :
    stripMarker (tileEntry original slotId splitGroupId tileCount direction i).title =
      original.title := by
  obtain ⟨number, hnumber, hmarker, hlast⟩ := lastMarker_number hv hi
  have htitle : (tileEntry original slotId splitGroupId tileCount direction i).title =
      original.title ++ number := by
    rw [← hnumber]
    simp only [tileEntry, String.append_assoc]
  have hpos : 0 < original.title.toList.length :=
    List.length_pos_iff.mpr fun h => ht (String.toList_eq_nil_iff.mp h)
  rw [htitle, stripMarker, String.toList_append, lastMarker_append _ hmarker, Nat.add_zero]
  dsimp only
  rw [if_pos ⟨hpos, by rw [List.getLast?_append, hlast]; rfl⟩, List.take_left, String.ofList_toList]

/-! ## Swaps -/

theorem contents_swapSlots (s : CameraModel) (indexA indexB : ℤ) :
    ((s.swapSlots indexA indexB).1.cameras.map content).Perm (s.cameras.map content) := by
  unfold CameraModel.swapSlots
  split_ifs with hr
  · obtain ⟨⟨ha0, ha⟩, ⟨hb0, hb⟩, -⟩ := hr
    have hA : indexA.toNat < (s.cameras.map content).length := by
      rw [List.length_map]
      omega
    have hB : indexB.toNat < (s.cameras.map content).length := by
      rw [List.length_map]
      omega
    have hp := List.set_set_perm hA hB
    rw [List.getElem_map, List.getElem_map] at hp
    rw [List.length_map] at hA hB
    rw [List.map_set, List.map_set, List.getD_eq_getElem _ _ hA, List.getD_eq_getElem _ _ hB]
    exact hp
  · exact List.Perm.refl _

theorem contents_swapAll (s : CameraModel) (swaps : List (ℤ × ℤ)) :
    ((s.swapAll swaps).cameras.map content).Perm (s.cameras.map content) := by
  unfold swapAll
  refine List.foldlRecOn (motive := fun (t : CameraModel) =>
    (t.cameras.map content).Perm (s.cameras.map content)) swaps _ (List.Perm.refl _)
    fun t ht ab _ => ?_
  exact (contents_swapSlots t ab.1 ab.2).trans ht

/-! ## The merge -/

/-- **What a merge does**: the group's first row is rewritten, its other rows go. -/
theorem exists_merged {s : CameraModel} {row : ℤ} (hr : s.IsRow row)
    (hcount : 2 ≤ (s.rowAt row).splitCount) (hgroup : 0 ≤ (s.rowAt row).splitGroupId)
    (htwo : 2 ≤ (s.cameras.filter fun cam =>
      cam.splitGroupId = (s.rowAt row).splitGroupId).length) :
    ∃ before first after, (s.mergeSlots row).1.cameras = before ++ mergedEntry first :: after ∧
      (s.groupIndices (s.rowAt row).splitGroupId).head? = some before.length ∧
      first ∈ s.cameras ∧ first.splitGroupId = (s.rowAt row).splitGroupId ∧
      s.cameras.Perm ((s.cameras.filter fun cam =>
        cam.splitGroupId = (s.rowAt row).splitGroupId) ++ (before ++ after)) := by
  rw [← map_groupIndices, List.length_map] at htwo
  unfold CameraModel.mergeSlots CameraModel.mergeGroupByIndex
  dsimp only
  rw [show s.cameras.getD row.toNat .default = s.rowAt row from rfl, if_neg]
  · split
    · next hi => simp [hi] at htwo
    · next hi => simp [hi] at htwo
    · next firstPos rest _ hi =>
      obtain ⟨before, after, first, hrows, hsub, hfirst, hperm, hpos⟩ := mergeRows_perm s _ hi
      exact ⟨before, first, after, hrows, by rw [hi, hpos]; rfl, hsub.subset (by simp), hfirst,
        hperm⟩
  · rw [not_or, not_or, not_not]
    exact ⟨hr, by omega, by omega⟩

/-! ## The theorem -/

theorem Shows.splitGroupId_lt {l : List (String × Layout)} {s : CameraModel} (h : Shows l s)
    {cam : CameraEntry} (hc : cam ∈ s.cameras) : cam.splitGroupId < s.nextSplitGroupId := by
  obtain ⟨e, he, ht⟩ := List.mem_flatMap.mp (h.tiles.mem_iff.mp (List.mem_map_of_mem hc))
  have hnext := h.nextGroup
  rcases splitCount_of_mem_tiles ht with ⟨-, -, hw⟩ | ⟨-, hg⟩
  · have hminus : cam.splitGroupId = -1 := congrArg Tile.splitGroupId hw
    omega
  · exact h.groups e he _ hg

theorem Shows.cameraId_ne {l : List (String × Layout)} {s : CameraModel} (h : Shows l s)
    {before after : List CameraEntry} {cam : CameraEntry} (hs : s.cameras = before ++ cam :: after)
    (h1 : cam.splitCount = 1) : ∀ other ∈ before ++ after, other.cameraId ≠ cam.cameraId := by
  obtain ⟨l', hl', hrest⟩ := h.whole_row hs h1
  intro other hother he
  obtain ⟨e, hel, ht⟩ := List.mem_flatMap.mp (hrest.mem_iff.mp (List.mem_map_of_mem hother))
  refine hl'.laid.camera_notMem (List.mem_map.mpr ⟨e, hel, ?_⟩)
  exact (cameraId_of_mem_tiles ht).symm.trans he

/-- Contents keep a property that does not look at slot ids and readings. -/
theorem forall_of_contents {p : CameraEntry → Prop} (hp : ∀ cam, p (content cam) ↔ p cam)
    {rows rows' : List CameraEntry} (h : (rows.map content).Perm (rows'.map content))
    (hall : ∀ cam ∈ rows', p cam) : ∀ cam ∈ rows, p cam := by
  intro cam hc
  obtain ⟨cam', hc', he⟩ := List.mem_map.mp (h.mem_iff.mp (List.mem_map_of_mem hc))
  rw [← hp, ← he, hp]
  exact hall cam' hc'

theorem filter_contents {p : CameraEntry → Bool} (hp : ∀ cam, p (content cam) = p cam)
    (rows : List CameraEntry) : (rows.map content).filter p = (rows.filter p).map content := by
  rw [List.filter_map]
  exact congrArg _ (List.filter_congr fun cam _ => hp cam)

theorem Splitting.group_rows {s s' : CameraModel} {l : List (String × Layout)} (h : Shows l s)
    {before after : List CameraEntry} {original : CameraEntry} {tileCount : ℤ}
    {direction : SplitDirection} {autoSplit : Bool}
    (hs : Splitting s before original after tileCount direction autoSplit s') :
    (s'.cameras.filter fun cam => cam.splitGroupId = s.nextSplitGroupId) =
        s.tilesOf original tileCount direction ∧
      (s'.cameras.filter fun cam => ¬ cam.splitGroupId = s.nextSplitGroupId) = before ++ after := by
  have hout : ∀ cam ∈ before ++ after, ¬ cam.splitGroupId = s.nextSplitGroupId := fun cam hc =>
    (h.splitGroupId_lt (by rw [hs.rows]; simp at hc ⊢; tauto)).ne
  have hin : ∀ cam ∈ s.tilesOf original tileCount direction,
      cam.splitGroupId = s.nextSplitGroupId := by
    intro cam hc
    obtain ⟨k, -, rfl⟩ := List.mem_map.mp hc
    rfl
  have hbefore := fun cam hc => hout cam (List.mem_append_left after hc)
  have hafter := fun cam hc => hout cam (List.mem_append_right before hc)
  simp only [hs.cameras, List.filter_append]
  constructor
  · rw [List.filter_eq_nil_iff.mpr fun cam hc => by simpa using hbefore cam hc,
      List.filter_eq_self.mpr fun cam hc => by simpa using hin cam hc,
      List.filter_eq_nil_iff.mpr fun cam hc => by simpa using hafter cam hc, List.nil_append,
      List.append_nil]
  · rw [List.filter_eq_self.mpr fun cam hc => by simpa using hbefore cam hc,
      List.filter_eq_nil_iff.mpr fun cam hc => by simpa using hin cam hc,
      List.filter_eq_self.mpr fun cam hc => by simpa using hafter cam hc, List.append_nil]

theorem restores_mergedEntry {original first : CameraEntry} {slotId splitGroupId tileCount : ℤ}
    {direction : SplitDirection} (hsplit : Splits original tileCount direction)
    (ht : original.title ≠ "") {i : ℕ} (hi : i < tileCount.toNat)
    (h : content first = content (tileEntry original slotId splitGroupId tileCount direction i)) :
    Restores original (mergedEntry first) := by
  have hid := congrArg CameraEntry.cameraId h
  have htitle := congrArg CameraEntry.title h
  have honline := congrArg CameraEntry.isOnline h
  have htype := congrArg CameraEntry.cameraType h
  have hdescription := congrArg CameraEntry.description h
  refine ⟨hid, ?_, honline, htype, hdescription, rfl, rfl, rfl, rfl⟩
  have hstrip := stripMarker_tileEntry original slotId splitGroupId hsplit.1 hi ht
  exact (congrArg stripMarker htitle).trans hstrip

/-- After the swaps, the rows of the new group have the contents of the tiles, and the others those
of the other rows: swaps move the contents among the rows. -/
theorem Splitting.group_contents {s s₁ s' : CameraModel} {l : List (String × Layout)}
    (h : Shows l s) {before after : List CameraEntry} {original : CameraEntry} {tileCount : ℤ}
    {direction : SplitDirection} {autoSplit : Bool}
    (hs : Splitting s before original after tileCount direction autoSplit s₁)
    (hcontents : (s'.cameras.map content).Perm (s₁.cameras.map content)) :
    ((s'.cameras.filter fun cam => cam.splitGroupId = s.nextSplitGroupId).map content).Perm
        ((s.tilesOf original tileCount direction).map content) ∧
      ((s'.cameras.filter fun cam => ¬ cam.splitGroupId = s.nextSplitGroupId).map content).Perm
        ((before ++ after).map content) := by
  obtain ⟨hin, hout⟩ := hs.group_rows h
  constructor
  · have hp := hcontents.filter fun cam => cam.splitGroupId = s.nextSplitGroupId
    rw [filter_contents fun _ => rfl, filter_contents fun _ => rfl] at hp
    exact hp.trans (List.Perm.of_eq (congrArg (List.map content) hin))
  · have hp := hcontents.filter fun cam => ¬ cam.splitGroupId = s.nextSplitGroupId
    rw [filter_contents fun _ => rfl, filter_contents fun _ => rfl] at hp
    exact hp.trans (List.Perm.of_eq (congrArg (List.map content) hout))

theorem exists_tile {s s' : CameraModel} {original : CameraEntry} {tileCount : ℤ}
    {direction : SplitDirection}
    (hin : ((s'.cameras.filter fun cam => cam.splitGroupId = s.nextSplitGroupId).map content).Perm
      ((s.tilesOf original tileCount direction).map content))
    {cam : CameraEntry} (hc : cam ∈ s'.cameras) (hg : cam.splitGroupId = s.nextSplitGroupId) :
    ∃ i < tileCount.toNat, content cam = content
      (tileEntry original (s.nextSlotId + i) s.nextSplitGroupId tileCount direction (0 + i)) := by
  have hm := hin.mem_iff.mp
    (List.mem_map_of_mem (List.mem_filter.mpr ⟨hc, decide_eq_true hg⟩))
  obtain ⟨tile, htile, he⟩ := List.mem_map.mp hm
  obtain ⟨i, hi, rfl⟩ := List.mem_map.mp htile
  exact ⟨i, List.mem_range.mp hi, he.symm⟩

/-- **The merge undoes the split**, in a model that shows a layout. -/
theorem Shows.undone {l : List (String × Layout)} {s : CameraModel} (h : Shows l s)
    {rowIndex tileCount direction anyTile : ℤ} {swaps : List (ℤ × ℤ)} (hr : s.IsRow rowIndex)
    (hsplit : Splits (s.rowAt rowIndex) tileCount (directionOf direction))
    (ht : (s.rowAt rowIndex).title ≠ "") {s' : CameraModel}
    (hs' : s.rearranged rowIndex tileCount direction swaps = s') (hany : s'.IsRow anyTile)
    (hgroup : (s'.rowAt anyTile).splitGroupId = s.nextSplitGroupId) :
    Undone s s' (s'.mergeSlots anyTile).1 rowIndex := by
  obtain ⟨before₀, after₀, hlen, hs⟩ :=
    s.exists_splitting false hr hsplit.1 hsplit.2.1 hsplit.2.2
  have hcontents : (s'.cameras.map content).Perm
      ((s.splitSlot rowIndex tileCount direction).1.cameras.map content) :=
    hs' ▸ contents_swapAll _ swaps
  obtain ⟨hin, hout⟩ := hs.group_contents h hcontents
  -- the row that is merged is a tile, so its group is large enough to merge
  have htwo := two_le_of_validCount hsplit.1
  have hnext := h.nextGroup
  obtain ⟨i, -, hi⟩ := exists_tile hin hany.rowAt_mem hgroup
  have hcount : (s'.rowAt anyTile).splitCount = tileCount := congrArg CameraEntry.splitCount hi
  have hmany : (s'.cameras.filter fun cam => cam.splitGroupId = s.nextSplitGroupId).length =
      tileCount.toNat := by
    have hl := hin.length_eq
    rwa [List.length_map, List.length_map, tilesOf, newTiles, List.length_map,
      List.length_range] at hl
  obtain ⟨before, first, after, hrows, hpos, hfirst, hfg, hperm⟩ := exists_merged hany
    (by omega) (by omega) (by rw [hgroup]; omega)
  rw [hgroup] at hpos hfg hperm
  obtain ⟨k, hk, hcontent⟩ := exists_tile hin hfirst hfg
  obtain ⟨hothers, hothers'⟩ := others_of_perm hperm
  have hrest : ((before ++ after).map content).Perm ((before₀ ++ after₀).map content) := by
    refine List.Perm.trans ?_ hout
    rw [hothers] at hothers'
    exact (hothers'.map content).symm
  have herase : s.cameras.eraseIdx rowIndex.toNat = before₀ ++ after₀ := by
    rw [hs.rows, ← hlen, List.eraseIdx_append_of_length_le le_rfl, Nat.sub_self]
    rfl
  refine ⟨?_, before, mergedEntry first, after, hrows, hpos,
    restores_mergedEntry hsplit ht (by omega) hcontent, ?_, herase ▸ hrest⟩
  · have hl := hrest.length_eq
    rw [List.length_map, List.length_map, List.length_append, List.length_append] at hl
    rw [hrows, hs.rows, List.length_append, List.length_append, List.length_cons, List.length_cons]
    omega
  · exact forall_of_contents (p := fun cam => cam.cameraId ≠ (s.rowAt rowIndex).cameraId)
      (fun _ => Iff.rfl) hrest (h.cameraId_ne hs.rows hsplit.2.1)

/-- **Merge undoes split.** After a split, any swaps and a merge of the new group, the row is back
and the others have kept their contents. -/
theorem merge_undoes_split (autoSplit : String → ℤ) (ops : List Op)
    (rowIndex tileCount direction anyTile : ℤ) (swaps : List (ℤ × ℤ))
    (hr : (reach autoSplit ops).IsRow rowIndex)
    (hsplit : Splits ((reach autoSplit ops).rowAt rowIndex) tileCount (directionOf direction))
    (ht : ((reach autoSplit ops).rowAt rowIndex).title ≠ "")
    (hany : ((reach autoSplit ops).rearranged rowIndex tileCount direction swaps).IsRow anyTile)
    (hgroup : (((reach autoSplit ops).rearranged rowIndex tileCount direction swaps).rowAt
      anyTile).splitGroupId = (reach autoSplit ops).nextSplitGroupId) :
    Undone (reach autoSplit ops)
      ((reach autoSplit ops).rearranged rowIndex tileCount direction swaps)
      (((reach autoSplit ops).rearranged rowIndex tileCount direction swaps).mergeSlots anyTile).1
      rowIndex := by
  obtain ⟨l, h⟩ := exists_shows autoSplit ops
  exact Shows.undone h hr hsplit ht rfl hany hgroup

/-- The first of two cameras is split into a grid, and its tiles are swapped with the other. -/
theorem merge_undoes_split_grid :
    Undone (reach (fun _ => 0) [sampleSnapshot])
      ((reach (fun _ => 0) [sampleSnapshot]).rearranged 0 4 2 [(0, 4), (1, 2)])
      (((reach (fun _ => 0) [sampleSnapshot]).rearranged 0 4 2 [(0, 4), (1, 2)]).mergeSlots 4).1 0 :=
  merge_undoes_split (fun _ => 0) [sampleSnapshot] 0 4 2 4 [(0, 4), (1, 2)] (by decide +kernel)
    (by decide +kernel) (by decide +kernel) (by decide +kernel) (by decide +kernel)

end CameraModel

end Models

end AnoMap
