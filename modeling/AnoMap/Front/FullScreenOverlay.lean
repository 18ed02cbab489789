import AnoMap.Front.VideoSurface

/-!
# The full-screen overlay

A tile of the dashboard is opened over the page. The wheel zooms at the mouse, and dragging pans;
both keep the video over its container. Arithmetic is exact.

* `FullScreenOverlay`, `step`: the zoom, the pan and the container, and what happens to them.
* `Filled`: the video covers the container; `Acts`: a gesture that leaves it so whatever was before;
  `Keeps`: all but a container that shrinks under a zoomed video.
* **`zoomed_within_crop`**: from any gesture on, until the container shrinks, each point of the
  container shows one point of the frame, of the part the tile shows.
* **`zoom_in_fixes_cursor`**: zooming in keeps the point under the mouse.
-/

set_option autoImplicit false

namespace AnoMap

namespace Front

open Models VideoSurface

/-- `width` and `height` are those of `videoContainer`. -/
structure FullScreenOverlay where
  cropRect : Rect ℚ
  zoomScale : ℚ
  panX : ℚ
  panY : ℚ
  lastPos : ℚ × ℚ
  width : ℚ
  height : ℚ

namespace FullScreenOverlay

def init : FullScreenOverlay := ⟨.unit, 1, 0, 0, (0, 0), 0, 0⟩

/-- `wheel up`: `angleDelta.y` is positive; `positionChanged pressed`: the mouse is moved. -/
inductive Event where
  | openDialog (crop : Rect ℚ)
  | resize (width height : ℚ)
  | wheel (up : Bool) (x y : ℚ)
  | pressed (x y : ℚ)
  | positionChanged (pressed : Bool) (x y : ℚ)

/-- `newScale`. -/
def wheelScale (oldScale : ℚ) (up : Bool) : ℚ :=
  let newScale := oldScale * (if up then 11 / 10 else 9 / 10)
  let newScale := if newScale < 1 then 1 else newScale
  if 3 < newScale then 3 else newScale

/-- `if (pan > 0) pan = 0; if (pan < min) pan = min;` -/
def constrainPan (min pan : ℚ) : ℚ :=
  let pan := if 0 < pan then 0 else pan
  if pan < min then min else pan

def wheel (s : FullScreenOverlay) (up : Bool) (x y : ℚ) : FullScreenOverlay :=
  let newScale := wheelScale s.zoomScale up
  if newScale = s.zoomScale then s
  else
    let cx := (x - s.panX) / s.zoomScale
    let cy := (y - s.panY) / s.zoomScale
    if newScale ≤ 1 then { s with zoomScale := newScale, panX := 0, panY := 0 }
    else
      { s with
        zoomScale := newScale
        panX := constrainPan (s.width * (1 - newScale)) (x - cx * newScale)
        panY := constrainPan (s.height * (1 - newScale)) (y - cy * newScale) }

def positionChanged (s : FullScreenOverlay) (pressed : Bool) (x y : ℚ) : FullScreenOverlay :=
  if pressed ∧ 1 < s.zoomScale then
    let newX := s.panX + (x - s.lastPos.1)
    let newY := s.panY + (y - s.lastPos.2)
    let minX := s.width * (1 - s.zoomScale)
    let minY := s.height * (1 - s.zoomScale)
    { s with panX := min 0 (max minX newX), panY := min 0 (max minY newY), lastPos := (x, y) }
  else s

def openDialog (s : FullScreenOverlay) (crop : Rect ℚ) : FullScreenOverlay :=
  { s with cropRect := crop, zoomScale := 1, panX := 0, panY := 0 }

def step (s : FullScreenOverlay) : Event → FullScreenOverlay × List Empty
  | .openDialog crop => (s.openDialog crop, [])
  | .resize width height => ({ s with width := width, height := height }, [])
  | .wheel up x y => (s.wheel up x y, [])
  | .pressed x y => ({ s with lastPos := (x, y) }, [])
  | .positionChanged pressed x y => (s.positionChanged pressed x y, [])

/-- Where the content of the container stands in it. -/
def zoomContent (s : FullScreenOverlay) : Rect ℚ := ⟨s.panX, s.panY, s.zoomScale, s.zoomScale⟩

/-- Where a point of the frame stands in the container. -/
def screen (s : FullScreenOverlay) (q : ℚ × ℚ) : ℚ × ℚ :=
  s.zoomContent.place ((videoOutput s.width s.height s.cropRect).place q)

/-- The points of the container. -/
def container (s : FullScreenOverlay) : Set (ℚ × ℚ) := (rootItem s.width s.height).region

/-! ## The video over its container -/

/-- The zoom is in its bounds, and the sides of the video are outside the container. -/
structure Filled (s : FullScreenOverlay) : Prop where
  left : s.panX ≤ 0
  right : s.width * (1 - s.zoomScale) ≤ s.panX
  top : s.panY ≤ 0
  bottom : s.height * (1 - s.zoomScale) ≤ s.panY

/-- What holds of every overlay. -/
structure Sized (s : FullScreenOverlay) : Prop where
  width : 0 ≤ s.width
  height : 0 ≤ s.height
  one_le : 1 ≤ s.zoomScale
  le_three : s.zoomScale ≤ 3

/-- A gesture that moves the video, or opens another one. -/
def Acts (s : FullScreenOverlay) : Event → Prop
  | .openDialog _ => True
  | .wheel up _ _ => wheelScale s.zoomScale up ≠ s.zoomScale
  | .positionChanged pressed _ _ => pressed ∧ 1 < s.zoomScale
  | _ => False

/-- The container does not shrink under a zoomed video. -/
def Keeps (s : FullScreenOverlay) : Event → Prop
  | .resize width height => s.zoomScale = 1 ∨ s.width ≤ width ∧ s.height ≤ height
  | _ => True

/-- Sizes are not negative, and tiles are those of a camera model. -/
def Valid (autoSplit : String → ℤ) : Event → Prop
  | .openDialog crop => ∃ ops, ∃ cam ∈
      (Machine.final (CameraModel.step autoSplit) .empty ops).cameras, crop = cam.cropRect
  | .resize width height => 0 ≤ width ∧ 0 ≤ height
  | _ => True

variable {s : FullScreenOverlay}

theorem wheelScale_bounds (oldScale : ℚ) (up : Bool) :
    1 ≤ wheelScale oldScale up ∧ wheelScale oldScale up ≤ 3 := by
  unfold wheelScale
  dsimp only
  split_ifs <;> constructor <;> linarith

theorem constrainPan_bounds {min : ℚ} (hmin : min ≤ 0) (pan : ℚ) :
    constrainPan min pan ≤ 0 ∧ min ≤ constrainPan min pan := by
  unfold constrainPan
  dsimp only
  split_ifs <;> constructor <;> linarith

theorem constrainPan_of_mem {min pan : ℚ} (h₀ : pan ≤ 0) (hmin : min ≤ pan) :
    constrainPan min pan = pan := by
  unfold constrainPan
  dsimp only
  rw [if_neg (not_lt.mpr h₀), if_neg (not_lt.mpr hmin)]

theorem min_max_bounds {lo : ℚ} (hlo : lo ≤ 0) (pan : ℚ) :
    min 0 (max lo pan) ≤ 0 ∧ lo ≤ min 0 (max lo pan) :=
  ⟨min_le_left _ _, le_min hlo (le_max_left _ _)⟩

theorem mul_one_sub_nonpos {w z : ℚ} (hw : 0 ≤ w) (hz : 1 ≤ z) : w * (1 - z) ≤ 0 :=
  mul_nonpos_of_nonneg_of_nonpos hw (by linarith)

theorem Sized.step {autoSplit : String → ℤ} (h : s.Sized) {e : Event} (he : Valid autoSplit e) :
    (s.step e).1.Sized := by
  cases e with
  | openDialog crop =>
    exact ⟨h.width, h.height, le_refl _, by norm_num [FullScreenOverlay.step, openDialog]⟩
  | resize width height => exact ⟨he.1, he.2, h.one_le, h.le_three⟩
  | wheel up x y =>
    obtain ⟨h₁, h₃⟩ := wheelScale_bounds s.zoomScale up
    unfold FullScreenOverlay.step wheel
    dsimp only
    split_ifs
    · exact h
    · exact ⟨h.width, h.height, h₁, h₃⟩
    · exact ⟨h.width, h.height, h₁, h₃⟩
  | pressed x y => exact ⟨h.width, h.height, h.one_le, h.le_three⟩
  | positionChanged pressed x y =>
    unfold FullScreenOverlay.step positionChanged
    dsimp only
    split_ifs
    · exact ⟨h.width, h.height, h.one_le, h.le_three⟩
    · exact h

theorem Sized.filled_of_acts (h : s.Sized) {e : Event} (he : Acts s e) : (s.step e).1.Filled := by
  cases e with
  | openDialog crop =>
    constructor <;> simp [FullScreenOverlay.step, openDialog]
  | resize width height => exact absurd he not_false
  | wheel up x y =>
    obtain ⟨h₁, -⟩ := wheelScale_bounds s.zoomScale up
    unfold FullScreenOverlay.step wheel
    dsimp only
    rw [if_neg he]
    split_ifs with hle
    · have hone : wheelScale s.zoomScale up = 1 := le_antisymm hle h₁
      constructor <;> simp [hone]
    · obtain ⟨hx₀, hx⟩ := constrainPan_bounds (mul_one_sub_nonpos h.width h₁)
        (x - (x - s.panX) / s.zoomScale * wheelScale s.zoomScale up)
      obtain ⟨hy₀, hy⟩ := constrainPan_bounds (mul_one_sub_nonpos h.height h₁)
        (y - (y - s.panY) / s.zoomScale * wheelScale s.zoomScale up)
      exact ⟨hx₀, hx, hy₀, hy⟩
  | pressed x y => exact absurd he not_false
  | positionChanged pressed x y =>
    unfold FullScreenOverlay.step positionChanged
    dsimp only
    have hdrag : pressed = true ∧ 1 < s.zoomScale := he
    rw [if_pos hdrag]
    obtain ⟨hx₀, hx⟩ := min_max_bounds (mul_one_sub_nonpos h.width h.one_le)
      (s.panX + (x - s.lastPos.1))
    obtain ⟨hy₀, hy⟩ := min_max_bounds (mul_one_sub_nonpos h.height h.one_le)
      (s.panY + (y - s.lastPos.2))
    exact ⟨hx₀, hx, hy₀, hy⟩

theorem Filled.step (hf : s.Filled) (h : s.Sized) {e : Event} (he : Keeps s e) :
    (s.step e).1.Filled := by
  by_cases hacts : Acts s e
  · exact h.filled_of_acts hacts
  cases e with
  | openDialog crop => exact absurd trivial hacts
  | resize width height =>
    have hleft := hf.left
    have htop := hf.top
    have hright := hf.right
    have hbottom := hf.bottom
    have hz := h.one_le
    rw [FullScreenOverlay.step]
    obtain hone | ⟨hw, hh⟩ := he
    · rw [hone, sub_self, mul_zero] at hright hbottom
      constructor <;> dsimp only
      · exact hleft
      · rw [hone, sub_self, mul_zero]
        exact hright
      · exact htop
      · rw [hone, sub_self, mul_zero]
        exact hbottom
    · refine ⟨hleft, ?_, htop, ?_⟩
      · exact (mul_le_mul_of_nonpos_right hw (by linarith)).trans hright
      · exact (mul_le_mul_of_nonpos_right hh (by linarith)).trans hbottom
  | wheel up x y =>
    have hsame : wheelScale s.zoomScale up = s.zoomScale := not_not.mp hacts
    unfold FullScreenOverlay.step wheel
    dsimp only
    rw [if_pos hsame]
    exact hf
  | pressed x y => exact ⟨hf.left, hf.right, hf.top, hf.bottom⟩
  | positionChanged pressed x y =>
    unfold FullScreenOverlay.step positionChanged
    dsimp only
    have hstill : ¬ (pressed = true ∧ 1 < s.zoomScale) := hacts
    rw [if_neg hstill]
    exact hf

/-! ## Runs -/

/-- The tile that is open shows a part of the frame. -/
structure Opened (s : FullScreenOverlay) : Prop where
  area : s.cropRect.HasArea
  subset : s.cropRect.region ⊆ (Rect.unit : Rect ℚ).region

theorem Opened.step {autoSplit : String → ℤ} (h : s.Opened) {e : Event} (he : Valid autoSplit e) :
    (s.step e).1.Opened := by
  cases e with
  | openDialog crop =>
    obtain ⟨ops, cam, hcam, rfl⟩ := he
    obtain ⟨l, hl⟩ := CameraModel.exists_shows autoSplit ops
    obtain ⟨harea, hsub⟩ := Shows.crops_subset hl hcam
    exact ⟨harea, hsub⟩
  | resize width height => exact ⟨h.area, h.subset⟩
  | wheel up x y =>
    unfold FullScreenOverlay.step wheel
    dsimp only
    split_ifs
    · exact h
    · exact ⟨h.area, h.subset⟩
    · exact ⟨h.area, h.subset⟩
  | pressed x y => exact ⟨h.area, h.subset⟩
  | positionChanged pressed x y =>
    unfold FullScreenOverlay.step positionChanged
    dsimp only
    split_ifs
    · exact ⟨h.area, h.subset⟩
    · exact h

theorem sized_final {autoSplit : String → ℤ} (es : List Event) (hes : ∀ e ∈ es, Valid autoSplit e) :
    (Machine.final step init es).Sized ∧ (Machine.final step init es).Opened :=
  Machine.invariant step (fun s => s.Sized ∧ s.Opened) (Valid autoSplit)
    ⟨⟨le_refl _, le_refl _, le_refl _, by norm_num [init]⟩, Rect.hasArea_unit, subset_refl _⟩
    (fun _ _ he h => ⟨h.1.step he, h.2.step he⟩) es hes

theorem filled_final {autoSplit : String → ℤ} (pre : List Event) (e : Event) (post : List Event)
    (hvalid : ∀ e' ∈ pre ++ e :: post, Valid autoSplit e')
    (hacts : Acts (Machine.final step init pre) e)
    (hkeeps : Machine.Along step Keeps (Machine.final step init (pre ++ [e])) post) :
    (Machine.final step init (pre ++ e :: post)).Filled := by
  have hsplit : pre ++ e :: post = (pre ++ [e]) ++ post := by simp
  rw [hsplit] at hvalid ⊢
  clear hsplit
  induction post using List.reverseRecOn with
  | nil =>
    rw [List.append_nil, Machine.final_concat]
    have hpre := (sized_final pre fun e' he' => hvalid e' (by simp [he'])).1
    exact hpre.filled_of_acts hacts
  | append_singleton post e' ih =>
    rw [Machine.along_concat, ← Machine.final_append] at hkeeps
    rw [← List.append_assoc] at hvalid ⊢
    rw [List.forall_mem_append] at hvalid
    rw [Machine.final_concat]
    exact (ih hvalid.1 hkeeps.1).step (sized_final _ hvalid.1).1 hkeeps.2

theorem Filled.screen_eq_iff (hf : s.Filled) (h : s.Sized) (ho : s.Opened) (hw : 0 < s.width)
    (hh : 0 < s.height) {p : ℚ × ℚ} (hp : p ∈ s.container) :
    ∃ q ∈ s.cropRect.region, ∀ q', s.screen q' = p ↔ q' = q := by
  have hout := hasArea_videoOutput hw hh ho.area
  have hzoom : s.zoomContent.HasArea :=
    ⟨zero_lt_one.trans_le h.one_le, zero_lt_one.trans_le h.one_le⟩
  have hplace : ∀ q, s.screen q =
      (s.zoomContent.within (videoOutput s.width s.height s.cropRect)).place q :=
    fun q => (Rect.place_within _ _ q).symm
  -- the container lies in the zoomed video, and so in the part of the frame that stands there
  have hin : p ∈ ((s.zoomContent.within (videoOutput s.width s.height s.cropRect)).within
      s.cropRect).region := by
    rw [← Rect.within_assoc, within_videoOutput _ _ ho.area]
    have hleft := hf.left
    have hright := hf.right
    have htop := hf.top
    have hbottom := hf.bottom
    simp only [container, rootItem, zoomContent, Rect.within, Rect.region, Set.mem_prod,
      Set.mem_Icc] at hp ⊢
    obtain ⟨⟨hx₀, hx⟩, hy₀, hy⟩ := hp
    refine ⟨⟨?_, ?_⟩, ?_, ?_⟩ <;> linarith
  obtain ⟨q, ⟨hq, hqc⟩, -⟩ := Rect.existsUnique_place (hzoom.within hout) hin
  refine ⟨q, hqc, fun q' => ?_⟩
  rw [hplace, ← hq]
  exact (Rect.place_injective (hzoom.within hout)).eq_iff

/-- **The zoomed video.** From any gesture until the container shrinks, each point of a container
that is not empty shows exactly one point of the frame, of the part the open tile shows. -/
theorem zoomed_within_crop (autoSplit : String → ℤ) (pre : List Event) (e : Event)
    (post : List Event) (hvalid : ∀ e' ∈ pre ++ e :: post, Valid autoSplit e')
    (hacts : Acts (Machine.final step init pre) e)
    (hkeeps : Machine.Along step Keeps (Machine.final step init (pre ++ [e])) post) :
    let s := Machine.final step init (pre ++ e :: post)
    0 < s.width → 0 < s.height → ∀ p ∈ s.container,
      ∃ q ∈ s.cropRect.region ∩ (Rect.unit : Rect ℚ).region, ∀ q', s.screen q' = p ↔ q' = q := by
  intro s hw hh p hp
  obtain ⟨hsized, hopened⟩ := sized_final _ hvalid
  have hfilled := filled_final pre e post hvalid hacts hkeeps
  obtain ⟨q, hq, huniq⟩ := hfilled.screen_eq_iff hsized hopened hw hh hp
  exact ⟨q, ⟨hq, hopened.subset hq⟩, huniq⟩

/-- A whole camera is opened and zoomed twice. -/
theorem zoomed_within_crop_twice :
    let s := Machine.final step init
      [.resize 200 100, .openDialog .unit, .wheel true 50 20, .wheel true 60 20]
    ∃ q ∈ s.cropRect.region ∩ (Rect.unit : Rect ℚ).region,
      ∀ q', s.screen q' = (100, 50) ↔ q' = q := by
  refine zoomed_within_crop (fun _ => 0) [.resize 200 100] (.openDialog .unit)
    [.wheel true 50 20, .wheel true 60 20] ?_ trivial ⟨trivial, trivial, trivial⟩
    (by decide +kernel) (by decide +kernel) (100, 50) ?_
  · rw [List.cons_append, List.nil_append, List.forall_mem_cons, List.forall_mem_cons]
    refine ⟨⟨by norm_num, by norm_num⟩, ⟨[.onStoreUpdated ⟨id, HashOrder.perm_id⟩
      [⟨"A", "", true, "10.0.0.1/0", .zero⟩]], _, List.mem_cons_self, rfl⟩, ?_⟩
    rw [List.forall_mem_cons, List.forall_mem_singleton]
    exact ⟨trivial, trivial⟩
  · exact ⟨⟨by decide +kernel, by decide +kernel⟩, by decide +kernel, by decide +kernel⟩

theorem le_wheelScale {z : ℚ} (h₁ : 1 ≤ z) (h₃ : z ≤ 3) : z ≤ wheelScale z true := by
  unfold wheelScale
  dsimp only
  rw [if_pos rfl]
  split_ifs <;> linarith

/-- Zooming in at `x` does not move a video that covers its container farther than it may. -/
theorem anchored_bounds {x pan w z z' : ℚ} (hx₀ : 0 ≤ x) (hx : x ≤ w) (hpan : pan ≤ 0)
    (hmin : w * (1 - z) ≤ pan) (hz : 0 < z) (hzz' : z ≤ z') :
    x - (x - pan) / z * z' ≤ 0 ∧ w * (1 - z') ≤ x - (x - pan) / z * z' := by
  have hc : (x - pan) / z * z = x - pan := div_mul_cancel₀ _ hz.ne'
  have hc₀ : 0 ≤ (x - pan) / z := div_nonneg (by linarith) hz.le
  have hcw : (x - pan) / z ≤ w := by
    rw [div_le_iff₀ hz]
    linarith
  constructor
  · have := mul_le_mul_of_nonneg_left hzz' hc₀
    linarith
  · have := mul_le_mul_of_nonneg_left hzz' (sub_nonneg.mpr hcw)
    linarith

/-- **Zooming in.** In any such run, the point of the frame under the mouse stays there. -/
theorem zoom_in_fixes_cursor (autoSplit : String → ℤ) (pre : List Event) (e : Event)
    (post : List Event) (hvalid : ∀ e' ∈ pre ++ e :: post, Valid autoSplit e')
    (hacts : Acts (Machine.final step init pre) e)
    (hkeeps : Machine.Along step Keeps (Machine.final step init (pre ++ [e])) post) :
    let s := Machine.final step init (pre ++ e :: post)
    ∀ p ∈ s.container, ∀ q, s.screen q = p → (s.wheel true p.1 p.2).screen q = p := by
  intro s p hp q hq
  have hsized : s.Sized := (sized_final _ hvalid).1
  have hfilled : s.Filled := filled_final pre e post hvalid hacts hkeeps
  clear_value s
  have hle := le_wheelScale hsized.one_le hsized.le_three
  have hz : 0 < s.zoomScale := zero_lt_one.trans_le hsized.one_le
  simp only [container, rootItem, Rect.region, Set.mem_prod, Set.mem_Icc, zero_add] at hp
  obtain ⟨⟨hx₀, hx⟩, hy₀, hy⟩ := hp
  obtain ⟨hbx₀, hbx⟩ := anchored_bounds hx₀ hx hfilled.left hfilled.right hz hle
  obtain ⟨hby₀, hby⟩ := anchored_bounds hy₀ hy hfilled.top hfilled.bottom hz hle
  unfold wheel
  dsimp only
  split_ifs with hsame hone
  · exact hq
  · exact absurd (le_antisymm (hone.trans hsized.one_le) hle) hsame
  · rw [constrainPan_of_mem hbx₀ hbx, constrainPan_of_mem hby₀ hby]
    rw [← hq]
    simp only [screen, zoomContent, Rect.place, add_sub_cancel_left]
    rw [mul_div_cancel_right₀ _ hz.ne', mul_div_cancel_right₀ _ hz.ne']
    apply Prod.ext <;> ring

/-- A whole camera is opened, and zoomed at a point and then at another. -/
theorem zoom_in_fixes_cursor_second :
    let s := Machine.final step init [.resize 200 100, .openDialog .unit, .wheel true 50 20]
    (s.wheel true 60 20).screen (13 / 44, 1 / 5) = (60, 20) := by
  refine zoom_in_fixes_cursor (fun _ => 0) [.resize 200 100] (.openDialog .unit)
    [.wheel true 50 20] ?_ trivial ⟨trivial, trivial⟩ (60, 20) ?_ _ (by decide +kernel)
  · rw [List.cons_append, List.nil_append, List.forall_mem_cons, List.forall_mem_cons,
      List.forall_mem_singleton]
    exact ⟨⟨by norm_num, by norm_num⟩, ⟨[.onStoreUpdated ⟨id, HashOrder.perm_id⟩
      [⟨"A", "", true, "10.0.0.1/0", .zero⟩]], _, List.mem_cons_self, rfl⟩, trivial⟩
  · exact ⟨⟨by decide +kernel, by decide +kernel⟩, by decide +kernel, by decide +kernel⟩

end FullScreenOverlay

end Front

end AnoMap
