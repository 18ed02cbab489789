import AnoMap.Lib.Machine
import AnoMap.Models.AiImageModel
import Mathlib.Order.CompletePartialOrder

/-!
# The page of AI detections

`AiPage.qml` shows one image of the camera selected: the newest, or an older one that the wheel went
back to. An image that arrives for that camera is jumped to.

* `AiPage`, `step`: the selection, the index of the image and what is displayed.
* `designated`: what the selection and the index say should be displayed; `Tells`: the steps after
  which the page is told to.
* **`image_in_sync`**: it is displayed all along a run if and only if no older image stays when its
  camera is clicked again, and none when the images are cleared.
* **`shows_own_camera`**: in any run at all, an image that is displayed was received for the camera
  selected, and the index is that of an image the model can hold.
-/

set_option autoImplicit false

namespace AnoMap

namespace Front

open Models

/-- `latestAiImage`, its time if it has one, and `imageIndexText`. -/
structure AiDisplay where
  source : String
  timestamp : Option Int64
  imageIndex : Option (ℕ × ℕ)
  deriving DecidableEq

structure AiPage where
  aiImageModel : AiImageModel
  selectedCameraId : String
  currentImageIndex : ℤ
  display : AiDisplay

namespace AiDisplay

def blank : AiDisplay := ⟨"", none, none⟩

/-- The event at `idx` of a list, if it has an image. -/
def ofEvent (events : List AiImageEvent) (idx : ℕ) : AiDisplay :=
  match events[idx]? with
  | some evt =>
    if evt.base64Image ≠ "" then
      ⟨evt.base64Image, if 0 < evt.timestamp then some evt.timestamp else none,
        some (idx + 1, events.length)⟩
    else blank
  | none => blank

end AiDisplay

namespace AiPage

def init : AiPage := ⟨.empty, "", -1, .blank⟩

inductive Event where
  | onImageReceivedBase64 (ev : AiImageEvent)
  | clearAll
  | onCameraSelected (cameraId : String)
  | onDeactivating
  | onWheel (up : Bool)

def events (p : AiPage) : List AiImageEvent := p.aiImageModel.getEventsForCamera p.selectedCameraId

/-- An index that is none of the list is that of the newest. -/
def indexOf (events : List AiImageEvent) (idx : ℤ) : ℤ :=
  if idx < 0 ∨ events.length ≤ idx then events.length - 1 else idx

def updateImage (p : AiPage) : AiPage :=
  if p.selectedCameraId = "" ∨ p.events = [] then { p with display := .blank }
  else
    let idx := indexOf p.events p.currentImageIndex
    { p with currentImageIndex := idx, display := .ofEvent p.events idx.toNat }

/-- `onSelectedCameraIdChanged`. -/
def setSelectedCameraId (p : AiPage) (cameraId : String) : AiPage :=
  if p.selectedCameraId ≠ cameraId then
    { p with selectedCameraId := cameraId, currentImageIndex := -1 }.updateImage
  else p

def onAiEventReceived (p : AiPage) (cameraId : String) : AiPage :=
  if cameraId = p.selectedCameraId then { p with currentImageIndex := -1 }.updateImage else p

def onWheel (p : AiPage) (up : Bool) : AiPage :=
  if p.events = [] then p
  else
    let idx := if p.currentImageIndex < 0 then (p.events.length : ℤ) - 1 else p.currentImageIndex
    let idx := if up then min (idx + 1) (p.events.length - 1) else max (idx - 1) 0
    { p with currentImageIndex := idx }.updateImage

def step (p : AiPage) : Event → AiPage × List Empty
  | .onImageReceivedBase64 ev =>
    let r := p.aiImageModel.onImageReceivedBase64 ev
    (r.2.foldl onAiEventReceived { p with aiImageModel := r.1 }, [])
  | .clearAll => ({ p with aiImageModel := p.aiImageModel.clearAll }, [])
  | .onCameraSelected cameraId =>
    ({ p.setSelectedCameraId cameraId with currentImageIndex := -1 }, [])
  | .onDeactivating => ({ p.setSelectedCameraId "" with currentImageIndex := -1 }, [])
  | .onWheel up => (p.onWheel up, [])

/-- What is to be displayed of a list of events. -/
def displayOf (cameraId : String) (events : List AiImageEvent) (idx : ℤ) : AiDisplay :=
  if cameraId = "" ∨ events = [] then .blank else .ofEvent events (indexOf events idx).toNat

def designated (p : AiPage) : AiDisplay :=
  displayOf p.selectedCameraId p.events p.currentImageIndex

/-- The page is told of the step: a camera that is clicked again shows its newest image, and images
that are cleared are not displayed. -/
def Tells (p : AiPage) : Event → Prop
  | .clearAll => p.designated = .blank
  | .onCameraSelected cameraId => cameraId = p.selectedCameraId →
      p.designated = { p with currentImageIndex := -1 }.designated
  | _ => True

/-! ## What is displayed -/

variable {p : AiPage}

theorem indexOf_idem (events : List AiImageEvent) (idx : ℤ) :
    indexOf events (indexOf events idx) = indexOf events idx := by
  unfold indexOf
  split_ifs <;> omega

theorem updateImage_eq (p : AiPage) : p.updateImage =
    { p with
      currentImageIndex := if p.selectedCameraId = "" ∨ p.events = [] then p.currentImageIndex
        else indexOf p.events p.currentImageIndex
      display := p.designated } := by
  unfold updateImage designated displayOf
  split_ifs <;> rfl

theorem displayOf_settled (cameraId : String) (events : List AiImageEvent) (idx : ℤ) :
    displayOf cameraId events (if cameraId = "" ∨ events = [] then idx else indexOf events idx) =
      displayOf cameraId events idx := by
  unfold displayOf
  split_ifs
  · rfl
  · rw [indexOf_idem]

/-- The page displays what it is to. -/
def InSync (p : AiPage) : Prop := p.display = p.designated

theorem inSync_updateImage (p : AiPage) : p.updateImage.InSync := by
  rw [updateImage_eq]
  exact (displayOf_settled p.selectedCameraId p.events p.currentImageIndex).symm

theorem onImageReceived_eq (p : AiPage) (ev : AiImageEvent) :
    (p.step (.onImageReceivedBase64 ev)).1 =
      { p with aiImageModel := (p.aiImageModel.onImageReceivedBase64 ev).1 }.onAiEventReceived
        ev.cameraId := rfl

theorem events_of_ne {ev : AiImageEvent} (h : ev.cameraId ≠ p.selectedCameraId) :
    { p with aiImageModel := (p.aiImageModel.onImageReceivedBase64 ev).1 }.events = p.events :=
  p.aiImageModel.getEventsForCamera_of_ne h.symm

theorem designated_of_ne {ev : AiImageEvent} (h : ev.cameraId ≠ p.selectedCameraId) :
    { p with aiImageModel := (p.aiImageModel.onImageReceivedBase64 ev).1 }.designated =
      p.designated := by
  unfold designated
  rw [events_of_ne h]

/-- A camera that is selected anew shows its newest image, whatever index follows. -/
theorem InSync.select_iff (h : p.InSync) (cameraId : String) :
    InSync { p.setSelectedCameraId cameraId with currentImageIndex := -1 } ↔
      (cameraId = p.selectedCameraId →
        p.designated = { p with currentImageIndex := -1 }.designated) := by
  unfold setSelectedCameraId
  split_ifs with hne
  · refine iff_of_true ?_ fun hsame => absurd hsame.symm hne
    have hsync := inSync_updateImage { p with selectedCameraId := cameraId, currentImageIndex := -1 }
    rw [updateImage_eq] at hsync ⊢
    exact hsync.trans (displayOf_settled _ _ _)
  · have hsame := (not_not.mp hne).symm
    exact ⟨fun hsync _ => h.symm.trans hsync, fun hkeep => h.trans (hkeep hsame)⟩

theorem InSync.step_iff (h : p.InSync) (e : Event) : (p.step e).1.InSync ↔ Tells p e := by
  cases e with
  | onImageReceivedBase64 ev =>
    refine iff_of_true ?_ trivial
    rw [onImageReceived_eq]
    unfold onAiEventReceived
    split_ifs with hc
    · exact inSync_updateImage _
    · have hne : ev.cameraId ≠ p.selectedCameraId := hc
      exact h.trans (designated_of_ne hne).symm
  | clearAll =>
    have hblank : (p.step .clearAll).1.designated = .blank := by
      change displayOf p.selectedCameraId [] p.currentImageIndex = .blank
      unfold displayOf
      rw [if_pos (Or.inr rfl)]
    exact ⟨fun hsync => h.symm.trans (hsync.trans hblank), fun he => (h.trans he).trans hblank.symm⟩
  | onCameraSelected cameraId => exact h.select_iff cameraId
  | onDeactivating =>
    refine (h.select_iff "").trans (iff_of_true (fun hnone => ?_) trivial)
    unfold designated displayOf
    rw [if_pos (Or.inl hnone.symm), if_pos (Or.inl hnone.symm)]
  | onWheel up =>
    refine iff_of_true ?_ trivial
    unfold AiPage.step onWheel
    dsimp only
    split_ifs
    · exact h
    all_goals exact inSync_updateImage _

/-- **In sync.** The page displays the image that the selection and the index designate, at every
point of a run, if and only if it is told of every step. -/
theorem image_in_sync (es : List Event) :
    (∀ pre, pre <+: es → (Machine.final step init pre).InSync) ↔
      Machine.Along step Tells init es := by
  have hinit : init.InSync := rfl
  rw [← Machine.along_congr step (P := InSync) (Q := fun p e => (p.step e).1.InSync ∧
    ∀ o ∈ (p.step e).2, o.elim) (fun p e h => ?_) hinit es, Machine.along_leaves_iff step hinit]
  · exact (and_iff_left fun o => o.elim).symm
  · exact ⟨(and_iff_left fun o => o.elim).trans (h.step_iff e), (h.step_iff e).mpr⟩

/-! ## Whose image -/

/-- What the model holds was received for its camera, and so was what is displayed. -/
structure Own (es : List Event) (p : AiPage) : Prop where
  received : ∀ cameraId, ∀ ev ∈ p.aiImageModel.getEventsForCamera cameraId,
    .onImageReceivedBase64 ev ∈ es ∧ ev.cameraId = cameraId
  displayed : p.display.source ≠ "" → p.selectedCameraId ≠ "" ∧
    ∃ ev, .onImageReceivedBase64 ev ∈ es ∧ ev.cameraId = p.selectedCameraId ∧
      ev.base64Image = p.display.source
  bounds : -1 ≤ p.currentImageIndex ∧ p.currentImageIndex < MAX_EVENTS_PER_CAMERA
  held : ∀ cameraId, (p.aiImageModel.getEventsForCamera cameraId).length ≤ MAX_EVENTS_PER_CAMERA

variable {es : List Event}

theorem mem_trim {queue : List AiImageEvent} {ev : AiImageEvent} (h : ev ∈ AiImageModel.trim queue) :
    ev ∈ queue := List.mem_of_mem_drop h

theorem length_trim_le (queue : List AiImageEvent) :
    (AiImageModel.trim queue).length ≤ MAX_EVENTS_PER_CAMERA := by
  unfold AiImageModel.trim
  rw [List.length_drop]
  omega

theorem ofEvent_source {events : List AiImageEvent} {idx : ℕ}
    (h : (AiDisplay.ofEvent events idx).source ≠ "") :
    ∃ ev ∈ events, ev.base64Image = (AiDisplay.ofEvent events idx).source := by
  unfold AiDisplay.ofEvent at h ⊢
  cases hev : events[idx]? with
  | none =>
    rw [hev] at h
    exact absurd rfl h
  | some ev =>
    rw [hev] at h
    dsimp only at h ⊢
    by_cases himage : ev.base64Image ≠ ""
    · rw [if_pos himage]
      exact ⟨ev, List.mem_of_getElem? hev, rfl⟩
    · rw [if_neg himage] at h
      exact absurd rfl h

theorem Own.mono (h : Own es p) (e : Event) : Own (es ++ [e]) p where
  received cameraId ev hev := ⟨List.mem_append_left _ (h.received cameraId ev hev).1,
    (h.received cameraId ev hev).2⟩
  displayed hs := by
    obtain ⟨hsel, ev, hev, hcam, hsrc⟩ := h.displayed hs
    exact ⟨hsel, ev, List.mem_append_left _ hev, hcam, hsrc⟩
  bounds := h.bounds
  held := h.held

theorem indexOf_bounds {events : List AiImageEvent} (hlen : events.length ≤ MAX_EVENTS_PER_CAMERA)
    {idx : ℤ} (h : -1 ≤ idx ∧ idx < MAX_EVENTS_PER_CAMERA) :
    -1 ≤ indexOf events idx ∧ indexOf events idx < MAX_EVENTS_PER_CAMERA := by
  unfold indexOf
  split_ifs <;> omega

theorem Own.update (hr : ∀ cameraId, ∀ ev ∈ p.aiImageModel.getEventsForCamera cameraId,
      .onImageReceivedBase64 ev ∈ es ∧ ev.cameraId = cameraId)
    (hh : ∀ cameraId, (p.aiImageModel.getEventsForCamera cameraId).length ≤ MAX_EVENTS_PER_CAMERA)
    (hb : -1 ≤ p.currentImageIndex ∧ p.currentImageIndex < MAX_EVENTS_PER_CAMERA) :
    Own es p.updateImage := by
  rw [updateImage_eq]
  refine ⟨hr, ?_, ?_, hh⟩
  · unfold designated displayOf
    split_ifs with hnone
    · exact fun hs => absurd rfl hs
    · intro hs
      obtain ⟨ev, hev, hsrc⟩ := ofEvent_source hs
      exact ⟨fun h => hnone (Or.inl h), ev, (hr _ ev hev).1, (hr _ ev hev).2, hsrc⟩
  · dsimp only
    split_ifs
    · exact hb
    · exact indexOf_bounds (hh p.selectedCameraId) hb

theorem newest_bounds : -1 ≤ (-1 : ℤ) ∧ (-1 : ℤ) < MAX_EVENTS_PER_CAMERA := by decide

theorem Own.select (h : Own es p) (cameraId : String) :
    Own es { p.setSelectedCameraId cameraId with currentImageIndex := -1 } := by
  have hset : Own es (p.setSelectedCameraId cameraId) := by
    unfold setSelectedCameraId
    split_ifs
    · exact Own.update h.received h.held newest_bounds
    · exact h
  exact ⟨hset.received, hset.displayed, newest_bounds, hset.held⟩

theorem Own.step (h : Own es p) (e : Event) : Own (es ++ [e]) (p.step e).1 := by
  have hm := h.mono e
  cases e with
  | onImageReceivedBase64 ev =>
    have hreceived : ∀ cameraId, ∀ ev' ∈
        (p.aiImageModel.onImageReceivedBase64 ev).1.getEventsForCamera cameraId,
        Event.onImageReceivedBase64 ev' ∈ es ++ [.onImageReceivedBase64 ev] ∧
          ev'.cameraId = cameraId := by
      intro cameraId ev' hev'
      by_cases hc : cameraId = ev.cameraId
      · subst hc
        rw [AiImageModel.getEventsForCamera_self] at hev'
        obtain hold | hnew := List.mem_append.mp (mem_trim hev')
        · exact hm.received _ ev' hold
        · rw [List.mem_singleton.mp hnew]
          exact ⟨List.mem_append_right _ List.mem_cons_self, rfl⟩
      · rw [AiImageModel.getEventsForCamera_of_ne _ hc] at hev'
        exact hm.received cameraId ev' hev'
    have hheld : ∀ cameraId, ((p.aiImageModel.onImageReceivedBase64 ev).1.getEventsForCamera
        cameraId).length ≤ MAX_EVENTS_PER_CAMERA := by
      intro cameraId
      by_cases hc : cameraId = ev.cameraId
      · subst hc
        rw [AiImageModel.getEventsForCamera_self]
        exact length_trim_le _
      · rw [AiImageModel.getEventsForCamera_of_ne _ hc]
        exact h.held cameraId
    rw [onImageReceived_eq]
    unfold onAiEventReceived
    split_ifs
    · exact Own.update hreceived hheld newest_bounds
    · exact ⟨hreceived, hm.displayed, h.bounds, hheld⟩
  | clearAll =>
    refine ⟨fun cameraId ev hev => ?_, hm.displayed, h.bounds, fun cameraId => Nat.zero_le _⟩
    exact absurd hev List.not_mem_nil
  | onCameraSelected cameraId => exact hm.select cameraId
  | onDeactivating => exact hm.select ""
  | onWheel up =>
    have hb := h.bounds
    have hlen : (p.events.length : ℤ) ≤ MAX_EVENTS_PER_CAMERA := by
      exact_mod_cast h.held p.selectedCameraId
    unfold AiPage.step onWheel
    dsimp only
    split_ifs with hnil
    · exact hm
    all_goals
      have hpos := List.length_pos_iff.mpr hnil
      refine Own.update hm.received hm.held ?_
      dsimp only
      omega

/-- **Its own camera's image.** An image that is displayed was received for the camera selected, and
the index is that of an image the model can hold, or none. -/
theorem shows_own_camera (es : List Event) :
    ((Machine.final step init es).display.source ≠ "" →
      (Machine.final step init es).selectedCameraId ≠ "" ∧
      ∃ ev, .onImageReceivedBase64 ev ∈ es ∧
        ev.cameraId = (Machine.final step init es).selectedCameraId ∧
        ev.base64Image = (Machine.final step init es).display.source) ∧
    -1 ≤ (Machine.final step init es).currentImageIndex ∧
      (Machine.final step init es).currentImageIndex < MAX_EVENTS_PER_CAMERA := by
  have hinit : Own [] init := by
    refine ⟨fun cameraId ev hev => ?_, fun hs => absurd rfl hs, by decide, fun _ => Nat.zero_le _⟩
    exact absurd hev List.not_mem_nil
  have h := Machine.history step Own hinit (fun es p e h => h.step e) es
  exact ⟨h.displayed, h.bounds⟩

end AiPage

end Front

end AnoMap
