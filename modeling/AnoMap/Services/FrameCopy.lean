import AnoMap.Lib.RowCopy
import Mathlib.Algebra.Order.Ring.Int
import Mathlib.Data.Int.Order.Basic
import Mathlib.Tactic.Ring

/-!
# Copying a decoded frame

A decoded frame in NV12 is copied into a video frame, plane by plane: in one piece when the rows of
the plane follow one another, else row by row. `int` products that overflow are undefined.

* `onFrameReady`: the copy, with the checks in front of it.
* `copyByRows_eq`, `copyByRows_overflow`: the loop over the rows of a plane.
* `CopiesFrame`: all rows of both planes are copied, nothing else is written, and for rows that
  follow one another both ways are the same.
* **`rows_copied_iff`**: frames of a size are copied so if and only if the height is even and no
  product overflows.
-/

set_option autoImplicit false

namespace AnoMap

namespace Services

open RowCopy

/-- The bytes of a plane. -/
abbrev Plane := ℕ → UInt8

/-- What the decoder hands over; a plane that is a null pointer is none. -/
structure FramePayload where
  dataY : Option Plane
  dataUV : Option Plane
  width : ℤ
  height : ℤ
  strideY : ℤ
  strideUV : ℤ

/-- The planes of the video frame, `bits(0)` and `bits(1)`. -/
structure VideoFrame where
  y : Plane
  uv : Plane

inductive FrameOutcome where
  | dropped
  | overflow
  | ready (frame : VideoFrame)

/-- The range of `int`. -/
def IsInt (a : ℤ) : Prop := -2147483648 ≤ a ∧ a ≤ 2147483647

instance (a : ℤ) : Decidable (IsInt a) := inferInstanceAs (Decidable (_ ∧ _))

/-- The product of two `int`s, none when it overflows. -/
def intMul (a b : ℤ) : Option ℤ := if IsInt (a * b) then some (a * b) else none

/-- The loop over the rows `i`, …, `i + n - 1`. -/
def copyByRows (src : Plane) (w stride : ℤ) : ℕ → ℕ → Plane → Option Plane
  | 0, _, dst => some dst
  | n + 1, i, dst => do
    let target ← intMul i w
    let source ← intMul i stride
    copyByRows src w stride n (i + 1) (copy dst target.toNat src source.toNat w.toNat)

/-- The plane in one piece of `size` bytes. -/
def copyWhole (dst src : Plane) (size : ℤ) : Plane := copy dst 0 src 0 size.toNat

def copyPlane (dst src : Plane) (w size stride rows : ℤ) : Option Plane :=
  if stride = w then some (copyWhole dst src size) else copyByRows src w stride rows.toNat 0 dst

/-- Both planes. -/
def copyFrame (dataY dataUV : Plane) (frame : VideoFrame) (w h strideY strideUV : ℤ) :
    Option VideoFrame := do
  let size ← intMul w h
  let y ← copyPlane frame.y dataY w size strideY h
  let uv ← copyPlane frame.uv dataUV w (size.tdiv 2) strideUV (h.tdiv 2)
  return ⟨y, uv⟩

/-- `onFrameReady`; `mapped` is the memory of the video frame, none when it cannot be mapped. -/
def onFrameReady (payload : FramePayload) (mapped : Option VideoFrame) : FrameOutcome :=
  match payload.dataY, payload.dataUV with
  | some dataY, some dataUV =>
    if payload.width ≤ 0 ∨ payload.height ≤ 0 then .dropped
    else
      match mapped with
      | none => .dropped
      | some frame =>
        match copyFrame dataY dataUV frame payload.width payload.height payload.strideY
          payload.strideUV with
        | none => .overflow
        | some frame' => .ready frame'
  | _, _ => .dropped

/-! ## The statement -/

/-- The rows of the chroma plane, `ceil(h / 2)`. -/
def chromaRows (h : ℤ) : ℕ := (h.toNat + 1) / 2

/-- **Frames of this size are copied.** Whatever the bytes, every row is copied and nothing behind the
rows is written; and copying rows that follow one another one by one is copying them at once. -/
structure CopiesFrame (w h strideY strideUV : ℤ) : Prop where
  copied : ∀ (dataY dataUV : Plane) (frame : VideoFrame), ∃ frame',
    onFrameReady ⟨some dataY, some dataUV, w, h, strideY, strideUV⟩ (some frame) = .ready frame' ∧
      RowsCopied frame.y dataY w.toNat strideY.toNat h.toNat frame'.y ∧
      RowsCopied frame.uv dataUV w.toNat strideUV.toNat (chromaRows h) frame'.uv
  sameY : ∀ dst src, copyByRows src w w h.toNat 0 dst = some (copyWhole dst src (w * h))
  sameUV : ∀ dst src, copyByRows src w w (h.tdiv 2).toNat 0 dst =
    some (copyWhole dst src ((w * h).tdiv 2))

/-- No product of the copy overflows. -/
def NoOverflow (w h strideY strideUV : ℤ) : Prop :=
  IsInt (w * h) ∧ IsInt ((h - 1) * strideY) ∧ IsInt ((h / 2 - 1) * strideUV)

/-! ## The loop -/

theorem IsInt.of_le {a b : ℤ} (h : IsInt b) (ha : 0 ≤ a) (hab : a ≤ b) : IsInt a :=
  ⟨by omega, hab.trans h.2⟩

theorem intMul_of_isInt {a b : ℤ} (h : IsInt (a * b)) : intMul a b = some (a * b) := if_pos h

theorem intMul_of_not {a b : ℤ} (h : ¬ IsInt (a * b)) : intMul a b = none := if_neg h

variable {w h strideY strideUV : ℕ}

/-- **The loop** copies the rows, unless the offset of the last one is too large. -/
theorem copyByRows_succ (dst src : Plane) {stride : ℕ} (hw : w ≤ stride) (n i : ℕ) :
    copyByRows src w stride (n + 1) i (copyRows dst src w stride i) =
      if IsInt ((i + n : ℕ) * stride) then some (copyRows dst src w stride (i + n + 1)) else none := by
  have hle : (i : ℤ) * w ≤ i * stride :=
    mul_le_mul_of_nonneg_left (Int.ofNat_le.mpr hw) (Int.natCast_nonneg _)
  have hpos : ∀ a b : ℕ, 0 ≤ (a : ℤ) * b := fun a b =>
    mul_nonneg (Int.natCast_nonneg _) (Int.natCast_nonneg _)
  induction n generalizing i with
  | zero =>
    simp only [Nat.add_zero]
    rw [copyByRows]
    by_cases hrow : IsInt ((i : ℤ) * stride)
    · rw [intMul_of_isInt (hrow.of_le (hpos _ _) hle), intMul_of_isInt hrow, if_pos hrow]
      rfl
    · rw [intMul_of_not hrow, if_neg hrow]
      cases intMul i w <;> rfl
  | succ n ih =>
    have hlast : (i : ℤ) * stride ≤ (i + (n + 1) : ℕ) * stride :=
      mul_le_mul_of_nonneg_right (Int.ofNat_le.mpr (Nat.le_add_right _ _)) (Int.natCast_nonneg _)
    rw [copyByRows]
    by_cases hrow : IsInt ((i : ℤ) * stride)
    · rw [intMul_of_isInt (hrow.of_le (hpos _ _) hle), intMul_of_isInt hrow]
      have hnext := ih (i + 1)
        (mul_le_mul_of_nonneg_left (Int.ofNat_le.mpr hw) (Int.natCast_nonneg _))
      rw [Nat.add_right_comm i 1 n, Nat.add_assoc i n 1] at hnext
      exact hnext
    · rw [intMul_of_not hrow, if_neg fun hh => hrow (hh.of_le (hpos _ _) hlast)]
      cases intMul i w <;> rfl

theorem copyByRows_eq (dst src : Plane) {stride : ℕ} (hw : w ≤ stride) (rows : ℕ) :
    copyByRows src w stride rows 0 dst =
      if rows = 0 ∨ IsInt (((rows : ℤ) - 1) * stride) then some (copyRows dst src w stride rows)
      else none := by
  cases rows with
  | zero => exact (if_pos (.inl rfl)).symm
  | succ n =>
    have hloop := copyByRows_succ dst src hw n 0
    have hcount : ((n + 1 : ℕ) : ℤ) - 1 = n := by
      push_cast
      omega
    rw [Nat.zero_add] at hloop
    rw [hcount]
    simp only [Nat.add_one_ne_zero, false_or]
    exact hloop

theorem isInt_last {rows : ℕ} (hrows : rows ≠ 0) (hsize : IsInt ((w : ℤ) * rows)) :
    IsInt (((rows : ℤ) - 1) * w) := by
  have hlast : ((rows : ℤ) - 1) * w = w * rows - w := by ring
  refine hsize.of_le (mul_nonneg (by omega) (Int.natCast_nonneg _)) ?_
  omega

theorem copyWhole_eq (dst src : Plane) (hpos : 0 < w) (rows : ℕ) :
    copyWhole dst src (w * rows : ℤ) = copyRows dst src w w rows := by
  rw [copyRows_contiguous _ _ hpos, copyWhole, Nat.mul_comm]
  rfl

/-- **Rows that follow one another** are copied in one piece as they are one by one. -/
theorem copyByRows_whole (dst src : Plane) (hpos : 0 < w) {rows : ℕ} (hrows : rows ≠ 0)
    (hsize : IsInt ((w : ℤ) * rows)) :
    copyByRows src w w rows 0 dst = some (copyWhole dst src (w * rows : ℤ)) := by
  rw [copyByRows_eq dst src le_rfl, if_pos (.inr (isInt_last hrows hsize)),
    copyWhole_eq dst src hpos]

theorem copyPlane_eq (dst src : Plane) (hpos : 0 < w) {stride : ℕ} (hw : w ≤ stride) {rows : ℕ}
    (hrows : rows ≠ 0) (hsize : IsInt ((w : ℤ) * rows)) :
    copyPlane dst src w (w * rows : ℤ) stride rows =
      if IsInt (((rows : ℤ) - 1) * stride) then some (copyRows dst src w stride rows) else none := by
  unfold copyPlane
  rw [Int.toNat_natCast]
  by_cases hstride : (stride : ℤ) = w
  · obtain rfl := Int.ofNat.inj hstride
    rw [if_pos rfl, if_pos (isInt_last hrows hsize), copyWhole_eq dst src hpos]
  · rw [if_neg hstride, copyByRows_eq dst src hw]
    simp only [hrows, false_or]

theorem natCast_tdiv_two (a : ℕ) : (a : ℤ).tdiv 2 = (a / 2 : ℕ) := rfl

/-- **The last chroma row** of an odd height is not copied to its end. -/
theorem copyPlane_odd (dst src dst' : Plane) (hpos : 0 < w) {stride : ℕ} (hw : w ≤ stride) (m : ℕ)
    (h : copyPlane dst src w (((w * (2 * m + 1) : ℕ) : ℤ).tdiv 2) stride
      (((2 * m + 1 : ℕ) : ℤ).tdiv 2) = some dst') :
    dst' (m * w + (w - 1)) = dst (m * w + (w - 1)) := by
  rw [natCast_tdiv_two, natCast_tdiv_two] at h
  unfold copyPlane at h
  have hhalf : (2 * m + 1) / 2 = m := by omega
  have hsize : w * (2 * m + 1) / 2 ≤ m * w + (w - 1) := by
    have hprod : w * (2 * m + 1) = 2 * (m * w) + w := by ring
    omega
  split_ifs at h with hstride
  · obtain rfl := Option.some.inj h
    rw [copyWhole, copy, Int.toNat_natCast, if_neg (by omega)]
  · rw [Int.toNat_natCast, hhalf, copyByRows_eq dst src hw] at h
    split_ifs at h
    obtain rfl := Option.some.inj h
    rw [copyRows_apply _ _ hpos, if_neg (by omega)]

/-! ## The theorem -/

theorem copyFrame_eq_some_iff (dataY dataUV : Plane) (frame frame' : VideoFrame)
    (w h strideY strideUV : ℤ) : copyFrame dataY dataUV frame w h strideY strideUV = some frame' ↔
      IsInt (w * h) ∧ copyPlane frame.y dataY w (w * h) strideY h = some frame'.y ∧
        copyPlane frame.uv dataUV w ((w * h).tdiv 2) strideUV (h.tdiv 2) = some frame'.uv := by
  have hmul : ∀ size, intMul w h = some size ↔ IsInt (w * h) ∧ w * h = size := by
    intro size
    unfold intMul
    split_ifs with hint <;> simp [hint]
  obtain ⟨y', uv'⟩ := frame'
  simp only [copyFrame, Option.bind_eq_bind, Option.bind_eq_some_iff, hmul, Option.pure_def,
    Option.some.injEq, VideoFrame.mk.injEq]
  constructor
  · rintro ⟨size, ⟨hint, rfl⟩, y, hy, uv, huv, rfl, rfl⟩
    exact ⟨hint, hy, huv⟩
  · rintro ⟨hint, hy, huv⟩
    exact ⟨_, ⟨hint, rfl⟩, y', hy, uv', huv, rfl, rfl⟩

theorem onFrameReady_eq_ready_iff (hw : 0 < w) (hh : 0 < h) (dataY dataUV : Plane)
    (frame frame' : VideoFrame) :
    onFrameReady ⟨some dataY, some dataUV, w, h, strideY, strideUV⟩ (some frame) = .ready frame' ↔
      copyFrame dataY dataUV frame w h strideY strideUV = some frame' := by
  have hguard : ¬ ((w : ℤ) ≤ 0 ∨ (h : ℤ) ≤ 0) := by omega
  unfold onFrameReady
  dsimp only
  rw [if_neg hguard]
  cases copyFrame dataY dataUV frame w h strideY strideUV with
  | none => exact iff_of_false nofun nofun
  | some frame => simp

theorem tdiv_two_size (w m : ℕ) : ((w : ℤ) * (2 * m : ℕ)).tdiv 2 = w * m := by
  rw [show (w : ℤ) * (2 * m : ℕ) = (w * m) * 2 by push_cast; ring]
  exact Int.mul_tdiv_cancel _ (by decide)

theorem tdiv_two_rows (m : ℕ) : ((2 * m : ℕ) : ℤ).tdiv 2 = m := by
  rw [natCast_tdiv_two, Nat.mul_div_cancel_left m (by decide)]

theorem isInt_size_half {w m : ℕ} (hsize : IsInt ((w : ℤ) * (2 * m : ℕ))) :
    IsInt ((w : ℤ) * m) := by
  refine hsize.of_le (mul_nonneg (Int.natCast_nonneg _) (Int.natCast_nonneg _)) ?_
  exact mul_le_mul_of_nonneg_left (by omega) (Int.natCast_nonneg _)

theorem onFrameReady_even_iff (hw : 0 < w) {m : ℕ} (hm : m ≠ 0) (hY : w ≤ strideY)
    (hUV : w ≤ strideUV) (dataY dataUV : Plane) (frame frame' : VideoFrame) :
    onFrameReady ⟨some dataY, some dataUV, w, (2 * m : ℕ), strideY, strideUV⟩ (some frame) =
      .ready frame' ↔ NoOverflow w (2 * m : ℕ) strideY strideUV ∧
        copyRows frame.y dataY w strideY (2 * m) = frame'.y ∧
        copyRows frame.uv dataUV w strideUV m = frame'.uv := by
  have hrows : 2 * m ≠ 0 := by omega
  have hdiv : ((2 * m : ℕ) : ℤ) / 2 = m := by omega
  rw [onFrameReady_eq_ready_iff hw (Nat.pos_of_ne_zero hrows), copyFrame_eq_some_iff,
    tdiv_two_size, tdiv_two_rows, NoOverflow, hdiv, and_assoc, and_assoc]
  refine and_congr_right fun hsize => ?_
  rw [copyPlane_eq _ _ hw hY hrows hsize, copyPlane_eq _ _ hw hUV hm (isInt_size_half hsize)]
  simp only [Option.ite_none_right_eq_some, Option.some.injEq]
  exact ⟨fun ⟨⟨hy, heq⟩, huv, heq'⟩ => ⟨hy, huv, heq, heq'⟩,
    fun ⟨hy, huv, heq, heq'⟩ => ⟨⟨hy, heq⟩, huv, heq'⟩⟩

theorem copiesFrame_even (hw : 0 < w) {m : ℕ} (hm : m ≠ 0) (hY : w ≤ strideY) (hUV : w ≤ strideUV) :
    CopiesFrame w (2 * m : ℕ) strideY strideUV ↔ NoOverflow w (2 * m : ℕ) strideY strideUV := by
  have hrows : 2 * m ≠ 0 := by omega
  have hchroma : chromaRows (2 * m : ℕ) = m := by
    unfold chromaRows
    omega
  constructor
  · intro hcopies
    obtain ⟨frame', hready, -⟩ := hcopies.copied (fun _ => 0) (fun _ => 0) ⟨fun _ => 0, fun _ => 0⟩
    exact ((onFrameReady_even_iff hw hm hY hUV _ _ _ _).mp hready).1
  · intro hno
    refine ⟨fun dataY dataUV frame => ⟨⟨_, _⟩,
      (onFrameReady_even_iff hw hm hY hUV _ _ _ _).mpr ⟨hno, rfl, rfl⟩, ?_, ?_⟩, ?_, ?_⟩
    · exact (rowsCopied_iff _ _ hw _ _ _).mpr rfl
    · rw [hchroma]
      exact (rowsCopied_iff _ _ hw _ _ _).mpr rfl
    · exact fun dst src => copyByRows_whole dst src hw hrows hno.1
    · intro dst src
      rw [tdiv_two_rows, tdiv_two_size]
      exact copyByRows_whole dst src hw hm (isInt_size_half hno.1)

theorem not_copiesFrame_odd (hw : 0 < w) (m : ℕ) (hUV : w ≤ strideUV) :
    ¬ CopiesFrame w (2 * m + 1 : ℕ) strideY strideUV := by
  intro hcopies
  obtain ⟨frame', hready, -, hrows⟩ := hcopies.copied (fun _ => 0) (fun _ => 1)
    ⟨fun _ => 0, fun _ => 0⟩
  obtain ⟨-, -, huv⟩ := (copyFrame_eq_some_iff _ _ _ _ _ _ _ _).mp
    ((onFrameReady_eq_ready_iff hw (Nat.succ_pos _) _ _ _ _).mp hready)
  have hlast := hrows.copied m (by simp [chromaRows]; omega) (w - 1) (by simp; omega)
  have hkept := copyPlane_odd _ _ _ hw hUV m huv
  rw [Int.toNat_natCast, hkept] at hlast
  have hbyte : (0 : UInt8) = 1 := hlast
  exact absurd hbyte (by decide)

/-- **All rows, exactly.** For frames of a size every row of both planes is copied, and nothing behind
them is written, on either way, if and only if the height is even and no product of `int`s
overflows. -/
theorem rows_copied_iff (w h strideY strideUV : ℤ) (hw : 0 < w) (hh : 0 < h) (hY : w ≤ strideY)
    (hUV : w ≤ strideUV) :
    CopiesFrame w h strideY strideUV ↔ h % 2 = 0 ∧ NoOverflow w h strideY strideUV := by
  obtain ⟨w, rfl⟩ := Int.eq_ofNat_of_zero_le hw.le
  obtain ⟨h, rfl⟩ := Int.eq_ofNat_of_zero_le hh.le
  obtain ⟨strideY, rfl⟩ := Int.eq_ofNat_of_zero_le (hw.le.trans hY)
  obtain ⟨strideUV, rfl⟩ := Int.eq_ofNat_of_zero_le (hw.le.trans hUV)
  rw [Int.natCast_pos] at hw hh
  rw [Int.ofNat_le] at hY hUV
  rcases Nat.even_or_odd' h with ⟨m, rfl | rfl⟩
  · rw [copiesFrame_even hw (by omega) hY hUV]
    exact (and_iff_right (by omega)).symm
  · exact iff_of_false (not_copiesFrame_odd hw m hUV) fun hh => by omega

/-- A frame of four by two, with chroma rows that are six apart. -/
theorem rows_copied_padded : CopiesFrame 4 2 4 6 ↔ (2 : ℤ) % 2 = 0 ∧ NoOverflow 4 2 4 6 :=
  rows_copied_iff 4 2 4 6 (by decide) (by decide) (by decide) (by decide)

/-- **A row is missing.** The only chroma row of a frame of two by one is copied by half. -/
theorem rows_copied_fails : ¬ CopiesFrame 2 1 2 2 := by
  intro hcopies
  obtain ⟨frame', hready, -, hrows⟩ := hcopies.copied (fun _ => 0) (fun _ => 1)
    ⟨fun _ => 0, fun _ => 0⟩
  have hbyte := hrows.copied 0 (by decide) 1 (by decide)
  obtain rfl := FrameOutcome.ready.inj hready
  exact absurd hbyte (by decide)

end Services

end AnoMap
