import VisionNx.InferUtils

/-! # The region of interest

`_crop_to_roi` cuts the bounding rectangle of the region out of a frame before
inference, and `serve` maps the adapter's boxes back to the frame.  With
`letterbox` and `decode_boxes` in between, a point of the frame comes back to within
half a pixel of the model's input. -/

namespace VisionNx.Worker

open Python

/-! ## Cropping and mapping back -/

def minCropPx : ℤ := 8

/-- What `_crop_to_roi` returns. -/
structure Crop where
  img : Image
  x1 : ℤ
  y1 : ℤ
  w : ℤ
  h : ℤ

/-- The coordinates of a point that has at least two. -/
def roiPoint : List ℚ → Option (ℚ × ℚ)
  | x :: y :: _ => some (x, y)
  | _ => none

/-- `_crop_to_roi`. -/
def cropToRoi (img : Image) (roiNorm : Option (List (List ℚ))) (w h : ℤ) : Crop :=
  let whole : Crop := ⟨img, 0, 0, w, h⟩
  match roiNorm with
  | none => whole
  | some roi =>
    let xs := roi.filterMap fun p => (roiPoint p).map (·.1)
    let ys := roi.filterMap fun p => (roiPoint p).map (·.2)
    if roi.length < 2 ∨ xs.length < 2 ∨ ys.length < 2 then whole
    else
      let x1 := max 0 (min w (toInt (minOf xs * w)))
      let y1 := max 0 (min h (toInt (minOf ys * h)))
      let x2 := max 0 (min w (toInt (maxOf xs * w)))
      let y2 := max 0 (min h (toInt (maxOf ys * h)))
      let cw := x2 - x1
      let ch := y2 - y1
      if cw < minCropPx ∨ ch < minCropPx then whole
      else ⟨img.slice y1.toNat y2.toNat x1.toNat x2.toNat, x1, y1, cw, ch⟩

/-- `was_cropped`. -/
def Crop.wasCropped (c : Crop) (w h : ℤ) : Bool := c.w != w || c.h != h || c.x1 != 0 || c.y1 != 0

/-- The adapter's coordinates, relative to the crop, as coordinates of the frame. -/
def Crop.remap (c : Crop) (w h : ℤ) (q : Xyxy) : Xyxy :=
  if c.wasCropped w h then
    let invW : ℚ := 1 / w
    let invH : ℚ := 1 / h
    { x1 := (q.x1 * c.w + c.x1) * invW
      y1 := (q.y1 * c.h + c.y1) * invH
      x2 := (q.x2 * c.w + c.x1) * invW
      y2 := (q.y2 * c.h + c.y1) * invH }
  else q

/-! ## The crop lies inside the frame -/

/-- A crop of a frame: a rectangle of positive size inside it, with an image of that
    size. -/
structure Crop.Inside (c : Crop) (img : Image) : Prop where
  x1_nonneg : 0 ≤ c.x1
  w_pos : 0 < c.w
  x2_le : c.x1 + c.w ≤ img.w
  y1_nonneg : 0 ≤ c.y1
  h_pos : 0 < c.h
  y2_le : c.y1 + c.h ≤ img.h
  width : (c.img.w : ℤ) = c.w
  height : (c.img.h : ℤ) = c.h

theorem cropToRoi_inside (img : Image) (roi : Option (List (List ℚ))) (w_pos : 0 < img.w)
    (h_pos : 0 < img.h) : (cropToRoi img roi img.w img.h).Inside img := by
  have whole : Crop.Inside ⟨img, 0, 0, img.w, img.h⟩ img := by
    constructor <;> simp [w_pos, h_pos]
  unfold cropToRoi
  cases roi with
  | none => exact whole
  | some roi =>
    simp only
    split
    · exact whole
    split
    · exact whole
    · rename_i large
      simp only [minCropPx, not_or, not_lt] at large
      constructor <;> simp only [Image.slice] <;> omega

/-- A crop is the whole frame or the same rectangle of it, whatever the frame shows. -/
theorem cropToRoi_cases (roi : Option (List (List ℚ))) (w h : ℤ) :
    (∀ img, cropToRoi img roi w h = ⟨img, 0, 0, w, h⟩) ∨
    ∃ y1 y2 x1 x2 : ℕ, y1 ≤ y2 ∧ (y2 : ℤ) ≤ h ∧ x1 ≤ x2 ∧ (x2 : ℤ) ≤ w ∧
      ∀ img, cropToRoi img roi w h = ⟨img.slice y1 y2 x1 x2, x1, y1, x2 - x1, y2 - y1⟩ := by
  cases roi with
  | none => exact .inl fun img => rfl
  | some roi =>
    simp only [cropToRoi]
    split
    · exact .inl fun img => rfl
    split
    · exact .inl fun img => rfl
    next large =>
      simp only [minCropPx, not_or, not_lt] at large
      have nonneg : ∀ side v : ℤ, ((max 0 (min side v)).toNat : ℤ) = max 0 (min side v) :=
        fun side v => Int.toNat_of_nonneg (le_max_left _ _)
      generalize (roi.filterMap fun p => (roiPoint p).map (·.1)) = xs at large ⊢
      generalize (roi.filterMap fun p => (roiPoint p).map (·.2)) = ys at large ⊢
      refine .inr ⟨(max 0 (min h (Python.toInt (Python.minOf ys * h)))).toNat,
        (max 0 (min h (Python.toInt (Python.maxOf ys * h)))).toNat,
        (max 0 (min w (Python.toInt (Python.minOf xs * w)))).toNat,
        (max 0 (min w (Python.toInt (Python.maxOf xs * w)))).toNat, by omega, by omega, by omega, by omega,
        fun img => ?_⟩
      simp only [nonneg]

/-- Pixel `(y, x)` of a crop is pixel `(y1 + y, x1 + x)` of the frame. -/
theorem crop_at {img : Image} {roi : Option (List (List ℚ))} {w h : ℤ} {y x : ℕ}
    (hy : y < (cropToRoi img roi w h).img.h) (hx : x < (cropToRoi img roi w h).img.w) :
    (cropToRoi img roi w h).y1.toNat + y < img.h ∧ (cropToRoi img roi w h).x1.toNat + x < img.w ∧
      (cropToRoi img roi w h).img.at? y x =
        img.at? ((cropToRoi img roi w h).y1.toNat + y) ((cropToRoi img roi w h).x1.toNat + x) := by
  obtain whole | ⟨y1, y2, x1, x2, -, -, -, -, part⟩ := cropToRoi_cases roi w h
  · rw [whole] at hy hx ⊢
    simpa using ⟨hy, hx⟩
  · rw [part] at hy hx ⊢
    simp only [Image.slice] at hy hx
    simp only [Int.toNat_natCast]
    exact ⟨by omega, by omega, Image.slice_at (by omega) (by omega)⟩

/-! ## Mapping back -/

/-- Without a crop the general formula is the identity, so `was_cropped` only saves
    work. -/
theorem remap_eq (c : Crop) {w h : ℤ} (w_pos : 0 < w) (h_pos : 0 < h) (q : Xyxy) :
    c.remap w h q =
      { x1 := (q.x1 * c.w + c.x1) / w
        y1 := (q.y1 * c.h + c.y1) / h
        x2 := (q.x2 * c.w + c.x1) / w
        y2 := (q.y2 * c.h + c.y1) / h } := by
  have w_ne : (w : ℚ) ≠ 0 := by exact_mod_cast w_pos.ne'
  have h_ne : (h : ℚ) ≠ 0 := by exact_mod_cast h_pos.ne'
  unfold Crop.remap
  cases cropped : c.wasCropped w h with
  | true => simp only [if_true, mul_one_div]
  | false =>
    simp only [Crop.wasCropped, Bool.or_eq_false_iff, bne_eq_false_iff_eq] at cropped
    obtain ⟨⟨⟨cw, ch⟩, x1⟩, y1⟩ := cropped
    simp [cw, ch, x1, y1, w_ne, h_ne]

/-- One axis of the way from the frame to the model and back: `n` is the resized
    length of a crop of length `c` at offset `x1`. -/
theorem axis_error {c n x1 pad ratio w p : ℚ} (c_pos : 0 < c) (ratio_pos : 0 < ratio) (w_pos : 0 < w)
    (rounded : |n - c * ratio| ≤ 1 / 2) (low : x1 ≤ p) (high : p ≤ x1 + c) :
    |(clamp01 (((p - x1) * (n / c) + pad - pad) / ratio / c) * c + x1) / w - p / w| ≤
      1 / (2 * ratio * w) := by
  have t_nonneg : 0 ≤ (p - x1) / c := div_nonneg (by linarith) c_pos.le
  have t_le : (p - x1) / c ≤ 1 := (div_le_one c_pos).mpr (by linarith)
  have unclamped : |((p - x1) * (n / c) + pad - pad) / ratio / c - (p - x1) / c| ≤
      1 / (2 * ratio * c) := by
    have factored : ((p - x1) * (n / c) + pad - pad) / ratio / c - (p - x1) / c =
        (p - x1) / c * ((n - c * ratio) / (ratio * c)) := by
      field_simp
      ring
    calc |((p - x1) * (n / c) + pad - pad) / ratio / c - (p - x1) / c|
        = (p - x1) / c * (|n - c * ratio| / (ratio * c)) := by
          rw [factored, abs_mul, abs_of_nonneg t_nonneg, abs_div, abs_of_pos (mul_pos ratio_pos c_pos)]
      _ ≤ 1 * (1 / 2 / (ratio * c)) := by gcongr
      _ = 1 / (2 * ratio * c) := by field_simp
  have clamped := (abs_clamp01_sub_le t_nonneg t_le _).trans unclamped
  generalize clamp01 (((p - x1) * (n / c) + pad - pad) / ratio / c) = u at clamped
  have scaled : (u * c + x1) / w - p / w = (u - (p - x1) / c) * (c / w) := by
    field_simp
    ring
  calc |(u * c + x1) / w - p / w|
      = |u - (p - x1) / c| * (c / w) := by
        rw [scaled, abs_mul, abs_of_pos (div_pos c_pos w_pos)]
    _ ≤ 1 / (2 * ratio * c) * (c / w) := by gcongr
    _ = 1 / (2 * ratio * w) := by field_simp

theorem axis_inside {a b c x1 w : ℚ} (c_pos : 0 < c) (w_pos : 0 < w) (nonneg : 0 ≤ a) (lt : a < b)
    (le_one : b ≤ 1) :
    x1 / w ≤ (a * c + x1) / w ∧ (a * c + x1) / w < (b * c + x1) / w ∧
      (b * c + x1) / w ≤ (x1 + c) / w := by
  simp only [div_le_div_iff_of_pos_right w_pos, div_lt_div_iff_of_pos_right w_pos]
  exact ⟨by nlinarith, by nlinarith, by nlinarith⟩

/-- A normalized box of the crop, in the frame: it stays inside the crop and keeps its
    order. -/
theorem remap_inside {img : Image} {c : Crop} (inside : c.Inside img) {n : Xyxy} (normal : n.Normalized) :
    let r := c.remap img.w img.h n
    (c.x1 / img.w : ℚ) ≤ r.x1 ∧ r.x1 < r.x2 ∧ r.x2 ≤ (c.x1 + c.w : ℚ) / img.w ∧
      (c.y1 / img.h : ℚ) ≤ r.y1 ∧ r.y1 < r.y2 ∧ r.y2 ≤ (c.y1 + c.h : ℚ) / img.h := by
  obtain ⟨x1_nonneg, cw_pos, x2_le, y1_nonneg, ch_pos, y2_le, _, _⟩ := inside
  have frame_w : 0 < (img.w : ℤ) := by omega
  have frame_h : 0 < (img.h : ℤ) := by omega
  obtain ⟨left, across, right⟩ := @axis_inside _ _ _ (c.x1 : ℚ) _ (Int.cast_pos.mpr cw_pos)
    (Int.cast_pos.mpr frame_w) normal.x1_nonneg normal.x_lt normal.x2_le
  obtain ⟨top, down, bottom⟩ := @axis_inside _ _ _ (c.y1 : ℚ) _ (Int.cast_pos.mpr ch_pos)
    (Int.cast_pos.mpr frame_h) normal.y1_nonneg normal.y_lt normal.y2_le
  intro r
  simp only [r, remap_eq c frame_w frame_h]
  exact ⟨left, across, right, top, down, bottom⟩

/-- From the frame to the model and back.  The crop is a rectangle of the frame; `letterbox` draws it, in its
    new size, at the pads; a point of the crop, drawn so and read back by `decode_boxes` and `serve`, moves
    by at most half a pixel of the model's input; and what the adapter emits stays inside the crop. -/
theorem coordinates_end_to_end (cv2 : Resizer) (img : Image) (w_pos : 1 ≤ img.w) (h_pos : 1 ≤ img.h)
    (roi : Option (List (List ℚ))) (color : Rgb) :
    let crop := cropToRoi img roi img.w img.h
    (0 ≤ crop.x1 ∧ crop.x1 ≤ crop.x1 + crop.w ∧ crop.x1 + crop.w ≤ img.w ∧
      0 ≤ crop.y1 ∧ crop.y1 ≤ crop.y1 + crop.h ∧ crop.y1 + crop.h ≤ img.h) ∧
    (crop.img.w = crop.w ∧ crop.img.h = crop.h ∧ ∀ y x : ℕ, y < crop.h → x < crop.w →
      crop.img.at? y x = img.at? (crop.y1.toNat + y) (crop.x1.toNat + x)) ∧
    (∀ mh mw : ℤ,
      let ratio : ℚ := min ((mh : ℚ) / crop.img.h) ((mw : ℚ) / crop.img.w)
      let newH := roundEven (crop.img.h * ratio)
      let newW := roundEven (crop.img.w * ratio)
      let padY := (mh - newH) / 2
      let padX := (mw - newW) / 2
      1 ≤ newH → 1 ≤ newW → ∃ canvas,
        letterbox cv2 crop.img (mh, mw) color = some (canvas, ratio, padX, padY) ∧
        0 ≤ padX ∧ 0 ≤ padY ∧ (canvas.w : ℤ) = mw ∧ (canvas.h : ℤ) = mh ∧
        (∀ y x : ℕ, y < newH → x < newW →
          canvas.at? (padY.toNat + y) (padX.toNat + x) = (resizedTo cv2 crop.img newW newH).at? y x) ∧
        ∀ px py qx qy : ℚ,
          crop.x1 ≤ px → px ≤ crop.x1 + crop.w → crop.y1 ≤ py → py ≤ crop.y1 + crop.h →
          crop.x1 ≤ qx → qx ≤ crop.x1 + crop.w → crop.y1 ≤ qy → qy ≤ crop.y1 + crop.h →
          let drawX := fun x : ℚ => (x - crop.x1) * (newW / crop.w) + padX
          let drawY := fun y : ℚ => (y - crop.y1) * (newH / crop.h) + padY
          let seen := unletterbox crop.img.w crop.img.h ratio padX padY
            ⟨drawX px, drawY py, drawX qx, drawY qy⟩
          let r := crop.remap img.w img.h seen
          |r.x1 - px / img.w| ≤ 1 / (2 * ratio * img.w) ∧
          |r.y1 - py / img.h| ≤ 1 / (2 * ratio * img.h) ∧
          |r.x2 - qx / img.w| ≤ 1 / (2 * ratio * img.w) ∧
          |r.y2 - qy / img.h| ≤ 1 / (2 * ratio * img.h)) ∧
    ∀ (w0 h0 : ℕ) (ratio : ℚ) (padX padY : ℤ) (c : Candidate) (d : Detection),
      emitBox w0 h0 ratio padX padY c = some d →
      d.xyxy.Normalized ∧
      let r := crop.remap img.w img.h d.xyxy
      (crop.x1 / img.w : ℚ) ≤ r.x1 ∧ r.x1 < r.x2 ∧ r.x2 ≤ (crop.x1 + crop.w : ℚ) / img.w ∧
        (crop.y1 / img.h : ℚ) ≤ r.y1 ∧ r.y1 < r.y2 ∧ r.y2 ≤ (crop.y1 + crop.h : ℚ) / img.h := by
  intro crop
  have inside : crop.Inside img := cropToRoi_inside img roi w_pos h_pos
  obtain ⟨x1_nonneg, cw_pos, x2_le, y1_nonneg, ch_pos, y2_le, width, height⟩ := id inside
  refine ⟨by omega, ⟨width, height, fun y x above left => ?_⟩, ?_, ?_⟩
  · have in_row : y < crop.img.h := by omega
    have in_column : x < crop.img.w := by omega
    exact (crop_at in_row in_column).2.2
  · intro mh mw ratio newH newW padY padX newH_pos newW_pos
    obtain ⟨canvas, returned, padX_nonneg, padY_nonneg, canvas_w, canvas_h, drawn⟩ :=
      letterbox_draws cv2 color (by omega) (by omega) newH_pos newW_pos
    refine ⟨canvas, returned, padX_nonneg, padY_nonneg, canvas_w, canvas_h, drawn, ?_⟩
    intro px py qx qy px_low px_high py_low py_high qx_low qx_high qy_low qy_high drawX drawY seen r
    have ratio_pos : 0 < ratio := ratio_pos_of_resized newH_pos
    have frame_w : (0 : ℚ) < img.w := by exact_mod_cast w_pos
    have frame_h : (0 : ℚ) < img.h := by exact_mod_cast h_pos
    have width' : (crop.img.w : ℚ) = crop.w := by exact_mod_cast congrArg (Int.cast (R := ℚ)) width
    have height' : (crop.img.h : ℚ) = crop.h := by exact_mod_cast congrArg (Int.cast (R := ℚ)) height
    have rounded_w : |(newW : ℚ) - crop.w * ratio| ≤ 1 / 2 := by
      rw [← width']
      exact abs_roundEven_sub_le _
    have rounded_h : |(newH : ℚ) - crop.h * ratio| ≤ 1 / 2 := by
      rw [← height']
      exact abs_roundEven_sub_le _
    have cw_pos' : (0 : ℚ) < crop.w := by exact_mod_cast cw_pos
    have ch_pos' : (0 : ℚ) < crop.h := by exact_mod_cast ch_pos
    simp only [r, seen, drawX, drawY, unletterbox, remap_eq crop (Int.natCast_pos.mpr w_pos)
      (Int.natCast_pos.mpr h_pos), Int.cast_natCast, width', height']
    exact ⟨axis_error cw_pos' ratio_pos frame_w rounded_w px_low px_high,
      axis_error ch_pos' ratio_pos frame_h rounded_h py_low py_high,
      axis_error cw_pos' ratio_pos frame_w rounded_w qx_low qx_high,
      axis_error ch_pos' ratio_pos frame_h rounded_h qy_low qy_high⟩
  · intro w0 h0 ratio padX padY c d emitted
    exact ⟨emitBox_normalized emitted, remap_inside inside (emitBox_normalized emitted)⟩

/-- What `cv2.resize` does to an image of one colour. -/
def flatResize : Resizer where
  resize img w h := Image.full h w ((img.at? 0 0).getD ⟨114, 114, 114⟩)
  height _ _ _ := rfl
  width _ _ _ := rfl

def greyFrame : Image := Image.full 16 32 ⟨90, 90, 90⟩

/-- The upper right quarter of a frame. -/
def quarter : Crop :=
  cropToRoi greyFrame (some [[1 / 2, 1 / 2], [1, 1 / 2], [1, 0], [1 / 2, 0]]) greyFrame.w greyFrame.h

/-- Halved for a model of twelve rows, it is drawn from row four on, and its middle comes back to within
    a 32nd. -/
theorem coordinates_end_to_end_quarter :
    quarter.x1 = 16 ∧ quarter.w = 16 ∧ ∃ canvas,
      letterbox flatResize quarter.img (12, 8) = some (canvas, 1 / 2, 0, 4) ∧
      canvas.at? 4 0 = some ⟨90, 90, 90⟩ ∧
      let drawX := fun x : ℚ => (x - quarter.x1) * (8 / quarter.w) + 0
      let drawY := fun y : ℚ => (y - quarter.y1) * (4 / quarter.h) + 4
      let seen := unletterbox quarter.img.w quarter.img.h (1 / 2) 0 4 ⟨drawX 24, drawY 4, drawX 32, drawY 8⟩
      |(quarter.remap greyFrame.w greyFrame.h seen).x1 - 24 / greyFrame.w| ≤ 1 / (2 * (1 / 2) * greyFrame.w) := by
  have ratio : min (((12 : ℤ) : ℚ) / quarter.img.h) (((8 : ℤ) : ℚ) / quarter.img.w) = 1 / 2 := by decide +kernel
  have newW : roundEven (quarter.img.w * (1 / 2)) = 8 := by decide +kernel
  have newH : roundEven (quarter.img.h * (1 / 2)) = 4 := by decide +kernel
  have fitted := (coordinates_end_to_end flatResize greyFrame (by decide) (by decide)
    (some [[1 / 2, 1 / 2], [1, 1 / 2], [1, 0], [1 / 2, 0]]) ⟨114, 114, 114⟩).2.2.1 12 8
    (by decide +kernel) (by decide +kernel)
  rw [← quarter, ratio, newW, newH] at fitted
  obtain ⟨canvas, returned, -, -, -, -, drawn, points⟩ := fitted
  refine ⟨by decide +kernel, by decide +kernel, canvas, returned, ?_, ?_⟩
  · exact (drawn 0 0 (by decide) (by decide)).trans (by decide +kernel)
  · have middle := (points 24 4 32 8 (by decide +kernel) (by decide +kernel) (by decide +kernel)
      (by decide +kernel) (by decide +kernel) (by decide +kernel) (by decide +kernel) (by decide +kernel)).1
    exact middle

end VisionNx.Worker
