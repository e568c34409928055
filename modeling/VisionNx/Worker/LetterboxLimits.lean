import Mathlib.Algebra.Order.Field.Basic
import VisionNx.Worker.Serve

/-! # When letterboxing degenerates

`_MIN_CROP_PX` keeps a crop from being too small, but not from being too thin for the
model: the longer side decides the ratio, and the shorter one may then round to zero.
`letterbox` works exactly as long as neither side of the crop is that thin. -/

namespace VisionNx

open Python

/-! ## The resized sides -/

theorem one_le_roundEven_iff {x : ℚ} : 1 ≤ roundEven x ↔ 1 / 2 < x := by
  obtain ⟨low, high⟩ := abs_le.mp (abs_roundEven_sub_le x)
  constructor
  · intro one
    by_contra! small
    cases small.lt_or_eq with
    | inl less =>
      have below : (roundEven x : ℚ) < 1 := by linarith
      have : roundEven x < 1 := by exact_mod_cast below
      omega
    | inr half =>
      -- Halfway between 0 and 1 the even one is 0.
      rw [half] at one
      exact absurd one (by decide +kernel)
  · intro large
    have above : (0 : ℚ) < roundEven x := by linarith
    exact_mod_cast above

/-- A side of length `n` beside one of length `other`, fitted into `limit` and `otherLimit`. -/
theorem half_lt_scaled_iff {n other : ℕ} {limit otherLimit : ℤ} (n_pos : 0 < n) (other_pos : 0 < other)
    (limit_pos : 1 ≤ limit) :
    1 / 2 < (n : ℚ) * min ((limit : ℚ) / n) ((otherLimit : ℚ) / other) ↔ (other : ℤ) < 2 * n * otherLimit := by
  have n_pos' : (0 : ℚ) < n := Nat.cast_pos.mpr n_pos
  have other_pos' : (0 : ℚ) < other := Nat.cast_pos.mpr other_pos
  have whole : (1 : ℚ) ≤ limit := by exact_mod_cast limit_pos
  have cross : 1 / 2 < (n : ℚ) * (otherLimit / other) ↔ (other : ℤ) < 2 * n * otherLimit := by
    rw [← mul_div_assoc, div_lt_div_iff₀ two_pos other_pos', one_mul]
    have casts : (other : ℚ) < n * otherLimit * 2 ↔ (other : ℤ) < n * otherLimit * 2 := by exact_mod_cast Iff.rfl
    rw [casts]
    constructor <;> intro lt <;> linarith
  rw [mul_min_of_nonneg _ _ n_pos'.le, lt_min_iff, mul_div_cancel₀ _ n_pos'.ne', cross]
  exact and_iff_right (by linarith)

variable {h w : ℕ} {mh mw : ℤ}

theorem newH_pos_iff (h_pos : 0 < h) (w_pos : 0 < w) (mh_pos : 1 ≤ mh) :
    1 ≤ roundEven (h * letterboxRatio h w mh mw) ↔ (w : ℤ) < 2 * h * mw := by
  rw [one_le_roundEven_iff, letterboxRatio, half_lt_scaled_iff h_pos w_pos mh_pos]

theorem newW_pos_iff (h_pos : 0 < h) (w_pos : 0 < w) (mw_pos : 1 ≤ mw) :
    1 ≤ roundEven (w * letterboxRatio h w mh mw) ↔ (h : ℤ) < 2 * w * mh := by
  rw [one_le_roundEven_iff, letterboxRatio, min_comm, half_lt_scaled_iff w_pos h_pos mw_pos]

/-! ## Letterboxing -/

/-- The image is resized to sides of at least one pixel and pasted inside the canvas, and the ratio that
    the boxes are divided by is positive. -/
def LetterboxProper (cv2 : Resizer) (img : Image) (mh mw : ℤ) (color : Rgb) : Prop :=
  let newH := roundEven (img.h * letterboxRatio img.h img.w mh mw)
  let newW := roundEven (img.w * letterboxRatio img.h img.w mh mw)
  ∃ canvas ratio padX padY, letterbox cv2 img (mh, mw) color = some (canvas, ratio, padX, padY) ∧
    1 ≤ newH ∧ newH ≤ mh ∧ 1 ≤ newW ∧ newW ≤ mw ∧
    0 ≤ padX ∧ 0 ≤ padY ∧ padX + newW ≤ mw ∧ padY + newH ≤ mh ∧
    0 < ratio ∧ 0 < img.w ∧ 0 < img.h

/-- `letterbox` degenerates exactly if one side is too thin for the model. -/
theorem letterboxProper_iff (cv2 : Resizer) {img : Image} (color : Rgb) (h_pos : 0 < img.h) (w_pos : 0 < img.w)
    (mh_pos : 1 ≤ mh) (mw_pos : 1 ≤ mw) :
    LetterboxProper cv2 img mh mw color ↔ (img.h : ℤ) < 2 * img.w * mh ∧ (img.w : ℤ) < 2 * img.h * mw := by
  rw [← newW_pos_iff h_pos w_pos mw_pos, ← newH_pos_iff h_pos w_pos mh_pos]
  constructor
  · rintro ⟨_, _, _, _, _, newH_pos, _, newW_pos, _⟩
    exact ⟨newW_pos, newH_pos⟩
  · rintro ⟨newW_pos, newH_pos⟩
    obtain ⟨fits_h, fits_w⟩ := @letterbox_fits img.h img.w mh mw h_pos w_pos
    obtain ⟨canvas, returned, padX_nonneg, padY_nonneg, -⟩ :=
      letterbox_draws cv2 color h_pos w_pos newH_pos newW_pos
    exact ⟨canvas, _, _, _, returned, newH_pos, fits_h, newW_pos, fits_w, by omega, by omega, by omega,
      by omega, ratio_pos_of_resized newH_pos, w_pos, h_pos⟩

/-- Otherwise `cv2.resize` raises. -/
theorem letterbox_raises (cv2 : Resizer) {img : Image} (color : Rgb) (h_pos : 0 < img.h) (w_pos : 0 < img.w)
    (mh_pos : 1 ≤ mh) (mw_pos : 1 ≤ mw)
    (thin : ¬ ((img.h : ℤ) < 2 * img.w * mh ∧ (img.w : ℤ) < 2 * img.h * mw)) :
    letterbox cv2 img (mh, mw) color = none := by
  rw [← newW_pos_iff h_pos w_pos mw_pos, ← newH_pos_iff h_pos w_pos mh_pos] at thin
  have zero : roundEven (img.w * letterboxRatio img.h img.w mh mw) ≤ 0 ∨
      roundEven (img.h * letterboxRatio img.h img.w mh mw) ≤ 0 := by
    omega
  simp only [letterbox]
  rw [if_neg (by omega)]
  have resized : (roundEven (img.w * letterboxRatio img.h img.w mh mw),
      roundEven (img.h * letterboxRatio img.h img.w mh mw)) ≠ ((img.w : ℤ), (img.h : ℤ)) := by
    intro same
    simp only [Prod.mk.injEq] at same
    omega
  rw [if_pos resized, if_pos zero, Option.bind_none]

end VisionNx

namespace VisionNx.Worker

/-! ## What the worker letterboxes -/

/-- The size of a crop does not depend on what is in the frame. -/
theorem cropToRoi_size (img img' : Image) (roi : Option (List (List ℚ))) (w h : ℤ) :
    (cropToRoi img roi w h).w = (cropToRoi img' roi w h).w ∧ (cropToRoi img roi w h).h = (cropToRoi img' roi w h).h := by
  unfold cropToRoi
  cases roi with
  | none => exact ⟨rfl, rfl⟩
  | some roi =>
    simp only
    split
    · exact ⟨rfl, rfl⟩
    · split
      · exact ⟨rfl, rfl⟩
      · exact ⟨rfl, rfl⟩

/-- A body with whole rows is decoded. -/
theorem decodeRgbBody_returns {body : List UInt8} {w h stride : ℤ} (w_pos : 1 ≤ w) (h_pos : 1 ≤ h)
    (whole : w * 3 ≤ stride) (len : (body.length : ℤ) = h * stride) :
    ∃ img, decodeRgbBody body w h stride = some img := by
  have cols : (keptColumns w stride.toNat : ℤ) = w * 3 := by
    rw [keptColumns, if_neg (by omega)]
    omega
  refine ⟨_, dif_pos ⟨by omega, by omega, len, ?_, fun _ => cols⟩⟩
  omega

/-- A decoded frame has the sides of its header. -/
theorem decoded_sides {body : List UInt8} {w h stride : ℤ} {img : Image} (w_pos : 1 ≤ w) (h_pos : 1 ≤ h)
    (decoded : decodeRgbBody body w h stride = some img) : (img.w : ℤ) = w ∧ (img.h : ℤ) = h := by
  simp only [decodeRgbBody] at decoded
  split at decoded
  next size =>
    cases decoded
    have cols := size.2.2.2.2 (by omega)
    constructor
    · show ((keptColumns w stride.toNat / 3 : ℕ) : ℤ) = w
      omega
    · show ((h.toNat : ℕ) : ℤ) = h
      omega
  next => cases decoded

theorem decoded_crop_inside {body : List UInt8} {w h stride : ℤ} {img : Image} (w_pos : 1 ≤ w) (h_pos : 1 ≤ h)
    (decoded : decodeRgbBody body w h stride = some img) (roi : Option (List (List ℚ))) :
    (cropToRoi img roi w h).Inside img := by
  obtain ⟨width, height⟩ := decoded_sides w_pos h_pos decoded
  rw [← width, ← height]
  exact cropToRoi_inside img roi (by omega) (by omega)

/-- For every frame that is decoded, every region and every size of the model's input: the crop is letterboxed
    properly exactly if neither of its sides is too thin, and else preprocessing raises. -/
theorem letterbox_crop_iff (cv2 : Resizer) (color : Rgb) (hdr : FrameHeader) (w_pos : 1 ≤ hdr.w) (h_pos : 1 ≤ hdr.h)
    (body : List UInt8) (img : Image) (decoded : decodeRgbBody body hdr.w hdr.h hdr.stride = some img)
    (roi : Option (List (List ℚ))) (mh mw : ℤ) (mh_pos : 1 ≤ mh) (mw_pos : 1 ≤ mw) :
    let crop := cropToRoi img roi hdr.w hdr.h
    (LetterboxProper cv2 crop.img mh mw color ↔ crop.h < 2 * crop.w * mh ∧ crop.w < 2 * crop.h * mw) ∧
    (letterbox cv2 crop.img (mh, mw) color = none ↔ ¬ (crop.h < 2 * crop.w * mh ∧ crop.w < 2 * crop.h * mw)) := by
  intro crop
  have inside : crop.Inside img := decoded_crop_inside w_pos h_pos decoded roi
  have crop_h : 0 < crop.img.h := by
    have := inside.height
    have := inside.h_pos
    omega
  have crop_w : 0 < crop.img.w := by
    have := inside.width
    have := inside.w_pos
    omega
  have proper := letterboxProper_iff cv2 color crop_h crop_w mh_pos mw_pos
  rw [← inside.height, ← inside.width]
  refine ⟨proper, fun raised fine => ?_, letterbox_raises cv2 color crop_h crop_w mh_pos mw_pos⟩
  obtain ⟨canvas, ratio, padX, padY, returned, -⟩ := proper.mpr fine
  rw [raised] at returned
  cases returned

/-- One row of twelve pixels is too thin for a model of 4 × 4, and fine for one of 4 × 8. -/
theorem letterbox_crop_iff_row :
    ∃ img, decodeRgbBody (List.replicate 36 90) 12 1 36 = some img ∧
      letterbox flatResize (cropToRoi img none 12 1).img (4, 4) ⟨114, 114, 114⟩ = none ∧
      LetterboxProper flatResize (cropToRoi img none 12 1).img 4 8 ⟨114, 114, 114⟩ := by
  obtain ⟨img, decoded⟩ := @decodeRgbBody_returns (List.replicate 36 90) 12 1 36 (by decide) (by decide) (by decide)
    (by decide)
  have row (mw : ℤ) (mw_pos : 1 ≤ mw) := letterbox_crop_iff flatResize ⟨114, 114, 114⟩ ⟨12, 1, 36, 0⟩ (by decide)
    (by decide) (List.replicate 36 90) img decoded none 4 mw (by decide) mw_pos
  exact ⟨img, decoded, (row 4 (by decide)).2.mpr (by simp [cropToRoi]), (row 8 (by decide)).1.mpr (by simp [cropToRoi])⟩

/-- A region of 8 rows right across a frame of 7680 × 4320: for a model of 320 × 320 it would
    be a third of a pixel high. -/
theorem strip_degenerates :
    ¬ ∀ (cv2 : Resizer) (color : Rgb) (hdr : FrameHeader) (body : List UInt8) (img : Image)
        (roi : Option (List (List ℚ))) (mh mw : ℤ),
      1 ≤ hdr.w → 1 ≤ hdr.h → 0 < hdr.h * hdr.stride → hdr.h * hdr.stride ≤ maxBodyBytes →
      decodeRgbBody body hdr.w hdr.h hdr.stride = some img → 1 ≤ mh → 1 ≤ mw →
      LetterboxProper cv2 (cropToRoi img roi hdr.w hdr.h).img mh mw color := by
  intro claimed
  let strip : List (List ℚ) := [[0, 0], [1, 0], [1, 17 / 8640], [0, 17 / 8640]]
  obtain ⟨body, len⟩ : ∃ body : List UInt8, body.length = 99532800 := ⟨_, List.length_replicate (a := 90)⟩
  obtain ⟨img, decoded⟩ := @decodeRgbBody_returns body 7680 4320 23040 (by decide) (by decide) (by decide) (by omega)
  have proper := claimed flatResize ⟨114, 114, 114⟩ ⟨7680, 4320, 23040, 0⟩ body img (some strip) 320 320 (by decide)
    (by decide) (by decide) (by decide) decoded (by decide) (by decide)
  have inside := decoded_crop_inside (by decide) (by decide) decoded (some strip)
  -- The size of the crop can be read off on any other image.
  obtain ⟨width, height⟩ := cropToRoi_size img greyFrame (some strip) 7680 4320
  have wide : (cropToRoi greyFrame (some strip) 7680 4320).w = 7680 := by decide +kernel
  have thin : (cropToRoi greyFrame (some strip) 7680 4320).h = 8 := by decide +kernel
  have crop_w : ((cropToRoi img (some strip) 7680 4320).img.w : ℤ) = 7680 := inside.width.trans (width.trans wide)
  have crop_h : ((cropToRoi img (some strip) 7680 4320).img.h : ℤ) = 8 := inside.height.trans (height.trans thin)
  have h_pos : 0 < (cropToRoi img (some strip) 7680 4320).img.h := by omega
  have w_pos : 0 < (cropToRoi img (some strip) 7680 4320).img.w := by omega
  have fine := ((letterboxProper_iff flatResize ⟨114, 114, 114⟩ h_pos w_pos (by decide) (by decide)).mp proper).2
  rw [crop_w, crop_h] at fine
  exact absurd fine (by decide)

end VisionNx.Worker
