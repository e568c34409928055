import Mathlib.Tactic.FieldSimp
import Mathlib.Tactic.Positivity
import VisionNx.Image
import VisionNx.Python

/-! # Shared inference helpers

`python/infer_utils.py`: how an image is fitted into the model's input and how the
model's boxes come back.  `none` stands for a raised exception. -/

namespace VisionNx

open Python

/-! ## Class names -/

def coco80Names : List String := [
  "person", "bicycle", "car", "motorcycle", "airplane", "bus", "train",
  "truck", "boat", "traffic light", "fire hydrant", "stop sign",
  "parking meter", "bench", "bird", "cat", "dog", "horse", "sheep", "cow",
  "elephant", "bear", "zebra", "giraffe", "backpack", "umbrella", "handbag",
  "tie", "suitcase", "frisbee", "skis", "snowboard", "sports ball", "kite",
  "baseball bat", "baseball glove", "skateboard", "surfboard",
  "tennis racket", "bottle", "wine glass", "cup", "fork", "knife", "spoon",
  "bowl", "banana", "apple", "sandwich", "orange", "broccoli", "carrot",
  "hot dog", "pizza", "donut", "cake", "chair", "couch", "potted plant",
  "bed", "dining table", "toilet", "tv", "laptop", "mouse", "remote",
  "keyboard", "cell phone", "microwave", "oven", "toaster", "sink",
  "refrigerator", "book", "clock", "vase", "scissors", "teddy bear",
  "hair drier", "toothbrush"]

/-- `names_to_ids` of a list: the ids of the names it knows. -/
def namesToIds (names : List String) : List ℕ :=
  names.filterMap fun n => coco80Names.idxOf? (lower (strip n))

/-! ## Regions -/

/-- A pixel polygon; `normalize_to_pixel_polygon` clamps, scales and truncates.  The
    worker's points are pairs; NumPy refuses ragged lists. -/
def normalizeToPixelPolygon (ptsNorm : Option (List (List ℚ))) (w h : ℤ) : Option (List (ℤ × ℤ)) :=
  ptsNorm.bind fun pts =>
    if pts.length < 3 then none
    else pts.mapM fun
      | [x, y] => some (toInt (max 0 (min 1 x) * w), toInt (max 0 (min 1 y) * h))
      | _ => none

/-- `filter_boxes_by_regions`, for boxes of any kind with corners; `pointPolygonTest`
    is whether `cv2`'s test is not negative. -/
def filterBoxesByRegions {β : Type*} (pointPolygonTest : List (ℤ × ℤ) → ℚ × ℚ → Bool) (xyxy : β → Xyxy)
    (boxes : List β) (w h : ℤ) (roiPx inclusivePx exclusivePx : Option (List (ℤ × ℤ))) : List β :=
  let pointIn (poly : Option (List (ℤ × ℤ))) (p : ℚ × ℚ) : Bool :=
    match poly with
    | none => false
    | some poly => pointPolygonTest poly p
  let hasPositive := roiPx.isSome || inclusivePx.isSome
  if !hasPositive && exclusivePx.isNone then boxes
  else
    boxes.filter fun b =>
      let center := (((xyxy b).x1 + (xyxy b).x2) * (1 / 2) * w, ((xyxy b).y1 + (xyxy b).y2) * (1 / 2) * h)
      (!hasPositive || pointIn roiPx center || pointIn inclusivePx center) && !pointIn exclusivePx center

/-! ## Letterboxing -/

/-- `cv2.resize`: an image of the size asked for. -/
structure Resizer where
  resize : Image → ℕ → ℕ → Image
  height : ∀ img w h, (resize img w h).h = h
  width : ∀ img w h, (resize img w h).w = w

/-- `r` of `letterbox`. -/
def letterboxRatio (h w : ℕ) (mh mw : ℤ) : ℚ := min ((mh : ℚ) / h) ((mw : ℚ) / w)

/-- `letterbox`: the canvas, the ratio and the pads `(pad_x, pad_y)`.  Dividing by an
    empty side, resizing to one and a canvas of negative size raise. -/
def letterbox (cv2 : Resizer) (img : Image) (newShape : ℤ × ℤ) (color : Rgb := ⟨114, 114, 114⟩) :
    Option (Image × ℚ × ℤ × ℤ) :=
  let h := img.h
  let w := img.w
  let (mh, mw) := newShape
  if h = 0 ∨ w = 0 ∨ mh < 0 ∨ mw < 0 then none
  else
    let r := letterboxRatio h w mh mw
    let newH := roundEven (h * r)
    let newW := roundEven (w * r)
    let resized? :=
      if (newW, newH) ≠ ((w : ℤ), (h : ℤ)) then
        if newW ≤ 0 ∨ newH ≤ 0 then none else some (cv2.resize img newW.toNat newH.toNat)
      else some img
    let padY := (mh - newH) / 2
    let padX := (mw - newW) / 2
    resized?.bind fun resized =>
      ((Image.full mh.toNat mw.toNat color).paste resized padY padX).map fun canvas =>
        (canvas, r, padX, padY)

/-! ## Decoding -/

/-- A candidate of the raw output that survived thresholds and NMS. -/
structure Candidate where
  xyxy : Xyxy
  score : ℚ
  cls : ℚ

structure Detection where
  xyxy : Xyxy
  score : ℚ
  cls : ℤ
  deriving DecidableEq

/-- `max(0.0, min(1.0, v))`. -/
def clamp01 (v : ℚ) : ℚ := max 0 (min 1 v)

/-- The box that `decode_boxes` computes from a candidate's corners in model space. -/
def unletterbox (w0 h0 : ℕ) (ratio : ℚ) (padX padY : ℤ) (q : Xyxy) : Xyxy where
  x1 := clamp01 ((q.x1 - padX) / ratio / w0)
  y1 := clamp01 ((q.y1 - padY) / ratio / h0)
  x2 := clamp01 ((q.x2 - padX) / ratio / w0)
  y2 := clamp01 ((q.y2 - padY) / ratio / h0)

/-- One round of the last loop of `decode_boxes`; an empty box is skipped. -/
def emitBox (w0 h0 : ℕ) (ratio : ℚ) (padX padY : ℤ) (c : Candidate) : Option Detection :=
  let n := unletterbox w0 h0 ratio padX padY c.xyxy
  if n.x2 ≤ n.x1 ∨ n.y2 ≤ n.y1 then none
  else some { xyxy := n, score := c.score, cls := toInt c.cls }

inductive Layout where
  | yolo26
  | yolov8
  deriving DecidableEq, Repr

/-- `detect_layout`; a dimension that is no int is `none`. -/
def detectLayout : List (Option ℤ) → Layout × ℤ
  | [_, _, some 6] => (.yolo26, 0)
  | [_, some n, _] => (.yolov8, max 0 (n - 4))
  | _ => (.yolov8, 0)

/-- `out[0]`, the matrix of a batch of one. -/
structure RawOutput where
  rows : List (List ℚ)
  cols : ℕ
  width : ∀ row ∈ rows, row.length = cols

/-- Whether a class passes `class_filter`, which filters nothing when it is falsy. -/
def passesFilter (classFilter : Option (List ℕ)) (cls : ℤ) : Bool :=
  match classFilter with
  | none | some [] => true
  | some keepSet => keepSet.any fun (c : ℕ) => (c : ℤ) == cls

/-- A row `[x1, y1, x2, y2, score, cls]` of the `yolo26` layout. -/
def candidateYolo26 : List ℚ → Option Candidate
  | [x1, y1, x2, y2, score, cls] => some ⟨⟨x1, y1, x2, y2⟩, score, cls⟩
  | _ => none

/-- A column `[cx, cy, w, h, scores…]` of the `yolov8` layout, with its first class of
    maximal score. -/
def candidateYolov8 : List ℚ → Option Candidate
  | cx :: cy :: w :: h :: score :: scores =>
    let best := maxOf (score :: scores)
    some {
      xyxy := ⟨cx - w * (1 / 2), cy - h * (1 / 2), cx + w * (1 / 2), cy + h * (1 / 2)⟩
      score := best
      cls := (score :: scores).idxOf best }
  | _ => none

/-- `out[0].T`. -/
def RawOutput.transposed (out : RawOutput) : List (List ℚ) :=
  (List.range out.cols).map fun j => out.rows.map fun row => row.getD j 0

/-- The candidates that pass the threshold and the class filter. -/
def keptCandidates (candidates : List Candidate) (confThr : ℚ) (classFilter : Option (List ℕ)) : List Candidate :=
  candidates.filter fun c => decide (confThr ≤ c.score) && passesFilter classFilter (toInt c.cls)

/-- The box of a candidate as `cv2.dnn.NMSBoxes` takes it. -/
def xywh (q : Xyxy) : ℚ × ℚ × ℚ × ℚ := (q.x1, q.y1, q.x2 - q.x1, q.y2 - q.y1)

/-- `decode_boxes`; an index of `cv2.dnn.NMSBoxes` that is out of range raises. -/
def decodeBoxes (nmsBoxes : List (ℚ × ℚ × ℚ × ℚ) → List ℚ → ℚ → ℚ → List ℕ) (out : RawOutput) (layout : Layout)
    (confThr iouThr : ℚ) (classFilter : Option (List ℕ)) (w0 h0 : ℕ) (ratio : ℚ) (padX padY : ℤ) :
    Option (List Detection) :=
  match layout with
  | .yolo26 =>
    if out.cols ≠ 6 then some []
    else
      -- The model has done the suppression itself.
      let kept := keptCandidates (out.rows.filterMap candidateYolo26) confThr classFilter
      some (kept.filterMap (emitBox w0 h0 ratio padX padY))
  | .yolov8 =>
    if out.rows.length < 5 then some []
    else
      let kept := keptCandidates (out.transposed.filterMap candidateYolov8) confThr classFilter
      if kept.isEmpty then some []
      else
        let idxs := nmsBoxes (kept.map fun c => xywh c.xyxy) (kept.map (·.score)) confThr iouThr
        (idxs.mapM (kept[·]?)).map fun chosen => chosen.filterMap (emitBox w0 h0 ratio padX padY)

/-! ## Classes -/

/-- Every id comes from a name of the list. -/
theorem mem_namesToIds {names : List String} {id : ℕ} (mem : id ∈ namesToIds names) :
    ∃ n ∈ names, coco80Names[id]? = some (lower (strip n)) := by
  obtain ⟨n, n_mem, found⟩ := List.mem_filterMap.mp mem
  obtain ⟨inside, same, -⟩ := List.idxOf?_eq_some_iff.mp found
  exact ⟨n, n_mem, by rw [List.getElem?_eq_getElem inside, same]⟩

/-- No name of the list is known if there are no ids. -/
theorem namesToIds_eq_nil {names : List String} :
    namesToIds names = [] ↔ ∀ n ∈ names, lower (strip n) ∉ coco80Names := by
  simp only [namesToIds, List.filterMap_eq_nil_iff, List.idxOf?_eq_none_iff]

theorem mem_of_mapM {α β : Type} {f : α → Option β} {xs : List α} {ys : List β} (mapped : xs.mapM f = some ys)
    {y : β} (mem : y ∈ ys) : ∃ x ∈ xs, f x = some y := by
  induction xs generalizing ys with
  | nil =>
    cases mapped
    cases mem
  | cons x xs ih =>
    simp only [List.mapM_cons, Option.bind_eq_bind, Option.bind_eq_some_iff] at mapped
    obtain ⟨y', first, ys', rest, same⟩ := mapped
    cases same
    cases mem with
    | head => exact ⟨x, List.mem_cons_self, first⟩
    | tail _ mem =>
      obtain ⟨x', x'_mem, is⟩ := ih rest mem
      exact ⟨x', List.mem_cons_of_mem _ x'_mem, is⟩

theorem emitBox_cls {w0 h0 : ℕ} {ratio : ℚ} {padX padY : ℤ} {c : Candidate} {d : Detection}
    (emitted : emitBox w0 h0 ratio padX padY c = some d) : d.cls = toInt c.cls := by
  simp only [emitBox] at emitted
  split at emitted
  · cases emitted
  · cases emitted
    rfl

theorem passes_of_kept {candidates : List Candidate} {confThr : ℚ} {classFilter : Option (List ℕ)} {c : Candidate}
    (kept : c ∈ keptCandidates candidates confThr classFilter) : passesFilter classFilter (toInt c.cls) = true :=
  (Bool.and_eq_true _ _ ▸ (List.mem_filter.mp kept).2).2

/-- What `decode_boxes` returns passes its class filter. -/
theorem decodeBoxes_passes {nmsBoxes : List (ℚ × ℚ × ℚ × ℚ) → List ℚ → ℚ → ℚ → List ℕ} {out : RawOutput}
    {layout : Layout} {confThr iouThr : ℚ} {classFilter : Option (List ℕ)} {w0 h0 : ℕ} {ratio : ℚ} {padX padY : ℤ}
    {ds : List Detection}
    (decoded : decodeBoxes nmsBoxes out layout confThr iouThr classFilter w0 h0 ratio padX padY = some ds) :
    ∀ d ∈ ds, passesFilter classFilter d.cls = true := by
  have emitted (cs : List Candidate) (passing : ∀ c ∈ cs, passesFilter classFilter (toInt c.cls) = true) :
      ∀ d ∈ cs.filterMap (emitBox w0 h0 ratio padX padY), passesFilter classFilter d.cls = true := by
    intro d mem
    obtain ⟨c, c_mem, is⟩ := List.mem_filterMap.mp mem
    rw [emitBox_cls is]
    exact passing c c_mem
  cases layout with
  | yolo26 =>
    simp only [decodeBoxes] at decoded
    split at decoded
    · cases decoded
      exact fun d mem => absurd mem List.not_mem_nil
    · cases decoded
      exact emitted _ fun c mem => passes_of_kept mem
  | yolov8 =>
    simp only [decodeBoxes] at decoded
    split at decoded
    · cases decoded
      exact fun d mem => absurd mem List.not_mem_nil
    split at decoded
    · cases decoded
      exact fun d mem => absurd mem List.not_mem_nil
    · obtain ⟨chosen, picked, rfl⟩ := Option.map_eq_some_iff.mp decoded
      refine emitted chosen fun c mem => ?_
      obtain ⟨idx, -, at_idx⟩ := mem_of_mapM picked mem
      exact passes_of_kept (List.mem_of_getElem? at_idx)

/-! ## Properties -/

/-- A box of positive size inside the unit square. -/
structure Xyxy.Normalized (n : Xyxy) : Prop where
  x1_nonneg : 0 ≤ n.x1
  x_lt : n.x1 < n.x2
  x2_le : n.x2 ≤ 1
  y1_nonneg : 0 ≤ n.y1
  y_lt : n.y1 < n.y2
  y2_le : n.y2 ≤ 1

theorem clamp01_nonneg (v : ℚ) : 0 ≤ clamp01 v := le_max_left 0 _

theorem clamp01_le_one (v : ℚ) : clamp01 v ≤ 1 := max_le zero_le_one (min_le_left 1 v)

/-- Clamping brings a value no further from a point of the unit interval. -/
theorem abs_clamp01_sub_le {t : ℚ} (nonneg : 0 ≤ t) (le_one : t ≤ 1) (v : ℚ) :
    |clamp01 v - t| ≤ |v - t| := by
  cases le_total v 0 with
  | inl neg =>
    have clamped : clamp01 v = 0 := max_eq_left ((min_le_right 1 v).trans neg)
    rw [clamped, abs_of_nonpos (by linarith), abs_of_nonpos (by linarith)]
    linarith
  | inr pos =>
    cases le_total v 1 with
    | inl small =>
      have clamped : clamp01 v = v := by rw [clamp01, min_eq_right small, max_eq_right pos]
      rw [clamped]
    | inr large =>
      have clamped : clamp01 v = 1 := by rw [clamp01, min_eq_left large, max_eq_right zero_le_one]
      rw [clamped, abs_of_nonneg (by linarith), abs_of_nonneg (by linarith)]
      linarith

/-- Every box that `decode_boxes` emits is normalized. -/
theorem emitBox_normalized {w0 h0 : ℕ} {ratio : ℚ} {padX padY : ℤ} {c : Candidate} {d : Detection}
    (emitted : emitBox w0 h0 ratio padX padY c = some d) : d.xyxy.Normalized := by
  simp only [emitBox] at emitted
  split at emitted
  · cases emitted
  · rename_i nonempty
    simp only [not_or, not_le] at nonempty
    cases emitted
    exact ⟨clamp01_nonneg _, nonempty.1, clamp01_le_one _, clamp01_nonneg _, nonempty.2,
      clamp01_le_one _⟩

/-- The resized image fits the model's input, with pads that are not negative. -/
theorem letterbox_fits {h w : ℕ} {mh mw : ℤ} (hh : 0 < h) (hw : 0 < w) :
    roundEven (h * letterboxRatio h w mh mw) ≤ mh ∧ roundEven (w * letterboxRatio h w mh mw) ≤ mw := by
  have h_pos : (0 : ℚ) < h := Nat.cast_pos.mpr hh
  have w_pos : (0 : ℚ) < w := Nat.cast_pos.mpr hw
  constructor
  · apply roundEven_le
    rw [mul_comm, ← le_div_iff₀ h_pos]
    exact min_le_left _ _
  · apply roundEven_le
    rw [mul_comm, ← le_div_iff₀ w_pos]
    exact min_le_right _ _

/-- A resized side of at least one pixel forces a positive ratio. -/
theorem ratio_pos_of_resized {side : ℕ} {ratio : ℚ} (resized : 1 ≤ roundEven (side * ratio)) : 0 < ratio := by
  by_contra! nonpos
  have product : side * ratio ≤ 0 := mul_nonpos_of_nonneg_of_nonpos (Nat.cast_nonneg _) nonpos
  have := @roundEven_le (side * ratio) 0 (by simpa using product)
  omega

/-- The image in the size that `letterbox` draws it in. -/
def resizedTo (cv2 : Resizer) (img : Image) (newW newH : ℤ) : Image :=
  if (newW, newH) ≠ ((img.w : ℤ), (img.h : ℤ)) then cv2.resize img newW.toNat newH.toNat else img

theorem resizedTo_size (cv2 : Resizer) (img : Image) {newW newH : ℤ} (newW_pos : 1 ≤ newW) (newH_pos : 1 ≤ newH) :
    ((resizedTo cv2 img newW newH).w : ℤ) = newW ∧ ((resizedTo cv2 img newW newH).h : ℤ) = newH := by
  unfold resizedTo
  split
  · rw [cv2.width, cv2.height]
    omega
  next same =>
    simp only [ne_eq, Prod.mk.injEq, not_not] at same
    exact ⟨same.1.symm, same.2.symm⟩

/-- With sides of at least one pixel, `letterbox` returns a canvas of the model's size with the
    resized image at the pads. -/
theorem letterbox_draws (cv2 : Resizer) {img : Image} {mh mw : ℤ} (color : Rgb) (hh : 0 < img.h) (hw : 0 < img.w) :
    let ratio := letterboxRatio img.h img.w mh mw
    let newH := roundEven (img.h * ratio)
    let newW := roundEven (img.w * ratio)
    let padY := (mh - newH) / 2
    let padX := (mw - newW) / 2
    1 ≤ newH → 1 ≤ newW → ∃ canvas,
      letterbox cv2 img (mh, mw) color = some (canvas, ratio, padX, padY) ∧
      0 ≤ padX ∧ 0 ≤ padY ∧ (canvas.w : ℤ) = mw ∧ (canvas.h : ℤ) = mh ∧
      ∀ y x : ℕ, y < newH → x < newW →
        canvas.at? (padY.toNat + y) (padX.toNat + x) = (resizedTo cv2 img newW newH).at? y x := by
  intro ratio newH newW padY padX newH_pos newW_pos
  obtain ⟨fits_h, fits_w⟩ : newH ≤ mh ∧ newW ≤ mw := letterbox_fits hh hw
  obtain ⟨width, height⟩ := resizedTo_size cv2 img newW_pos newH_pos
  have resized : (if (newW, newH) ≠ ((img.w : ℤ), (img.h : ℤ)) then
      if newW ≤ 0 ∨ newH ≤ 0 then none else some (cv2.resize img newW.toNat newH.toNat)
      else some img) = some (resizedTo cv2 img newW newH) := by
    unfold resizedTo
    split
    · rw [if_neg (by omega)]
    · rfl
  have fits : 0 ≤ padY ∧ padY + (resizedTo cv2 img newW newH).h ≤ mh.toNat ∧
      0 ≤ padX ∧ padX + (resizedTo cv2 img newW newH).w ≤ mw.toNat := by omega
  have pasted : ∃ canvas, (Image.full mh.toNat mw.toNat color).paste (resizedTo cv2 img newW newH) padY padX = some canvas :=
    ⟨_, dif_pos fits⟩
  obtain ⟨canvas, drawn⟩ := pasted
  have size : canvas.h = mh.toNat ∧ canvas.w = mw.toNat := Image.paste_size drawn
  refine ⟨canvas, ?_, fits.2.2.1, fits.1, by omega, by omega, fun y x inside across => ?_⟩
  · simp only [letterbox]
    rw [if_neg (by omega), resized, Option.bind_some, drawn, Option.map_some]
  · exact Image.paste_at drawn (by omega) (by omega)

end VisionNx
