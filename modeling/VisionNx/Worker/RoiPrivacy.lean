import VisionNx.Worker.LastConfig

/-! # The model only sees the region of interest

Two histories of a connection whose frames differ only in bytes that `_crop_to_roi`
leaves out, or in the padding of the rows, give the adapter the same images and the
client the same replies. -/

namespace VisionNx.Worker

open Tracker

/-! ## Pixels -/

theorem pixels_at {bytes : List UInt8} {x : ℕ} {p : Rgb} :
    (pixels bytes)[x]? = some p ↔
      bytes[3 * x]? = some p.r ∧ bytes[3 * x + 1]? = some p.g ∧ bytes[3 * x + 2]? = some p.b := by
  obtain ⟨r, g, b⟩ := p
  induction bytes using pixels.induct generalizing x with
  | case1 r' g' b' rest ih =>
    cases x with
    | zero => simp [pixels]
    | succ x => simp [pixels, ih, show 3 * (x + 1) = 3 * x + 3 by ring]
  | case2 bytes short =>
    -- Fewer than three bytes are left, which are no pixel.
    obtain _ | ⟨r', _ | ⟨g', _ | ⟨b', rest⟩⟩⟩ := bytes
    · simp [pixels]
    · simp [pixels]
    · simp [pixels]
    · exact absurd rfl (short r' g' b' rest)

theorem keptColumns_le (w : ℤ) (stride : ℕ) : keptColumns w stride ≤ stride := by
  unfold keptColumns
  split <;> omega

theorem decoded_size {body : List UInt8} {w h stride : ℤ} {img : Image}
    (decoded : decodeRgbBody body w h stride = some img) :
    (body.length : ℤ) = h * stride ∧ img.h = h.toNat ∧ img.w = keptColumns w stride.toNat / 3 := by
  simp only [decodeRgbBody] at decoded
  split at decoded
  next size =>
    cases decoded
    exact ⟨size.2.2.1, rfl, rfl⟩
  next => cases decoded

/-- Whether a body is decoded depends on its length only. -/
theorem decoded_of_length {body body' : List UInt8} {w h stride : ℤ} {img : Image}
    (decoded : decodeRgbBody body w h stride = some img) (length : body'.length = body.length) :
    ∃ img', decodeRgbBody body' w h stride = some img' := by
  simp only [decodeRgbBody] at decoded
  split at decoded
  next size =>
    refine ⟨_, dif_pos ?_⟩
    rw [length]
    exact size
  next => cases decoded

/-- Pixel `(y, x)` of a frame, packed or padded, is made of the bytes from
    `y * stride + 3 * x` on. -/
theorem decoded_at {body : List UInt8} {w h stride : ℤ} {img : Image}
    (decoded : decodeRgbBody body w h stride = some img) {y x : ℕ} (hy : y < img.h) (hx : x < img.w)
    {p : Rgb} :
    img.at? y x = some p ↔
      body[y * stride.toNat + 3 * x]? = some p.r ∧ body[y * stride.toNat + 3 * x + 1]? = some p.g ∧
        body[y * stride.toNat + 3 * x + 2]? = some p.b := by
  obtain ⟨-, height, width⟩ := decoded_size decoded
  have kept := keptColumns_le w stride.toNat
  simp only [decodeRgbBody] at decoded
  split at decoded
  next =>
    cases decoded
    rw [height] at hy
    rw [width] at hx
    have row : ∀ c < keptColumns w stride.toNat,
        (((body.drop (y * stride.toNat)).take stride.toNat).take (keptColumns w stride.toNat))[c]? =
          body[y * stride.toNat + c]? := by
      intro c hc
      rw [List.getElem?_take, if_pos hc, List.getElem?_take, if_pos (by omega), List.getElem?_drop]
    simp only [Image.at?, List.getElem?_map, List.getElem?_range hy, Option.map_some, Option.bind_eq_bind,
      Option.bind_some, pixels_at]
    rw [row _ (by omega), row _ (by omega), row _ (by omega)]
    rfl
  next => cases decoded

/-! ## What is cut out -/

variable {img img' : Image} {roi : Option (List (List ℚ))} {w h : ℤ}

theorem crop_rect (height : img'.h = img.h) (width : img'.w = img.w) :
    ∃ picture, cropToRoi img' roi w h = { cropToRoi img roi w h with img := picture } ∧
      picture.h = (cropToRoi img roi w h).img.h ∧ picture.w = (cropToRoi img roi w h).img.w := by
  obtain whole | ⟨y1, y2, x1, x2, -, -, -, -, part⟩ := cropToRoi_cases roi w h
  · exact ⟨img', by rw [whole, whole], by rw [whole, height], by rw [whole, width]⟩
  · exact ⟨img'.slice y1 y2 x1 x2, by rw [part, part], by rw [part]; simp only [Image.slice, height],
      by rw [part]; simp only [Image.slice, width]⟩

theorem crop_nonneg (img : Image) (roi : Option (List (List ℚ))) (w h : ℤ) :
    0 ≤ (cropToRoi img roi w h).y1 ∧ 0 ≤ (cropToRoi img roi w h).x1 := by
  obtain whole | ⟨y1, y2, x1, x2, -, -, -, -, part⟩ := cropToRoi_cases roi w h
  · rw [whole]
    exact ⟨le_rfl, le_rfl⟩
  · rw [part]
    exact ⟨Int.natCast_nonneg _, Int.natCast_nonneg _⟩

/-- A frame of which only the size is known. -/
def blank (hdr : FrameHeader) : Image :=
  Image.full hdr.h.toNat (keptColumns hdr.w hdr.stride.toNat / 3) ⟨0, 0, 0⟩

/-- Column `c` of row `r` of a body is in the rectangle that `_crop_to_roi` cuts out of the
    frame; the padding is in none. -/
def InCrop (roi : Option (List (List ℚ))) (hdr : FrameHeader) (r c : ℕ) : Prop :=
  let crop := cropToRoi (blank hdr) roi hdr.w hdr.h
  crop.y1 ≤ r ∧ r < crop.y1 + crop.img.h ∧ 3 * crop.x1 ≤ c ∧ c < 3 * (crop.x1 + crop.img.w)

/-- The rectangle has the size that `_crop_to_roi` returns. -/
theorem inCrop_iff {hdr : FrameHeader} (w_nonneg : 0 ≤ hdr.w) (h_nonneg : 0 ≤ hdr.h)
    (stride : 3 * hdr.w ≤ hdr.stride) (r c : ℕ) :
    let crop := cropToRoi (blank hdr) roi hdr.w hdr.h
    InCrop roi hdr r c ↔
      crop.y1 ≤ r ∧ r < crop.y1 + crop.h ∧ 3 * crop.x1 ≤ c ∧ c < 3 * (crop.x1 + crop.w) := by
  have columns : (keptColumns hdr.w hdr.stride.toNat / 3 : ℕ) = hdr.w := by
    rw [keptColumns, if_neg (by omega)]
    omega
  have height : ((cropToRoi (blank hdr) roi hdr.w hdr.h).img.h : ℤ) = (cropToRoi (blank hdr) roi hdr.w hdr.h).h := by
    obtain whole | ⟨y1, y2, x1, x2, _, _, _, _, part⟩ := cropToRoi_cases roi hdr.w hdr.h
    · rw [whole]
      exact Int.toNat_of_nonneg h_nonneg
    · rw [part]
      simp only [Image.slice, blank, Image.full]
      omega
  have width : ((cropToRoi (blank hdr) roi hdr.w hdr.h).img.w : ℤ) = (cropToRoi (blank hdr) roi hdr.w hdr.h).w := by
    obtain whole | ⟨y1, y2, x1, x2, _, _, _, _, part⟩ := cropToRoi_cases roi hdr.w hdr.h
    · rw [whole]
      exact columns
    · rw [part]
      simp only [Image.slice, blank, Image.full]
      omega
  simp only [InCrop, height, width]

/-! ## Two frames -/

/-- Two bodies of frames with one header that have the same bytes in the rectangle. -/
structure AgreeIn (roi : Option (List (List ℚ))) (hdr : FrameHeader) (body body' : List UInt8) : Prop where
  length : body'.length = body.length
  inside : ∀ r c, InCrop roi hdr r c →
    body[r * hdr.stride.toNat + c]? = body'[r * hdr.stride.toNat + c]?

theorem cropped_same {hdr : FrameHeader} {body body' : List UInt8}
    (decoded : decodeRgbBody body hdr.w hdr.h hdr.stride = some img)
    (decoded' : decodeRgbBody body' hdr.w hdr.h hdr.stride = some img') (agree : AgreeIn roi hdr body body') :
    cropToRoi img' roi hdr.w hdr.h = cropToRoi img roi hdr.w hdr.h := by
  obtain ⟨-, height, width⟩ := decoded_size decoded
  obtain ⟨-, height', width'⟩ := decoded_size decoded'
  obtain ⟨picture, same, picture_h, picture_w⟩ :=
    @crop_rect img img' roi hdr.w hdr.h (height'.trans height.symm) (width'.trans width.symm)
  obtain ⟨_, same_blank, blank_h, blank_w⟩ :=
    @crop_rect img (blank hdr) roi hdr.w hdr.h height.symm width.symm
  obtain ⟨y1_nonneg, x1_nonneg⟩ := crop_nonneg img roi hdr.w hdr.h
  have pictures : picture = (cropToRoi img roi hdr.w hdr.h).img := by
    apply Image.ext_at picture_h picture_w
    intro y x hy hx
    have at_picture := @crop_at img' roi hdr.w hdr.h y x (by rw [same]; exact hy) (by rw [same]; exact hx)
    rw [same] at at_picture
    obtain ⟨row, column, at_img⟩ := @crop_at img roi hdr.w hdr.h y x (picture_h ▸ hy) (picture_w ▸ hx)
    rw [at_img, at_picture.2.2]
    obtain ⟨p, at_pixel⟩ := Image.exists_at img row column
    have bytes := (decoded_at decoded row column).mp at_pixel
    -- All three bytes of the pixel are in the rectangle.
    have seen : ∀ k < 3, InCrop roi hdr ((cropToRoi img roi hdr.w hdr.h).y1.toNat + y)
        (3 * ((cropToRoi img roi hdr.w hdr.h).x1.toNat + x) + k) := by
      intro k hk
      simp only [InCrop, same_blank, blank_h, blank_w]
      omega
    rw [at_pixel]
    apply (decoded_at decoded' at_picture.1 at_picture.2.1).mpr
    have red := agree.inside _ _ (seen 0 (by omega))
    have green := agree.inside _ _ (seen 1 (by omega))
    have blue := agree.inside _ _ (seen 2 (by omega))
    simp only [Nat.add_zero, ← Nat.add_assoc] at red green blue
    rw [← red, ← green, ← blue]
    exact bytes
  rw [same, pictures]

/-- The adapter is given the same for both frames. -/
theorem inferInput_same {A : Type} (env : Env A) {s : ServeState A} {hdr : FrameHeader}
    {body body' : List UInt8} (agree : AgreeIn s.roiNorm hdr body body') :
    inferInput env s hdr body' = inferInput env s hdr body := by
  have decoded : (decodeRgbBody body' hdr.w hdr.h hdr.stride).map (cropToRoi · s.roiNorm hdr.w hdr.h) =
      (decodeRgbBody body hdr.w hdr.h hdr.stride).map (cropToRoi · s.roiNorm hdr.w hdr.h) := by
    cases first : decodeRgbBody body hdr.w hdr.h hdr.stride with
    | some img =>
      obtain ⟨img', second⟩ := decoded_of_length first agree.length
      rw [second, Option.map_some, Option.map_some, cropped_same first second agree]
    | none =>
      cases second : decodeRgbBody body' hdr.w hdr.h hdr.stride with
      | none => rfl
      | some img' =>
        obtain ⟨img, again⟩ := decoded_of_length second agree.length.symm
        rw [first] at again
        cases again
  have paired := fun adapter : A => congrArg (Option.map (Prod.mk adapter)) decoded
  simp only [Option.map_map, Function.comp_def] at paired
  simp only [inferInput, paired]

/-! ## Two histories -/

variable {A : Type}

/-- Third-party code that answers the same, maybe at another pace. -/
def SameAnswers (b b' : Behaviour A) : Prop := ∃ inferMs, b' = { b with inferMs := inferMs }

/-- Two histories behind the messages `past` that are identical, but for the bytes of the
    frames outside the rectangle that the region then in force cuts out. -/
inductive Alike : List Incoming → List (Incoming × Behaviour A) → List (Incoming × Behaviour A) → Prop where
  | nil (past : List Incoming) : Alike past [] []
  | frame {past : List Incoming} {msg : List (String × Json)} {hdr : FrameHeader} {body body' : List UInt8}
      {b b' : Behaviour A} {events events' : List (Incoming × Behaviour A)} :
      AgreeIn (coercePoly (configured past "roi")) hdr body body' → SameAnswers b b' →
      Alike (past ++ [.frame msg hdr body]) events events' →
      Alike past ((.frame msg hdr body, b) :: events) ((.frame msg hdr body', b') :: events')
  | other {past : List Incoming} {m : Incoming} {b b' : Behaviour A}
      {events events' : List (Incoming × Behaviour A)} : m.frameId? = none → SameAnswers b b' → Alike (past ++ [m]) events events' →
      Alike past ((m, b) :: events) ((m, b') :: events')

def Reply.untimed (r : Reply) : Reply := { r with inferMs := 0 }

def Effects.untimed (e : Effects) : Effects := { e with replies := e.replies.map Reply.untimed }

/-- What the adapter is given for a message. -/
def given (env : Env A) (s : ServeState A) : Incoming → Option (A × Crop)
  | .frame _ hdr body => inferInput env s hdr body
  | _ => none

/-- What the adapter is given for each message of a run. -/
def modelInputs (env : Env A) (s : ServeState A) : List (Incoming × Behaviour A) → List (Option (A × Crop))
  | [] => []
  | (m, b) :: events =>
    match handle env b s m with
    | none => []
    | some (s', _) => given env s m :: modelInputs env s' events

variable {env : Env A} {b b' : Behaviour A} {s : ServeState A}

theorem handleFrame_same {hdr : FrameHeader} {body body' : List UInt8} (answers : SameAnswers b b')
    (same : inferInput env s hdr body' = inferInput env s hdr body) :
    (handleFrame env b' s hdr body').1 = (handleFrame env b s hdr body).1 ∧
      (handleFrame env b' s hdr body').2.untimed = (handleFrame env b s hdr body).2.untimed := by
  obtain ⟨inferMs, rfl⟩ := answers
  have boxes_same : allBoxes { b with inferMs := inferMs } s hdr = allBoxes b s hdr := rfl
  simp only [handleFrame, maybeInfer_eq, same, boxes_same]
  cases (inferInput env s hdr body).bind (allBoxes b s hdr) with
  | none => exact ⟨rfl, rfl⟩
  | some boxes =>
    -- The time is only copied into the reply.
    cases tracked : (applyMasks env s hdr.w hdr.h boxes).2.tracker with
    | none =>
      simp only [FrameProgress.tick, tracked, Bool.false_eq_true, if_false]
      exact ⟨trivial, rfl⟩
    | some t =>
      simp only [FrameProgress.tick, tracked, if_true]
      exact ⟨trivial, rfl⟩

theorem handle_same {m : Incoming} (answers : SameAnswers b b') (other : m.frameId? = none) :
    handle env b' s m = handle env b s m := by
  obtain ⟨inferMs, rfl⟩ := answers
  cases m with
  | garbled => rfl
  | message msg =>
    have swapped : ∀ s₁ newRuntime, swapAdapter { b with inferMs := inferMs } s₁ newRuntime =
        swapAdapter b s₁ newRuntime := fun s₁ newRuntime => by simp only [swapAdapter, makeAdapter]
    have loaded : ∀ s₁ newModel newDevice, loadModel env { b with inferMs := inferMs } s₁ newModel newDevice =
        loadModel env b s₁ newModel newDevice := fun s₁ newModel newDevice => by simp only [loadModel]
    simp only [handle, handleConfig, swapped, loaded]
  | frame msg hdr body => cases other

theorem alike_run {past : List Incoming} {events events' : List (Incoming × Behaviour A)}
    (alike : Alike past events events') (inForce : InForce past s) :
    modelInputs env s events' = modelInputs env s events ∧
      (run env s events').2.map Effects.untimed = (run env s events).2.map Effects.untimed := by
  induction alike generalizing s with
  | nil => exact ⟨rfl, rfl⟩
  | @frame past msg hdr body body' b b' events events' agree answers _ ih =>
    have same : ∀ cam, inferInput env { s with cam := cam } hdr body' =
        inferInput env { s with cam := cam } hdr body :=
      fun cam => inferInput_same env (s := { s with cam := cam }) (inForce.roi ▸ agree)
    obtain ⟨state, effects⟩ := @handleFrame_same A env b b' _ hdr body body' answers
      (same ((Json.lookup "camera_uuid" msg).getD s.cam))
    obtain ⟨inputs, replies⟩ := @ih (handleFrame env b
      { s with cam := (Json.lookup "camera_uuid" msg).getD s.cam } hdr body).1
      (inForce.step (e := (_, b)) ⟨_, rfl⟩)
    simp only [modelInputs, run, handle, state, given, List.map_cons, effects, inputs, replies]
    exact ⟨congrArg (· :: _) (same s.cam), trivial⟩
  | @other past m b b' events events' other answers _ ih =>
    simp only [modelInputs, run, handle_same answers other]
    cases handled : handle env b s m with
    | none => exact ⟨rfl, rfl⟩
    | some next =>
      obtain ⟨inputs, replies⟩ := @ih next.1 (inForce.step (e := (m, b)) ⟨next.2, handled⟩)
      simp only [List.map_cons, inputs, replies]
      exact ⟨trivial, trivial⟩

/-- The model only sees the region of interest.  Of two histories that differ in no byte of
    the rectangles cut out for inference, the adapter is given the same images and the
    replies are the same apart from `infer_ms`; and pixel `(y, x)` of such an image is made of
    the bytes of column `3 * (x1 + x)` on, in row `y1 + y`. -/
theorem roi_noninterference (env : Env A) {events events' : List (Incoming × Behaviour A)}
    (alike : Alike [] events events') :
    modelInputs env {} events' = modelInputs env {} events ∧
    (run env {} events').2.map Effects.untimed = (run env {} events).2.map Effects.untimed ∧
    ∀ (s : ServeState A) (hdr : FrameHeader) (body : List UInt8) (adapter : A) (crop : Crop),
      inferInput env s hdr body = some (adapter, crop) → ∀ y x, y < crop.img.h → x < crop.img.w →
        ∃ p, crop.img.at? y x = some p ∧
          let i := (crop.y1.toNat + y) * hdr.stride.toNat + 3 * (crop.x1.toNat + x)
          body[i]? = some p.r ∧ body[i + 1]? = some p.g ∧ body[i + 2]? = some p.b := by
  obtain ⟨inputs, replies⟩ := @alike_run _ env _ _ _ _ alike inForce_start
  refine ⟨inputs, replies, fun s hdr body adapter crop called y x hy hx => ?_⟩
  have cut : ∃ img, decodeRgbBody body hdr.w hdr.h hdr.stride = some img ∧
      cropToRoi img s.roiNorm hdr.w hdr.h = crop := by
    simp only [inferInput] at called
    split at called
    · cases called
    split at called
    · cases called
    split at called
    · obtain ⟨img, decoded, same⟩ := Option.map_eq_some_iff.mp called
      exact ⟨img, decoded, (Prod.mk.inj same).2⟩
    · cases called
  obtain ⟨img, decoded, rfl⟩ := cut
  obtain ⟨p, at_pixel⟩ := Image.exists_at _ hy hx
  obtain ⟨row, column, at_img⟩ := crop_at hy hx
  exact ⟨p, at_pixel, (decoded_at decoded row column).mp (at_img.symm.trans at_pixel)⟩

/-- A config that draws the left half of the frame. -/
def leftHalf : List (String × Json) :=
  [("type", .str "config"), ("model_path", .str "yolo26n.onnx"),
    ("roi", .arr [.arr [.num 0, .num 0], .arr [.num (1 / 2), .num 0], .arr [.num (1 / 2), .num 1],
      .arr [.num 0, .num 1]])]

/-- A frame of 16 × 8 pixels with two bytes of padding a row, grey on the left. -/
def halfGrey (right : UInt8) : Incoming :=
  .frame [] ⟨16, 8, 50, 1⟩ ((List.range 400).map fun i => if i % 50 < 24 then 90 else right)

/-- What the right half and the padding hold does not matter. -/
theorem roi_noninterference_left_half :
    (run loadedEnv {} [(.message leftHalf, carOrRaise true), (halfGrey 9, carOrRaise true)]).2.map
        Effects.untimed =
      (run loadedEnv {} [(.message leftHalf, carOrRaise true), (halfGrey 0, carOrRaise true)]).2.map
        Effects.untimed := by
  have same : SameAnswers (carOrRaise true) (carOrRaise true) := ⟨12, rfl⟩
  refine (roi_noninterference loadedEnv (.other rfl same (.frame ⟨by simp, ?_⟩ same (.nil _)))).2.1
  intro r c inside
  have right : 3 * ((cropToRoi (blank ⟨16, 8, 50, 1⟩) (coercePoly (configured ([] ++ [.message leftHalf]) "roi"))
      16 8).x1 + ((cropToRoi (blank ⟨16, 8, 50, 1⟩) (coercePoly (configured ([] ++ [.message leftHalf]) "roi"))
      16 8).img.w : ℤ)) = 24 := by decide +kernel
  have left : (c : ℤ) < 24 := right ▸ inside.2.2.2
  have column : c % 50 < 24 := by omega
  simp only [Int.reduceToNat, List.getElem?_map]
  cases inside' : (List.range 400)[r * 50 + c]? with
  | none => rfl
  | some i =>
    obtain rfl : r * 50 + c = i := by simpa using (List.getElem?_eq_some_iff.mp inside').2
    simp [column]

end VisionNx.Worker
