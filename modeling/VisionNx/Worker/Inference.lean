import VisionNx.Worker.ServeContract

/-! # What the model is given and what comes of it

The frame branch of `serve` read in two steps: the image that is handed to the adapter,
and what happens to the boxes that it returns. -/

namespace VisionNx.Worker

open Tracker ByteTrackLite

variable {A : Type} {env : Env A} {b : Behaviour A} {s : ServeState A} {hdr : FrameHeader}
  {body : List UInt8} {adapter : A}

/-- The adapter that is called for a frame, with what is cut out of the frame for it; `none` if
    none is called. -/
def inferInput (env : Env A) (s : ServeState A) (hdr : FrameHeader) (body : List UInt8) : Option (A × Crop) :=
  if s.classFilterIds = some [] then none
  else
    match s.adapter with
    | none => none
    | some adapter =>
      if env.hasSession adapter then
        (decodeRgbBody body hdr.w hdr.h hdr.stride).map fun img =>
          (adapter, cropToRoi img s.roiNorm hdr.w hdr.h)
      else none

/-- `all_boxes` with the coordinates of the frame. -/
def allBoxes (b : Behaviour A) (s : ServeState A) (hdr : FrameHeader) (given : A × Crop) : Option (List Box) :=
  (b.infer given.1 given.2.img s.confThr s.iouThr s.classFilterIds).map fun boxes =>
    boxes.map fun box => { box with xyxy := given.2.remap hdr.w hdr.h box.xyxy }

theorem maybeInfer_eq (env : Env A) (b : Behaviour A) (s : ServeState A) (hdr : FrameHeader)
    (body : List UInt8) :
    maybeInfer env b s hdr body =
      match (inferInput env s hdr body).bind (allBoxes b s hdr) with
      | none => { state := s }
      | some boxes => FrameProgress.tick {
          state := (applyMasks env s hdr.w hdr.h boxes).2
          boxes := (applyMasks env s hdr.w hdr.h boxes).1
          inferMs := b.inferMs } := by
  unfold maybeInfer inferInput
  split
  · rfl
  cases s.adapter with
  | none => rfl
  | some adapter =>
    simp only
    split
    · unfold tryInfer
      cases decodeRgbBody body hdr.w hdr.h hdr.stride with
      | none => rfl
      | some img =>
        simp only [Option.map_some, Option.bind_some, allBoxes]
        cases b.infer adapter (cropToRoi img s.roiNorm hdr.w hdr.h).img s.confThr s.iouThr
          s.classFilterIds with
        | none => rfl
        | some boxes => rfl
    · rfl

theorem inferInput_adapter {given : A × Crop} (called : inferInput env s hdr body = some given) :
    s.adapter = some given.1 := by
  simp only [inferInput] at called
  split at called
  · cases called
  split at called
  · cases called
  next adapter present =>
    split at called
    · obtain ⟨img, -, rfl⟩ := Option.map_eq_some_iff.mp called
      exact present
    · cases called

theorem applyMasks_subset (env : Env A) (s : ServeState A) (w h : ℤ) (boxes : List Box) :
    (applyMasks env s w h boxes).1 ⊆ boxes := by
  simp only [applyMasks]
  split
  · simp only [filterBoxesByRegions]
    split
    · exact List.Subset.refl boxes
    · exact List.filter_subset_self boxes
  · exact List.Subset.refl boxes

/-! ## What a frame may change -/

theorem applyMasks_keeps (env : Env A) (s : ServeState A) (w h : ℤ) (boxes : List Box) :
    ∃ cache, (applyMasks env s w h boxes).2 = { s with polyPxCache := cache } ∧
      ∀ entry ∈ cache, entry ∈ s.polyPxCache ∨ entry = ((w, h), polyPx s w h) := by
  simp only [applyMasks]
  split
  · refine ⟨_, rfl, fun entry mem => ?_⟩
    split at mem
    · exact .inl mem
    · simpa using mem
  · exact ⟨s.polyPxCache, rfl, fun entry mem => .inl mem⟩

theorem tick_keeps (p : FrameProgress A) :
    ∃ tracker, p.tick.state = { p.state with tracker := tracker } ∧
      tracker.isSome = p.state.tracker.isSome := by
  cases tracked : p.state.tracker with
  | none => exact ⟨p.state.tracker, by rw [tick_none tracked], by rw [tracked]⟩
  | some t => exact ⟨some (t.update p.boxes).1, by rw [tick_some tracked], rfl⟩

/-- A frame only touches the pixel polygons, to which it adds those of its own size, and the
    tracker. -/
theorem handleFrame_keeps (env : Env A) (b : Behaviour A) (s : ServeState A) (hdr : FrameHeader)
    (body : List UInt8) :
    ∃ cache tracker, (handleFrame env b s hdr body).1 = { s with polyPxCache := cache, tracker := tracker } ∧
      (∀ entry ∈ cache, entry ∈ s.polyPxCache ∨ entry = ((hdr.w, hdr.h), polyPx s hdr.w hdr.h)) ∧
      tracker.isSome = s.tracker.isSome := by
  have inferred : ∃ cache tracker, (maybeInfer env b s hdr body).state =
      { s with polyPxCache := cache, tracker := tracker } ∧
      (∀ entry ∈ cache, entry ∈ s.polyPxCache ∨ entry = ((hdr.w, hdr.h), polyPx s hdr.w hdr.h)) ∧
      tracker.isSome = s.tracker.isSome := by
    rw [maybeInfer_eq]
    cases (inferInput env s hdr body).bind (allBoxes b s hdr) with
    | none => exact ⟨s.polyPxCache, s.tracker, rfl, fun _ mem => .inl mem, rfl⟩
    | some boxes =>
      obtain ⟨cache, masked, own⟩ := applyMasks_keeps env s hdr.w hdr.h boxes
      obtain ⟨tracker, ticked, kept⟩ := tick_keeps (FrameProgress.mk (applyMasks env s hdr.w hdr.h boxes).2
        (applyMasks env s hdr.w hdr.h boxes).1 b.inferMs false [])
      simp only [masked] at kept
      exact ⟨cache, tracker, ticked.trans (by simp only [masked]), own, kept⟩
  obtain ⟨cache, tracker, same, own, kept⟩ := inferred
  simp only [handleFrame]
  split
  · exact ⟨cache, tracker, same, own, kept⟩
  · obtain ⟨tracker', ticked, kept'⟩ := tick_keeps (maybeInfer env b s hdr body)
    rw [same] at kept'
    exact ⟨cache, tracker', by rw [ticked, same], own, kept'.trans kept⟩

/-! ## What a frame gives -/

/-- The boxes that the tracker is updated with. -/
def maskedBoxes (env : Env A) (b : Behaviour A) (s : ServeState A) (hdr : FrameHeader) (body : List UInt8) : List Box :=
  match (inferInput env s hdr body).bind (allBoxes b s hdr) with
  | none => []
  | some boxes => (applyMasks env s hdr.w hdr.h boxes).1

/-- With a tracker, a frame is answered with the boxes that it stamps, and ticks it once. -/
theorem handleFrame_effects {t : ByteTrackLite} (tracked : s.tracker = some t) :
    ∃ inferMs, (handleFrame env b s hdr body).2 = {
      replies := [{
        cameraUuid := s.cam
        id := hdr.id
        boxes := (t.update (maskedBoxes env b s hdr body)).2
        inferMs := inferMs
        runtime := s.currentRuntime
        device := s.currentDevice }]
      updates := [maskedBoxes env b s hdr body] } := by
  simp only [handleFrame, maskedBoxes, maybeInfer_eq]
  cases (inferInput env s hdr body).bind (allBoxes b s hdr) with
  | none =>
    simp only [Bool.false_eq_true, if_false, FrameProgress.tick, tracked]
    exact ⟨_, rfl⟩
  | some boxes =>
    obtain ⟨cache, same, -⟩ := applyMasks_keeps env s hdr.w hdr.h boxes
    simp only [FrameProgress.tick, same, tracked, if_true]
    exact ⟨_, rfl⟩

/-! ## Frames that are not inferred -/

/-- A class filter that passes nothing spares the call of the adapter. -/
theorem inferInput_of_empty (empty : s.classFilterIds = some []) (hdr : FrameHeader) (body : List UInt8) :
    inferInput env s hdr body = none := if_pos empty

theorem maskedBoxes_of_uncalled (uncalled : inferInput env s hdr body = none) :
    maskedBoxes env b s hdr body = [] := by
  rw [maskedBoxes, uncalled, Option.bind_none]

/-- Without a call it makes no difference what the adapter would do. -/
theorem handleFrame_of_uncalled {b' : Behaviour A} (uncalled : inferInput env s hdr body = none) :
    handleFrame env b s hdr body = handleFrame env b' s hdr body := by
  simp only [handleFrame, maybeInfer_eq, uncalled, Option.bind_none]

end VisionNx.Worker
