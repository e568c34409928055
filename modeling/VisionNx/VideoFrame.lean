import VisionNx.Wire

/-! # Video frames

What `pushUncompressedVideoFrame` reads of the frame that the server hands it, and the
checks that a frame has to pass before it is sent. -/

namespace VisionNx

/-- What is read of an `IUncompressedVideoFrame`. -/
structure VideoFrame where
  width : Int32
  height : Int32
  lineSize : Int32
  dataSize : Int32
  timestampUs : Int64
  /-- the bytes at `data(0)`, unless it is null -/
  data : Option (List UInt8)
  /-- There are as many as the SDK reports. -/
  readable : ∀ bytes, data = some bytes → bytes.length = dataSize.toInt.toNat

/-- The guards of `pushUncompressedVideoFrame`, and what it sends of a frame that passes
    them. -/
def frameMessage (frameId : ℤ) (f : VideoFrame) : Option ClientMessage :=
  match f.data with
  | none => none
  | some bytes =>
    if f.width ≤ 0 ∨ f.height ≤ 0 ∨ f.lineSize ≤ 0 ∨ f.dataSize ≤ 0 then none
    else some (.frame frameId f.timestampUs.toInt f.width.toInt f.height.toInt f.lineSize.toInt bytes)

/-- A frame that passes has bytes, as many as the SDK reports, and sides of at least a pixel. -/
structure Passed (frameId : ℤ) (f : VideoFrame) (m : ClientMessage) (body : List UInt8) : Prop where
  data : f.data = some body
  message : m = .frame frameId f.timestampUs.toInt f.width.toInt f.height.toInt f.lineSize.toInt body
  length : (body.length : ℤ) = f.dataSize.toInt
  dataSize : 0 < f.dataSize.toInt
  width : 0 < f.width.toInt
  height : 0 < f.height.toInt
  lineSize : 0 < f.lineSize.toInt

theorem frameMessage_eq_some {frameId : ℤ} {f : VideoFrame} {m : ClientMessage}
    (passes : frameMessage frameId f = some m) : ∃ body, Passed frameId f m body := by
  unfold frameMessage at passes
  split at passes
  · cases passes
  next body is_body =>
    split at passes
    · cases passes
    next guards =>
      simp only [not_or, Int32.not_le, Int32.lt_iff_toInt_lt, Int32.toInt_zero] at guards
      obtain ⟨width, height, lineSize, dataSize⟩ := guards
      have readable := f.readable body is_body
      exact ⟨body, is_body, (Option.some.inj passes).symm, by omega, dataSize, width, height, lineSize⟩

/-- Two pixels. -/
def smallVideoFrame : VideoFrame where
  width := 2
  height := 1
  lineSize := 6
  dataSize := 6
  timestampUs := 0
  data := some [10, 20, 30, 40, 50, 60]
  readable := by
    intro bytes same
    cases same
    rfl

end VisionNx
