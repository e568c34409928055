import VisionNx.Tracker.Basic
import VisionNx.Worker.Crop
import VisionNx.Worker.ReadLoop

/-! # The worker's connection loop

`serve` keeps one state per connection and branches on the type of each message.  What
happens outside the repository while a message is handled (importing an adapter,
loading a model, inference) is a `Behaviour` that comes with the message, so it may
differ from message to message.  The counters that only the log
reads are left out. -/

namespace VisionNx.Worker

open Python Tracker

/-! ## Third-party code -/

/-- What the adapters and `cv2` answer at any time. -/
structure Env (A : Type) where
  /-- `getattr(adapter, "session", None) is not None` -/
  hasSession : A → Bool
  /-- `cv2.pointPolygonTest(poly, p, False) >= 0` -/
  pointPolygonTest : List (ℤ × ℤ) → ℚ × ℚ → Bool

/-- What third-party code does while one message is handled; `none`, or `false` from
    `load`, is an exception. -/
structure Behaviour (A : Type) where
  /-- importing the module of a runtime and calling its class -/
  construct : String → Option A
  /-- `adapter.load(path, device_hint)`: the adapter it leaves, and whether it returned -/
  load : A → String → String → A × Bool
  infer : A → Image → ℚ → ℚ → Option (List ℕ) → Option (List Box)
  inferMs : ℚ

/-! ## State -/

structure ServeState (A : Type) where
  adapter : Option A := none
  currentRuntime : String := ""
  currentDevice : String := ""
  currentModel : String := ""
  confThr : ℚ := 3 / 10
  iouThr : ℚ := 9 / 20
  classFilterIds : Option (List ℕ) := none
  roiNorm : Option (List (List ℚ)) := none
  inclusiveNorm : Option (List (List ℚ)) := none
  exclusiveNorm : Option (List (List ℚ)) := none
  polyPxCache : List ((ℤ × ℤ) × (Option (List (ℤ × ℤ)) × Option (List (ℤ × ℤ)))) := []
  tracker : Option ByteTrackLite := none
  cam : Json := .str "?"

structure Reply where
  cameraUuid : Json
  id : ℤ
  boxes : List Box
  inferMs : ℚ
  runtime : String
  device : String

/-- What the outside sees of one message: the replies, and the box lists that
    `tracker.update` was called with. -/
structure Effects where
  replies : List Reply := []
  updates : List (List Box) := []

/-! ## Frame bodies -/

def pixels : List UInt8 → List Rgb
  | r :: g :: b :: rest => ⟨r, g, b⟩ :: pixels rest
  | _ => []

theorem length_pixels (bytes : List UInt8) : (pixels bytes).length = bytes.length / 3 := by
  induction bytes using pixels.induct with
  | case1 r g b rest ih => simp only [pixels, List.length_cons, ih]; omega
  | case2 bytes short =>
    match bytes with
    | [] => rfl
    | [_] | [_, _] => simp [pixels]
    | r :: g :: b :: rest => exact absurd rfl (short r g b rest)

/-- How many bytes of each row `full[:, : w * 3]` keeps. -/
def keptColumns (w : ℤ) (stride : ℕ) : ℕ :=
  if w < 0 then (stride + w * 3).toNat else min (w * 3).toNat stride

/-- `decode_rgb_body`.  The branch `stride == w * 3` is the case in which every column is
    kept.  A body of another size, two negative sides and a row that is not `w` pixels
    make `reshape` raise; a single negative `w` is inferred. -/
def decodeRgbBody (body : List UInt8) (w h stride : ℤ) : Option Image :=
  let cols := keptColumns w stride.toNat
  if size : 0 < h ∧ 0 < stride ∧ (body.length : ℤ) = h * stride ∧ cols % 3 = 0 ∧ (0 ≤ w → cols = w * 3) then
    some {
      h := h.toNat
      w := cols / 3
      rows := (List.range h.toNat).map fun y =>
        pixels (((body.drop (y * stride.toNat)).take stride.toNat).take cols)
      height := by simp
      width := by
        -- Every row is complete, so its slice has `cols` bytes.
        obtain ⟨h_pos, stride_pos, len, -, -⟩ := size
        lift h to ℕ using h_pos.le
        lift stride to ℕ using stride_pos.le
        intro row mem
        obtain ⟨y, inside, rfl⟩ := List.mem_map.mp mem
        have full : body.length - y * stride ≥ stride := by
          have : (y + 1) * stride ≤ h * stride := Nat.mul_le_mul_right _ (List.mem_range.mp inside)
          rw [Nat.succ_mul] at this
          have : body.length = h * stride := by exact_mod_cast len
          omega
        have fits : cols ≤ stride := by
          simp only [cols, keptColumns, Int.toNat_natCast]
          split <;> omega
        rw [length_pixels, List.length_take, List.length_take, List.length_drop, Int.toNat_natCast]
        congr 1
        omega }
  else none

/-! ## Configuration -/

/-- `msg.get(key) or default`, for a key whose value is used as a text.  A value of
    another type that is not falsy raises (in `.strip()`; a model path of another type,
    which no client sends, is refused here). -/
def textOr (msg : List (String × Json)) (key default : String) : Option String :=
  match Json.lookup key msg with
  | none | some .null | some (.bool false) | some (.arr []) | some (.obj []) => some default
  | some (.str s) => some (if s = "" then default else s)
  | some (.num x) => if x = 0 then some default else none
  | some _ => none

/-- `str(v)`.  The text of a number, a list or a dictionary is shortened; either way it is
    none that the worker compares with. -/
def pyStr : Json → String
  | .null => "None"
  | .bool b => if b then "True" else "False"
  | .num x => toString x
  | .str s => s
  | .arr _ => "["
  | .obj _ => "\x7b"

def coercePoint : Json → Option (List ℚ)
  | .arr (x :: y :: _) => do return [← x.toFloat?, ← y.toFloat?]
  | _ => none

/-- `_coerce_poly`. -/
def coercePoly : Option Json → Option (List (List ℚ))
  | some (.arr v) =>
    let pts := v.filterMap coercePoint
    if v.length < 3 ∨ pts.length < 3 then none else some pts
  | _ => none

def classFilter : Option Json → Option (List ℕ)
  | some (.arr names) => some (namesToIds (names.map pyStr))
  | _ => none

/-- `int(v) if v is not None else None`; the outer `none` is an exception. -/
def optInt : Option Json → Option (Option ℤ)
  | none | some .null => some none
  | some v => v.toInt?.map some

def optStr : Option Json → Option String
  | none | some .null => none
  | some v => some (pyStr v)

def adapterTable : List String := ["onnx", "openvino", "pytorch", "tensorrt"]

def makeAdapter {A : Type} (b : Behaviour A) (runtime : String) : Option A :=
  let key := lower (strip (if runtime = "" then "onnx" else runtime))
  if key ∈ adapterTable then b.construct key else none

variable {A : Type}

def swapAdapter (b : Behaviour A) (s : ServeState A) (newRuntime : String) : ServeState A :=
  if newRuntime ≠ s.currentRuntime ∨ s.adapter.isNone then
    match makeAdapter b newRuntime with
    | some adapter =>
      { s with adapter := some adapter, currentRuntime := newRuntime, currentDevice := "",
               currentModel := "" }
    -- The runtime is forgotten too, so the next config tries again.
    | none => { s with adapter := none, currentRuntime := "" }
  else s

def loadModel (env : Env A) (b : Behaviour A) (s : ServeState A) (newModel newDevice : String) :
    ServeState A :=
  match s.adapter with
  | none => s
  | some adapter =>
    if newModel ≠ "" ∧
        (newModel ≠ s.currentModel ∨ newDevice ≠ s.currentDevice ∨ env.hasSession adapter = false) then
      let (adapter', returned) := b.load adapter newModel newDevice
      if returned then
        { s with adapter := some adapter', currentModel := newModel, currentDevice := newDevice }
      -- Whatever the failed load has done to the adapter stays.
      else { s with adapter := some adapter' }
    else s

/-- The tracker after a config message: made on the first, told its parameters later. -/
def configTracker (tracker : Option ByteTrackLite) (maxAge : Option ℤ) (matchMode : Option String) :
    ByteTrackLite :=
  match tracker with
  | none =>
    ByteTrackLite.init ⟨3 / 10, by norm_num⟩ (maxAge.getD 90) (matchMode.getD "vehicle_group")
  | some t => t.setParams none maxAge matchMode

/-- The `config` branch; `none` is an exception. -/
def handleConfig (env : Env A) (b : Behaviour A) (s : ServeState A) (msg : List (String × Json)) :
    Option (ServeState A) := do
  let newRuntime := lower (strip (← textOr msg "runtime" "onnx"))
  let newDevice := lower (strip (← textOr msg "device" "cpu"))
  let newModel ← textOr msg "model_path" ""
  let confThr ← ((Json.lookup "conf" msg).getD (.num s.confThr)).toFloat?
  let iouThr ← ((Json.lookup "iou" msg).getD (.num s.iouThr)).toFloat?
  let maxAge ← optInt (Json.lookup "track_max_age" msg)
  let s := { s with
    confThr, iouThr
    classFilterIds := classFilter (Json.lookup "classes" msg)
    roiNorm := coercePoly (Json.lookup "roi" msg)
    inclusiveNorm := coercePoly (Json.lookup "inclusive_mask" msg)
    exclusiveNorm := coercePoly (Json.lookup "exclusive_mask" msg)
    polyPxCache := []
    tracker := some (configTracker s.tracker maxAge (optStr (Json.lookup "track_class_match" msg))) }
  return loadModel env b (swapAdapter b s newRuntime) newModel newDevice

/-! ## Frames -/

/-- The pixel polygons of a frame size, from the cache if they are there. -/
def polyPx (s : ServeState A) (w h : ℤ) : Option (List (ℤ × ℤ)) × Option (List (ℤ × ℤ)) :=
  match s.polyPxCache.find? fun entry => entry.1 == (w, h) with
  | some entry => entry.2
  | none => (normalizeToPixelPolygon s.inclusiveNorm w h, normalizeToPixelPolygon s.exclusiveNorm w h)

/-- The boxes that pass the masks, and the cache afterwards. -/
def applyMasks (env : Env A) (s : ServeState A) (w h : ℤ) (boxes : List Box) :
    List Box × ServeState A :=
  if s.inclusiveNorm.isSome || s.exclusiveNorm.isSome then
    let poly := polyPx s w h
    let cache := if s.polyPxCache.any fun entry => entry.1 == (w, h) then s.polyPxCache
      else s.polyPxCache ++ [((w, h), poly)]
    (filterBoxesByRegions env.pointPolygonTest Box.xyxy boxes w h none poly.1 poly.2,
      { s with polyPxCache := cache })
  else (boxes, s)

/-- What the frame branch has reached: the boxes, the time, whether the tracker has been
    ticked, and the ticks. -/
structure FrameProgress (A : Type) where
  state : ServeState A
  boxes : List Box := []
  inferMs : ℚ := 0
  trackerTicked : Bool := false
  updates : List (List Box) := []

/-- `tracker.update(boxes)`, which stamps the boxes in place, if there is a tracker. -/
def FrameProgress.tick (p : FrameProgress A) : FrameProgress A :=
  match p.state.tracker with
  | none => p
  | some t =>
    let (t', stamped) := t.update p.boxes
    { p with state := { p.state with tracker := some t' }, boxes := stamped, trackerTicked := true,
             updates := p.updates ++ [p.boxes] }

/-- The `try` block of the frame branch.  Whatever raises leaves what was reached before;
    after the tick only the log can raise, and it changes nothing. -/
def tryInfer (env : Env A) (b : Behaviour A) (s : ServeState A) (adapter : A) (hdr : FrameHeader)
    (body : List UInt8) : FrameProgress A :=
  match decodeRgbBody body hdr.w hdr.h hdr.stride with
  | none => { state := s }
  | some img =>
    let crop := cropToRoi img s.roiNorm hdr.w hdr.h
    match b.infer adapter crop.img s.confThr s.iouThr s.classFilterIds with
    | none => { state := s }
    | some allBoxes =>
      let remapped := allBoxes.map fun box => { box with xyxy := crop.remap hdr.w hdr.h box.xyxy }
      let (boxes, s) := applyMasks env s hdr.w hdr.h remapped
      FrameProgress.tick { state := s, boxes, inferMs := b.inferMs }

def maybeInfer (env : Env A) (b : Behaviour A) (s : ServeState A) (hdr : FrameHeader)
    (body : List UInt8) : FrameProgress A :=
  -- Every class is unchecked.
  if s.classFilterIds = some [] then { state := s }
  else
    match s.adapter with
    | some adapter => if env.hasSession adapter then tryInfer env b s adapter hdr body else { state := s }
    | none => { state := s }

def handleFrame (env : Env A) (b : Behaviour A) (s : ServeState A) (hdr : FrameHeader)
    (body : List UInt8) : ServeState A × Effects :=
  let p := maybeInfer env b s hdr body
  -- Age the tracker on frames that did not reach it.
  let p := if p.trackerTicked then p else p.tick
  let reply : Reply := {
    cameraUuid := p.state.cam
    id := hdr.id
    boxes := p.boxes
    inferMs := roundEven (p.inferMs * 100) / 100
    runtime := p.state.currentRuntime
    device := p.state.currentDevice }
  (p.state, { replies := [reply], updates := p.updates })

/-! ## The loop -/

/-- One message; `none` when the loop ends, on `detach` or by an exception. -/
def handle (env : Env A) (b : Behaviour A) (s : ServeState A) : Incoming → Option (ServeState A × Effects)
  | .garbled => some (s, {})
  | .message msg =>
    let s := { s with cam := (Json.lookup "camera_uuid" msg).getD s.cam }
    if typeIs "attach" msg then some (s, {})
    else if typeIs "detach" msg then none
    else if typeIs "config" msg then (handleConfig env b s msg).map fun s => (s, {})
    -- An unknown type is only logged.
    else some (s, {})
  | .frame msg hdr body =>
    some (handleFrame env b { s with cam := (Json.lookup "camera_uuid" msg).getD s.cam } hdr body)

/-- The state and the effects of each message, up to the one that ends the loop. -/
def run (env : Env A) (s : ServeState A) :
    List (Incoming × Behaviour A) → ServeState A × List Effects
  | [] => (s, [])
  | (m, b) :: events =>
    match handle env b s m with
    | none => (s, [])
    | some (s', effects) =>
      let rest := run env s' events
      (rest.1, effects :: rest.2)

end VisionNx.Worker
