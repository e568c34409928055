import VisionNx.Agent.TrackUuids
import VisionNx.Client.Calls
import VisionNx.Cpp
import VisionNx.Library.TransitionRuns
import VisionNx.VideoFrame

/-! # The device agent

A `DeviceAgent` mirrors the settings of one camera, sends them to the worker when they
change, hands it the video frames and turns its replies into object metadata. -/

namespace VisionNx.Agent

open BinaryFloats Client Cpp

/-! ## Settings -/

/-- The members that mirror the camera's settings. -/
structure CameraSettings where
  modelPath : String := ""
  conf : Floating := float.round (3 / 10)
  iou : Floating := float.round (1 / 2)
  frameSkip : ℤ := 1
  trackMaxAge : ℤ := 90
  trackClassMatch : String := "vehicle_group"
  runtime : String := ""
  device : String := ""
  classes : List String := []
  classesSet : Bool := false
  roi : List (Floating × Floating) := []
  inclusiveMask : List (Floating × Floating) := []
  exclusiveMask : List (Floating × Floating) := []

/-- The members of `Engine` that its agents read. -/
structure EngineSettings where
  runtime : String
  device : String
  workerCount : ℤ := 1

/-- The locked part of `Engine::settingsReceived`, and whether it has changed anything. -/
def EngineSettings.receive (e : EngineSettings) (newRuntime newDevice : String) (newWorkerCount : ℤ) :
    EngineSettings × Bool :=
  let runtimeChanged := newRuntime ≠ "" ∧ newRuntime ≠ e.runtime
  let deviceChanged := newDevice ≠ "" ∧ newDevice ≠ e.device
  let countChanged := newWorkerCount ≠ e.workerCount
  ({ runtime := if runtimeChanged then newRuntime else e.runtime
     device := if deviceChanged then newDevice else e.device
     workerCount := newWorkerCount },
    decide (runtimeChanged ∨ deviceChanged ∨ countChanged))

def polygonToJsonArray (pts : List (Floating × Floating)) : Json :=
  .arr (pts.map fun p => .arr [jsonNumber p.1, jsonNumber p.2])

def firstSet (value fallback : String) : String := if value = "" then fallback else value

/-- The object that `sendConfigToWorker` builds. -/
def configExtra (c : CameraSettings) (e : EngineSettings) : List (String × Json) :=
  [("model_path", .str c.modelPath), ("conf", jsonNumber c.conf), ("iou", jsonNumber c.iou),
    ("frame_skip", .num c.frameSkip),
    ("runtime", .str (firstSet (firstSet c.runtime e.runtime) "onnx")),
    ("device", .str (firstSet (firstSet c.device e.device) "cpu")),
    ("worker_count", .num e.workerCount), ("track_max_age", .num c.trackMaxAge),
    ("track_class_match", .str c.trackClassMatch)] ++
  (if c.classesSet then [("classes", .arr (c.classes.map .str))] else []) ++
  (if c.roi.isEmpty then [] else [("roi", polygonToJsonArray c.roi)]) ++
  (if c.inclusiveMask.isEmpty then [] else [("inclusive_mask", polygonToJsonArray c.inclusiveMask)]) ++
  (if c.exclusiveMask.isEmpty then [] else [("exclusive_mask", polygonToJsonArray c.exclusiveMask)])

/-! ## Metadata -/

structure Rect where
  x : ℚ
  y : ℚ
  width : ℚ
  height : ℚ

/-- An object as it is pushed; its type follows from the class. -/
structure ObjectMetadata (U : Type) where
  clsId : ℤ
  trackId : U
  boundingBox : Rect

structure ObjectMetadataPacket (U : Type) where
  timestampUs : ℤ
  items : List (ObjectMetadata U)

/-- `static_cast<int>` of a double.  What no `int` holds comes out as the smallest one. -/
def castInt (x : ℚ) : ℤ :=
  if -2 ^ 31 ≤ Python.toInt x ∧ Python.toInt x < 2 ^ 31 then Python.toInt x else -2 ^ 31

/-- The track id of a box, if it has a valid one. -/
def boxTrackId (box : Json) : Option ℤ :=
  match box.get "track_id" with
  | .num x => if 0 < castInt x then some (castInt x) else none
  | _ => none

def boxClsId (box : Json) : ℤ :=
  match box.get "cls" with
  | .num x => castInt x
  | _ => 0

variable {U : Type}

/-- One round of the loop over the boxes: the object, with the track id that its UUID was
    resolved for. -/
def emitBox (random : ℕ → U) (box : Json) (c : TrackUuids U) :
    Option (ObjectMetadata U × Option ℤ) × TrackUuids U :=
  match box.get "xyxy" with
  | .arr [x1, y1, x2, y2] =>
    let tid := boxTrackId box
    let (uuid, c) := match tid with
      | some tid =>
        let (resolved, c) := resolveTrackUuid trackUuidCap random tid c
        (resolved.1, c)
      -- A box without a valid id gets a UUID of its own.
      | none => c.randomUuid random
    let bbox : Rect := {
      x := x1.numberValue
      y := y1.numberValue
      width := x2.numberValue - x1.numberValue
      height := y2.numberValue - y1.numberValue }
    (some (⟨boxClsId box, uuid, bbox⟩, tid), c)
  | _ => (none, c)

def emitBoxes (random : ℕ → U) : List Json → TrackUuids U → List (ObjectMetadata U × Option ℤ) × TrackUuids U
  | [], c => ([], c)
  | box :: boxes, c =>
    let (object, c) := emitBox random box c
    let (objects, c) := emitBoxes random boxes c
    (object.toList ++ objects, c)

/-! ## The agent -/

/-- An object that has been pushed: the track id that its UUID was resolved for, and the
    connection whose worker state had stamped it. -/
structure Shown (U : Type) where
  uuid : U
  tid : Option ℤ
  connection : Option ℕ
  deriving DecidableEq

/-- `shown` is only a record. -/
structure DeviceAgent (U : Type) where
  camera : CameraSettings := {}
  engine : EngineSettings
  settingsCount : ℕ := 0
  frameCount : ℤ := 0
  trackUuids : TrackUuids U := {}
  packets : List (ObjectMetadataPacket U) := []
  shown : List (Shown U) := []
  world : World

def connection (w : World) : Option ℕ := (w.fd.bind w.find).bind (·.connection)

def DeviceAgent.extra (a : DeviceAgent U) : List (String × Json) := configExtra a.camera a.engine

def DeviceAgent.create (ctx : Context) (engine : EngineSettings) (w : World) : DeviceAgent U :=
  { engine, world := (sendAttach ctx w).2 }

def sendConfigToWorker (ctx : Context) (a : DeviceAgent U) : DeviceAgent U :=
  { a with world := (sendConfig ctx a.extra a.world).2 }

def onEngineConfigChanged (ctx : Context) (a : DeviceAgent U) : DeviceAgent U := sendConfigToWorker ctx a

/-- `settingsReceived` with the values that it has parsed. -/
def settingsReceived (ctx : Context) (parsed : CameraSettings) (a : DeviceAgent U) : DeviceAgent U :=
  sendConfigToWorker ctx { a with settingsCount := a.settingsCount + 1, camera := parsed }

/-- `Engine::settingsReceived` with this agent as the only one registered. -/
def engineSettingsReceived (ctx : Context) (newRuntime newDevice : String) (newWorkerCount : ℤ)
    (a : DeviceAgent U) : DeviceAgent U :=
  let (engine, changed) := a.engine.receive newRuntime newDevice newWorkerCount
  if changed then onEngineConfigChanged ctx { a with engine } else a

/-- The message that a frame is sent as, unless it is skipped or fails a check. -/
def DeviceAgent.frameMessage (a : DeviceAgent U) (frame : VideoFrame) : Option ClientMessage :=
  -- Only every `frameSkip`-th frame is sent.
  if 1 < a.camera.frameSkip ∧ a.frameCount.tmod a.camera.frameSkip ≠ 0 then none
  else VisionNx.frameMessage a.frameCount frame

/-- The part of `pushUncompressedVideoFrame` that turns a reply into a packet. -/
def pushMetadata (random : ℕ → U) (timestampUs : ℤ) (result : Option Json) (a : DeviceAgent U) : DeviceAgent U :=
  match result.map (Json.get "boxes") with
  | some (.arr boxes) =>
    let emitted := emitBoxes random boxes a.trackUuids
    let a := { a with trackUuids := emitted.2 }
    -- An empty packet is not pushed.
    if emitted.1.isEmpty then a
    else
      { a with
        packets := a.packets ++ [⟨timestampUs, emitted.1.map Prod.fst⟩]
        shown := a.shown ++ emitted.1.map fun object => ⟨object.1.trackId, object.2, connection a.world⟩ }
  | _ => a

def pushUncompressedVideoFrame (ctx : Context) (random : ℕ → U) (frame : VideoFrame) (a : DeviceAgent U) :
    DeviceAgent U :=
  let a := { a with frameCount := a.frameCount + 1 }
  match a.frameMessage frame with
  | none => a
  | some m =>
    let (result, world) := perform ctx m a.world
    pushMetadata random frame.timestampUs.toInt result { a with world }

/-! ## Runs -/

/-- The calls that the server and the engine make, each of which is atomic here. -/
inductive Call where
  | settingsReceived (parsed : CameraSettings)
  | engineSettingsReceived (newRuntime newDevice : String) (newWorkerCount : ℤ)
  | onEngineConfigChanged
  | pushUncompressedVideoFrame (frame : VideoFrame)

def DeviceAgent.call (ctx : Context) (random : ℕ → U) (a : DeviceAgent U) : Call → DeviceAgent U
  | .settingsReceived parsed => settingsReceived ctx parsed a
  | .engineSettingsReceived newRuntime newDevice newWorkerCount =>
    engineSettingsReceived ctx newRuntime newDevice newWorkerCount a
  | .onEngineConfigChanged => onEngineConfigChanged ctx a
  | .pushUncompressedVideoFrame frame => pushUncompressedVideoFrame ctx random frame a

/-- The calls as steps of a transition system. -/
def Calls (ctx : Context) (random : ℕ → U) (a : DeviceAgent U) (call : Call) (a' : DeviceAgent U) : Prop :=
  a' = a.call ctx random call

/-! ## The client between calls -/

variable {ctx : Context} {random : ℕ → U}

/-- A frame that is sent has passed the checks. -/
theorem passed_of_sent {a : DeviceAgent U} {frame : VideoFrame} {m : ClientMessage}
    (is : a.frameMessage frame = some m) : ∃ bytes, Passed a.frameCount frame m bytes := by
  unfold DeviceAgent.frameMessage at is
  split at is
  · cases is
  · exact frameMessage_eq_some is

@[simp] theorem pushMetadata_world (timestampUs : ℤ) (result : Option Json) (a : DeviceAgent U) :
    (pushMetadata random timestampUs result a).world = a.world := by
  unfold pushMetadata
  split
  · simp only
    split <;> rfl
  · rfl

theorem sound_sendConfig {w : World} (sound : w.Sound) (extra : List (String × Json)) :
    (sendConfig ctx extra w).2.Sound :=
  sound_perform sound (rfl : perform ctx (.config extra) w = (none, _))

theorem sound_call {a : DeviceAgent U} (sound : a.world.Sound) (call : Call) :
    (a.call ctx random call).world.Sound := by
  cases call with
  | settingsReceived parsed => exact sound_sendConfig sound _
  | onEngineConfigChanged => exact sound_sendConfig sound _
  | engineSettingsReceived newRuntime newDevice newWorkerCount =>
    simp only [DeviceAgent.call, engineSettingsReceived]
    split
    · exact sound_sendConfig sound _
    · exact sound
  | pushUncompressedVideoFrame frame =>
    simp only [DeviceAgent.call, pushUncompressedVideoFrame]
    split
    · exact sound
    · rw [pushMetadata_world]
      exact sound_perform sound rfl

theorem sound_create (engine : EngineSettings) (clock : ℕ) (script : List (ℕ × Outcome)) :
    (DeviceAgent.create ctx engine { clock, script } : DeviceAgent U).world.Sound :=
  sound_perform (sound_start clock script) (rfl : perform ctx .attach _ = (none, _))

end VisionNx.Agent
