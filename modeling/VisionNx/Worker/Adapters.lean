import VisionNx.Worker.Serve

/-! # The adapters

`adapter_onnx.py`, `adapter_openvino.py` and the two that wrap Ultralytics, with the
fields that `infer` reads.  `Runtimes` says what third-party code answers while one
message is handled; `none` or `false` is an exception.  A session carries the arguments
of the `load` that made it, which is only a record. -/

namespace VisionNx.Worker

open Python Tracker

/-! ## Third-party objects -/

/-- `onnxruntime.InferenceSession`: the names and shapes of its inputs, the shapes of its
    outputs, and `run(None, {name: tensor})[0]`. -/
structure OrtSession where
  inputs : List (String × List (Option ℤ))
  outputs : List (List (Option ℤ))
  run : String → Image → Option RawOutput

/-- What `read_model` returns; a dimension without a length is `none`. -/
structure OvModel where
  inputShape : List (Option ℤ)

/-- What `compile_model` returns, with its ports and `compiled([tensor])[port]`. -/
structure OvCompiled where
  input : ℕ
  output : ℕ
  outputShape : List (Option ℤ)
  run : ℕ → Image → Option RawOutput

/-- `ultralytics.YOLO`: `predict` with its thresholds, classes and device. -/
structure YoloModel where
  predict : Image → ℚ → ℚ → Option (List ℕ) → String → Option (List Candidate)

structure Runtimes where
  /-- importing the module of a runtime and calling its class -/
  construct : String → Bool
  pathExists : String → Bool
  inferenceSession : String → List String → Option OrtSession
  getInputs : Bool
  getOutputs : Bool
  getProviders : Bool
  core : Bool
  readModel : String → Option OvModel
  modelInput : Bool
  compileModel : OvModel → String → Option OvCompiled
  compiledInput : Bool
  compiledOutput : Bool
  outputShape : Bool
  importYolo : Bool
  /-- `YOLO(path, task)` -/
  yolo : String → Option String → Option YoloModel

/-- A value that comes out of a call, if it returns. -/
def answer {α : Type} (returns : Bool) (value : Option α) : Option α := if returns then value else none

/-! ## Inference -/

/-- The box dict of a detection.  The model is about class ids that fit an `int32`.  A wider one
    is refused here, where in `serve` it makes `tracker.update` raise, in the `try` and once
    more behind it, which ends the connection without a reply. -/
def Detection.toBox (d : Detection) : Option Box :=
  if -2 ^ 31 ≤ d.cls ∧ d.cls < 2 ^ 31 then
    some { xyxy := d.xyxy, score := d.score, cls := some (Int32.ofInt d.cls) }
  else none

/-- What the adapters do not do themselves: `cv2.resize` and `cv2.dnn.NMSBoxes`. -/
structure Cv2 where
  resizer : Resizer
  nmsBoxes : List (ℚ × ℚ × ℚ × ℚ) → List ℚ → ℚ → ℚ → List ℕ

/-- `infer` of the adapters that decode a raw tensor.  What the session gets is the canvas
    scaled to the unit interval. -/
def inferRaw (cv2 : Cv2) (run : Image → Option RawOutput) (modelH modelW : ℤ) (layout : Layout) (rgb : Image)
    (confThr iouThr : ℚ) (classFilter : Option (List ℕ)) : Option (List Box) := do
  let (canvas, ratio, padX, padY) ← letterbox cv2.resizer rgb (modelH, modelW)
  let out ← run canvas
  let detections ← decodeBoxes cv2.nmsBoxes out layout confThr iouThr classFilter rgb.w rgb.h ratio padX padY
  detections.mapM Detection.toBox

/-! ## ONNX Runtime -/

structure OnnxSession where
  path : String
  deviceHint : String
  ort : OrtSession

structure OnnxAdapter where
  session : Option OnnxSession := none
  inputName : String := ""
  modelH : ℤ := 0
  modelW : ℤ := 0
  layout : Layout := .yolov8

namespace OnnxAdapter

def providers (deviceHint : String) : List String :=
  let hint := lower (strip (if deviceHint = "" then "cpu" else deviceHint))
  if "cuda".toList.isPrefixOf hint.toList then ["CUDAExecutionProvider", "CPUExecutionProvider"]
  else ["CPUExecutionProvider"]

/-- The part of `load` that stores nothing: the session, the input's name and the sides of
    the model. -/
def checked (r : Runtimes) (path deviceHint : String) : Option (OnnxSession × String × ℤ × ℤ) := do
  let sess ← r.inferenceSession path (providers deviceHint)
  let inp ← answer r.getInputs sess.inputs.head?
  match inp.2 with
  | [_, _, some mh, some mw] => return (⟨path, deviceHint, sess⟩, inp.1, mh, mw)
  | _ => none

def store (a : OnnxAdapter) (session : OnnxSession) (inputName : String) (modelH modelW : ℤ) : OnnxAdapter :=
  { a with session := some session, inputName, modelH, modelW }

def load (r : Runtimes) (a : OnnxAdapter) (path deviceHint : String) : OnnxAdapter × Bool :=
  match checked r path deviceHint with
  | none => (a, false)
  | some (session, inputName, modelH, modelW) =>
    let a := a.store session inputName modelH modelW
    match answer r.getOutputs session.ort.outputs.head? with
    | none => (a, false)
    -- The log call asks the session for its providers.
    | some outShape => ({ a with layout := (detectLayout outShape).1 }, r.getProviders)

def infer (cv2 : Cv2) (a : OnnxAdapter) (rgb : Image) (confThr iouThr : ℚ) (classFilter : Option (List ℕ)) :
    Option (List Box) :=
  match a.session with
  | none => some []
  | some session =>
    inferRaw cv2 (session.ort.run a.inputName) a.modelH a.modelW a.layout rgb confThr iouThr classFilter

end OnnxAdapter

/-! ## OpenVINO -/

structure OpenvinoSession where
  path : String
  deviceHint : String
  model : OvModel
  compiled : OvCompiled

/-- `session` is the same object as `compiled`. -/
structure OpenvinoAdapter where
  core : Bool := false
  session : Option OpenvinoSession := none
  inputPort : Option ℕ := none
  outputPort : Option ℕ := none
  modelH : ℤ := 0
  modelW : ℤ := 0
  layout : Layout := .yolov8

namespace OpenvinoAdapter

def mapDevice (hint : String) : String :=
  let hint := lower (strip hint)
  if hint = "cpu" then "CPU"
  else if hint = "intel:gpu" then "GPU"
  else if hint = "intel:npu" then "NPU"
  else if hint = "auto" then "AUTO"
  else if hint = "" then "AUTO"
  else upper hint

/-- `_to_int`. -/
def dimOr (d : Option ℤ) (fallback : ℤ) : ℤ :=
  match d with
  | some v => if 0 < v then v else fallback
  | none => fallback

def inputSides (model : OvModel) : ℤ × ℤ :=
  match model.inputShape with
  | [_, _, h, w] => (dimOr h 640, dimOr w 640)
  | _ => (640, 640)

/-- The part of `load` between `ov.Core()` and the first of the fields below it. -/
def checked (r : Runtimes) (path deviceHint : String) : Option OpenvinoSession := do
  let model ← r.readModel path
  -- A device that does not compile falls back to `AUTO`.
  let compiled ← answer r.modelInput
    ((r.compileModel model (mapDevice deviceHint)).or (r.compileModel model "AUTO"))
  return ⟨path, deviceHint, model, compiled⟩

/-- The shape as `detect_layout` gets it. -/
def coerced (shape : List (Option ℤ)) : List (Option ℤ) :=
  shape.map fun d => d.bind fun v => if 0 < v then some v else none

def load (r : Runtimes) (a : OpenvinoAdapter) (path deviceHint : String) : OpenvinoAdapter × Bool :=
  if !r.pathExists path then (a, false)
  else if !(a.core || r.core) then (a, false)
  else
    let a := { a with core := true }
    match checked r path deviceHint with
    | none => (a, false)
    | some session =>
      let a := { a with session := some session }
      if !r.compiledInput then (a, false)
      else
        let a := { a with inputPort := some session.compiled.input }
        if !r.compiledOutput then (a, false)
        else
          let a := { a with
            outputPort := some session.compiled.output
            modelH := (inputSides session.model).1
            modelW := (inputSides session.model).2 }
          if !r.outputShape then (a, false)
          else ({ a with layout := (detectLayout (coerced session.compiled.outputShape)).1 }, true)

def infer (cv2 : Cv2) (a : OpenvinoAdapter) (rgb : Image) (confThr iouThr : ℚ)
    (classFilter : Option (List ℕ)) : Option (List Box) :=
  match a.session with
  | none => some []
  | some session =>
    let run (canvas : Image) := a.outputPort.bind fun port => session.compiled.run port canvas
    inferRaw cv2 run a.modelH a.modelW a.layout rgb confThr iouThr classFilter

end OpenvinoAdapter

/-! ## Ultralytics -/

structure YoloSession where
  path : String
  deviceHint : String
  model : YoloModel

/-- `session` is the same object as `model`. -/
structure UltralyticsAdapter where
  session : Option YoloSession := none
  device : String

def loadYolo (task : Option String) (defaultDevice : String) (r : Runtimes) (a : UltralyticsAdapter)
    (path deviceHint : String) : UltralyticsAdapter × Bool :=
  if !r.pathExists path then (a, false)
  else if !r.importYolo then (a, false)
  else
    match r.yolo path task with
    | none => (a, false)
    | some model =>
      ({ a with
          session := some ⟨path, deviceHint, model⟩
          device := if deviceHint = "" then defaultDevice else deviceHint }, true)

def PytorchAdapter.load := loadYolo none "cpu"

def TensorrtAdapter.load := loadYolo (some "detect") "cuda:0"

/-- A box of `results[0]`, which is normalized already. -/
def emitNormalized (c : Candidate) : Option Detection :=
  let n : Xyxy := ⟨clamp01 c.xyxy.x1, clamp01 c.xyxy.y1, clamp01 c.xyxy.x2, clamp01 c.xyxy.y2⟩
  if n.x2 ≤ n.x1 ∨ n.y2 ≤ n.y1 then none
  else some { xyxy := n, score := c.score, cls := toInt c.cls }

def UltralyticsAdapter.infer (a : UltralyticsAdapter) (rgb : Image) (confThr iouThr : ℚ)
    (classFilter : Option (List ℕ)) : Option (List Box) :=
  match a.session with
  | none => some []
  | some session => do
    let classes := if classFilter = some [] then none else classFilter
    let boxes ← session.model.predict rgb confThr iouThr classes a.device
    (boxes.filterMap emitNormalized).mapM Detection.toBox

/-! ## Any adapter -/

inductive Adapter where
  | onnx (a : OnnxAdapter)
  | openvino (a : OpenvinoAdapter)
  | pytorch (a : UltralyticsAdapter)
  | tensorrt (a : UltralyticsAdapter)

namespace Adapter

/-- A new adapter of the class that `_ADAPTER_TABLE` names. -/
def make (key : String) : Option Adapter :=
  if key = "onnx" then some (onnx {})
  else if key = "openvino" then some (openvino {})
  else if key = "pytorch" then some (pytorch { device := "cpu" })
  else if key = "tensorrt" then some (tensorrt { device := "cuda:0" })
  else none

def hasSession : Adapter → Bool
  | onnx a => a.session.isSome
  | openvino a => a.session.isSome
  | pytorch a | tensorrt a => a.session.isSome

def load (r : Runtimes) : Adapter → String → String → Adapter × Bool
  | onnx a, path, deviceHint => (onnx (a.load r path deviceHint).1, (a.load r path deviceHint).2)
  | openvino a, path, deviceHint => (openvino (a.load r path deviceHint).1, (a.load r path deviceHint).2)
  | pytorch a, path, deviceHint =>
    (pytorch (PytorchAdapter.load r a path deviceHint).1, (PytorchAdapter.load r a path deviceHint).2)
  | tensorrt a, path, deviceHint =>
    (tensorrt (TensorrtAdapter.load r a path deviceHint).1, (TensorrtAdapter.load r a path deviceHint).2)

def infer (cv2 : Cv2) : Adapter → Image → ℚ → ℚ → Option (List ℕ) → Option (List Box)
  | onnx a => a.infer cv2
  | openvino a => a.infer cv2
  | pytorch a | tensorrt a => a.infer

end Adapter

/-- What happens around a message when third-party code answers as `r` says; `infer` is left
    open where it does not matter. -/
def Runtimes.behaviour (r : Runtimes)
    (infer : Adapter → Image → ℚ → ℚ → Option (List ℕ) → Option (List Box)) (inferMs : ℚ) : Behaviour Adapter where
  construct key := if r.construct key then Adapter.make key else none
  load := Adapter.load r
  infer := infer
  inferMs := inferMs

def adapterEnv (pointPolygonTest : List (ℤ × ℤ) → ℚ × ℚ → Bool) : Env Adapter where
  hasSession := Adapter.hasSession
  pointPolygonTest := pointPolygonTest

end VisionNx.Worker
