import VisionNx.Worker.Adapters
import VisionNx.Worker.LastConfig

/-! # What the worker believes to have loaded

`serve` decides from `current_runtime`, `current_model` and `current_device` whether to
load again.  The adapters store the new session before the last third-party calls of
`load`; when one of those raises, the adapter runs a model that `serve` takes for
another. -/

namespace VisionNx.Worker

open Python TransitionRuns

/-! ## Truthful names -/

/-- The key that `make_adapter` looks up. -/
def adapterKey (runtime : String) : String := lower (strip (if runtime = "" then "onnx" else runtime))

theorem makeAdapter_eq {A : Type} (b : Behaviour A) (runtime : String) :
    makeAdapter b runtime =
      if adapterKey runtime ∈ adapterTable then b.construct (adapterKey runtime) else none := rfl

theorem makeAdapter_some {A : Type} {b : Behaviour A} {runtime : String} {adapter : A}
    (made : makeAdapter b runtime = some adapter) : b.construct (adapterKey runtime) = some adapter := by
  rw [makeAdapter_eq] at made
  split at made
  · exact made
  · cases made

theorem construct_some {r : Runtimes} {infer : Adapter → Image → ℚ → ℚ → Option (List ℕ) → Option (List Tracker.Box)}
    {inferMs : ℚ} {key : String} {adapter : Adapter}
    (constructed : (r.behaviour infer inferMs).construct key = some adapter) : Adapter.make key = some adapter := by
  simp only [Runtimes.behaviour] at constructed
  split at constructed
  · exact constructed
  · cases constructed

/-- What holds of every adapter that is constructed, and of what `load` makes of it, holds of the adapter in use. -/
theorem adapter_step {A : Type} {env : Env A} {s s' : ServeState A} {P : A → Prop} {e : Incoming × Behaviour A}
    (constructed : ∀ key adapter, e.2.construct key = some adapter → P adapter)
    (loaded : ∀ adapter path device, P adapter → P (e.2.load adapter path device).1)
    (holds : ∀ adapter, s.adapter = some adapter → P adapter) (handles : Handles env s e s') :
    ∀ adapter, s'.adapter = some adapter → P adapter := by
  cases is_config : e.1.config? with
  | none => rwa [(other_adapter handles is_config).adapter]
  | some msg =>
    obtain ⟨newRuntime, newDevice, newModel, -, same⟩ := config_adapter handles is_config
    have swapped : ∀ adapter, (swapAdapter e.2 s newRuntime).adapter = some adapter → P adapter := by
      intro adapter present
      unfold swapAdapter at present
      split at present
      · cases made : makeAdapter e.2 newRuntime with
        | none =>
          rw [made] at present
          cases present
        | some adapter' =>
          rw [made] at present
          obtain rfl := Option.some.inj present
          exact constructed _ _ (makeAdapter_some made)
      · exact holds adapter present
    rw [same.adapter, loadModel_eq]
    cases called : loadCall env (swapAdapter e.2 s newRuntime) newModel newDevice with
    | none => exact swapped
    | some adapter =>
      have reloaded := loaded adapter newModel newDevice (swapped adapter (loadCall_adapter called))
      intro adapter' present
      simp only at present
      split at present
      · exact Option.some.inj present ▸ reloaded
      · exact Option.some.inj present ▸ reloaded

def Adapter.key : Adapter → String
  | .onnx _ => "onnx"
  | .openvino _ => "openvino"
  | .pytorch _ => "pytorch"
  | .tensorrt _ => "tensorrt"

/-- The session is one for this model and device, and what else `infer` reads is its own. -/
structure OnnxAdapter.Runs (a : OnnxAdapter) (session : OnnxSession) (model device : String) : Prop where
  path : session.path = model
  deviceHint : session.deviceHint = device
  input : ∃ n c, session.ort.inputs.head? = some (a.inputName, [n, c, some a.modelH, some a.modelW])
  layout : ∃ outShape, session.ort.outputs.head? = some outShape ∧ a.layout = (detectLayout outShape).1

structure OpenvinoAdapter.Runs (a : OpenvinoAdapter) (session : OpenvinoSession) (model device : String) :
    Prop where
  path : session.path = model
  deviceHint : session.deviceHint = device
  inputPort : a.inputPort = some session.compiled.input
  outputPort : a.outputPort = some session.compiled.output
  sides : (a.modelH, a.modelW) = inputSides session.model
  layout : a.layout = (detectLayout (coerced session.compiled.outputShape)).1

structure UltralyticsAdapter.Runs (a : UltralyticsAdapter) (defaultDevice : String) (session : YoloSession)
    (model device : String) : Prop where
  path : session.path = model
  deviceHint : session.deviceHint = device
  device : a.device = if device = "" then defaultDevice else device

/-- If the adapter has a session, it runs this model on this device. -/
def Adapter.Runs (model device : String) : Adapter → Prop
  | .onnx a => ∀ session, a.session = some session → a.Runs session model device
  | .openvino a => ∀ session, a.session = some session → a.Runs session model device
  | .pytorch a => ∀ session, a.session = some session → a.Runs "cpu" session model device
  | .tensorrt a => ∀ session, a.session = some session → a.Runs "cuda:0" session model device

/-- The adapter is one of the current runtime and runs the current model on the current
    device. -/
structure Truthful (s : ServeState Adapter) : Prop where
  runtime : ∀ adapter, s.adapter = some adapter → adapter.key = adapterKey s.currentRuntime
  model : ∀ adapter, s.adapter = some adapter → adapter.Runs s.currentModel s.currentDevice

/-! ## Loads -/

/-- Once `load` has stored the new session, no third-party call raises. -/
def Adapter.LoadsCleanly (r : Runtimes) (model device : String) : Adapter → Prop
  | .onnx _ => ∀ x, OnnxAdapter.checked r model device = some x →
      r.getOutputs = true ∧ x.1.ort.outputs ≠ [] ∧ r.getProviders = true
  | .openvino a => r.pathExists model = true → (a.core || r.core) = true →
      (OpenvinoAdapter.checked r model device).isSome = true →
      r.compiledInput = true ∧ r.compiledOutput = true ∧ r.outputShape = true
  -- The last call that may raise makes the session.
  | .pytorch _ => True
  | .tensorrt _ => True

theorem answer_eq_some {α : Type} {returns : Bool} {value : Option α} {x : α} :
    answer returns value = some x ↔ returns = true ∧ value = some x := by
  cases returns <;> simp [answer]

/-- What `load` of an Ultralytics adapter leaves when it returns. -/
def UltralyticsAdapter.LoadedBy (task : Option String) (defaultDevice : String) (r : Runtimes) (model device : String)
    (a : UltralyticsAdapter) : Prop :=
  ∃ yolo, r.yolo model task = some yolo ∧
    a = ⟨some ⟨model, device, yolo⟩, if device = "" then defaultDevice else device⟩

/-- What `load` leaves when it returns: nothing of the adapter before. -/
def Adapter.LoadedBy (r : Runtimes) (model device : String) : Adapter → Prop
  | .onnx a => ∃ ort inputName n c modelH modelW outShape,
      r.inferenceSession model (OnnxAdapter.providers device) = some ort ∧
      ort.inputs.head? = some (inputName, [n, c, some modelH, some modelW]) ∧ ort.outputs.head? = some outShape ∧
      a = ⟨some ⟨model, device, ort⟩, inputName, modelH, modelW, (detectLayout outShape).1⟩
  | .openvino a => ∃ read compiled, r.readModel model = some read ∧
      (r.compileModel read (OpenvinoAdapter.mapDevice device)).or (r.compileModel read "AUTO") = some compiled ∧
      a = ⟨true, some ⟨model, device, read, compiled⟩, some compiled.input, some compiled.output,
        (OpenvinoAdapter.inputSides read).1, (OpenvinoAdapter.inputSides read).2,
        (detectLayout (OpenvinoAdapter.coerced compiled.outputShape)).1⟩
  | .pytorch a => a.LoadedBy none "cpu" r model device
  | .tensorrt a => a.LoadedBy (some "detect") "cuda:0" r model device

theorem OnnxAdapter.load_returned {r : Runtimes} {a a' : OnnxAdapter} {model device : String}
    (returned : a.load r model device = (a', true)) : (Adapter.onnx a').LoadedBy r model device := by
  unfold load at returned
  split at returned
  · cases returned
  next session inputName modelH modelW passed =>
    simp only [checked, Option.bind_eq_bind, Option.bind_eq_some_iff, answer_eq_some] at passed
    obtain ⟨ort, made, inp, ⟨-, is_first⟩, shaped⟩ := passed
    split at shaped
    next n c mh mw shape =>
      cases shaped
      simp only at returned
      split at returned
      · cases returned
      next outShape is_output =>
        obtain ⟨is_a', -⟩ := Prod.mk.inj returned
        exact ⟨ort, inp.1, n, c, modelH, modelW, outShape, made, by rw [is_first, ← shape],
          (answer_eq_some.mp is_output).2, is_a'.symm⟩
    next => cases shaped

theorem OnnxAdapter.load_raised {r : Runtimes} {a : OnnxAdapter} {model device : String}
    (clean : (Adapter.onnx a).LoadsCleanly r model device) (raised : (a.load r model device).2 = false) :
    (a.load r model device).1 = a := by
  unfold load at raised ⊢
  cases passed : checked r model device with
  | none => rfl
  | some x =>
    obtain ⟨outputs, some_output, providers⟩ := clean x passed
    obtain ⟨outShape, is_first⟩ := Option.ne_none_iff_exists'.mp (mt List.head?_eq_none_iff.mp some_output)
    simp only [passed, answer, outputs, if_true, is_first, providers, Bool.true_eq_false] at raised

theorem OpenvinoAdapter.load_returned {r : Runtimes} {a a' : OpenvinoAdapter} {model device : String}
    (returned : a.load r model device = (a', true)) : (Adapter.openvino a').LoadedBy r model device := by
  unfold load at returned
  split at returned
  · cases returned
  split at returned
  · cases returned
  simp only at returned
  split at returned
  · cases returned
  next session passed =>
    simp only [checked, Option.bind_eq_bind, Option.bind_eq_some_iff, answer_eq_some, Option.pure_def,
      Option.some.injEq] at passed
    obtain ⟨read, is_read, compiled, ⟨-, is_compiled⟩, rfl⟩ := passed
    split at returned
    · cases returned
    split at returned
    · cases returned
    split at returned
    · cases returned
    · cases returned
      exact ⟨read, compiled, is_read, is_compiled, rfl⟩

/-- The core is all that a load which raises may leave. -/
theorem OpenvinoAdapter.load_raised {r : Runtimes} {a : OpenvinoAdapter} {model device : String}
    (clean : (Adapter.openvino a).LoadsCleanly r model device) (raised : (a.load r model device).2 = false) :
    ∃ core, (a.load r model device).1 = { a with core := core } := by
  unfold load at raised ⊢
  split
  · exact ⟨a.core, rfl⟩
  next present =>
    split
    · exact ⟨a.core, rfl⟩
    next cored =>
      cases passed : checked r model device with
      | none => exact ⟨true, rfl⟩
      | some session =>
        obtain ⟨input, output, shape⟩ := clean (by simpa using present)
          (by simpa only [Bool.not_eq_true', Bool.not_eq_false] using cored)
          (by rw [passed]; rfl)
        rw [if_neg present, if_neg cored] at raised
        simp only [passed, input, output, shape, Bool.not_true, Bool.false_eq_true, if_false,
          Bool.true_eq_false] at raised

theorem loadYolo_returned {task : Option String} {defaultDevice : String} {r : Runtimes} {a a' : UltralyticsAdapter}
    {model device : String} (returned : loadYolo task defaultDevice r a model device = (a', true)) :
    a'.LoadedBy task defaultDevice r model device := by
  unfold loadYolo at returned
  split at returned
  · cases returned
  split at returned
  · cases returned
  split at returned
  · cases returned
  next yolo made =>
    cases returned
    exact ⟨yolo, made, rfl⟩

theorem loadYolo_raised {task : Option String} {defaultDevice : String} {r : Runtimes} {a a' : UltralyticsAdapter}
    {model device : String} (raised : loadYolo task defaultDevice r a model device = (a', false)) : a' = a := by
  unfold loadYolo at raised
  split at raised
  · exact (congrArg Prod.fst raised).symm
  split at raised
  · exact (congrArg Prod.fst raised).symm
  split at raised
  · exact (congrArg Prod.fst raised).symm
  · cases raised

theorem Adapter.load_key (r : Runtimes) (a : Adapter) (model device : String) : (a.load r model device).1.key = a.key := by
  cases a with
  | onnx a | openvino a | pytorch a | tensorrt a => rfl

theorem Adapter.load_returned {r : Runtimes} {a x : Adapter} {model device : String}
    (returned : a.load r model device = (x, true)) : x.LoadedBy r model device := by
  cases a with
  | onnx a =>
    obtain ⟨rfl, ok⟩ := Prod.mk.inj returned
    exact OnnxAdapter.load_returned (Prod.ext rfl ok)
  | openvino a =>
    obtain ⟨rfl, ok⟩ := Prod.mk.inj returned
    exact OpenvinoAdapter.load_returned (Prod.ext rfl ok)
  | pytorch a =>
    obtain ⟨rfl, ok⟩ := Prod.mk.inj returned
    exact loadYolo_returned (Prod.ext rfl ok)
  | tensorrt a =>
    obtain ⟨rfl, ok⟩ := Prod.mk.inj returned
    exact loadYolo_returned (Prod.ext rfl ok)

/-- If the load is clean and raises, the adapter runs what it ran before. -/
theorem Adapter.load_raised {r : Runtimes} {a : Adapter} {model device : String} (clean : a.LoadsCleanly r model device)
    (raised : (a.load r model device).2 = false) {model' device' : String} (runs : a.Runs model' device') :
    (a.load r model device).1.Runs model' device' := by
  cases a with
  | onnx a =>
    simp only [load, OnnxAdapter.load_raised clean raised]
    exact runs
  | openvino a =>
    obtain ⟨core, kept⟩ := OpenvinoAdapter.load_raised clean raised
    simp only [load, kept]
    intro session is_session
    obtain ⟨path, deviceHint, inputPort, outputPort, sides, layout⟩ := runs session is_session
    exact ⟨path, deviceHint, inputPort, outputPort, sides, layout⟩
  | pytorch a =>
    have kept : (PytorchAdapter.load r a model device).1 = a := loadYolo_raised (Prod.ext rfl raised)
    simp only [load, kept]
    exact runs
  | tensorrt a =>
    have kept : (TensorrtAdapter.load r a model device).1 = a := loadYolo_raised (Prod.ext rfl raised)
    simp only [load, kept]
    exact runs

theorem UltralyticsAdapter.LoadedBy.runs {task : Option String} {defaultDevice : String} {r : Runtimes}
    {a : UltralyticsAdapter} {model device : String} (loaded : a.LoadedBy task defaultDevice r model device)
    {session : YoloSession} (is_session : a.session = some session) : a.Runs defaultDevice session model device := by
  obtain ⟨yolo, -, rfl⟩ := loaded
  cases is_session
  exact ⟨rfl, rfl, rfl⟩

/-- What a load leaves runs the model that was loaded. -/
theorem Adapter.LoadedBy.runs {r : Runtimes} {a : Adapter} {model device : String} (loaded : a.LoadedBy r model device) :
    a.Runs model device := by
  cases a with
  | onnx a =>
    obtain ⟨ort, inputName, n, c, modelH, modelW, outShape, -, input, output, rfl⟩ := loaded
    intro session is_session
    cases is_session
    exact ⟨rfl, rfl, ⟨n, c, input⟩, outShape, output, rfl⟩
  | openvino a =>
    obtain ⟨read, compiled, -, -, rfl⟩ := loaded
    intro session is_session
    cases is_session
    exact ⟨rfl, rfl, rfl, rfl, rfl, rfl⟩
  | pytorch a => exact fun session is_session => UltralyticsAdapter.LoadedBy.runs loaded is_session
  | tensorrt a => exact fun session is_session => UltralyticsAdapter.LoadedBy.runs loaded is_session

/-! ## One message -/

variable {env : Env Adapter} {s s' : ServeState Adapter} {r : Runtimes}
  {infer : Adapter → Image → ℚ → ℚ → Option (List ℕ) → Option (List Tracker.Box)} {inferMs : ℚ}

theorem make_spec {key : String} {adapter : Adapter} (made : Adapter.make key = some adapter) :
    adapter.key = key ∧ ∀ model device, adapter.Runs model device := by
  unfold Adapter.make at made
  -- A new adapter has no session.
  split at made
  next is => cases made; exact ⟨is.symm, fun _ _ => nofun⟩
  next =>
    split at made
    next is => cases made; exact ⟨is.symm, fun _ _ => nofun⟩
    next =>
      split at made
      next is => cases made; exact ⟨is.symm, fun _ _ => nofun⟩
      next =>
        split at made
        next is => cases made; exact ⟨is.symm, fun _ _ => nofun⟩
        next => cases made

theorem Truthful.swap (truthful : Truthful s) (newRuntime : String) :
    Truthful (swapAdapter (r.behaviour infer inferMs) s newRuntime) := by
  unfold swapAdapter
  split
  · cases made : makeAdapter (r.behaviour infer inferMs) newRuntime with
    | none => exact ⟨nofun, nofun⟩
    | some adapter =>
      obtain ⟨key, runs⟩ := make_spec (construct_some (makeAdapter_some made))
      exact ⟨fun adapter' is => Option.some.inj is ▸ key, fun adapter' is => Option.some.inj is ▸ runs "" ""⟩
  · exact truthful

theorem Truthful.load (truthful : Truthful s) {newModel newDevice : String}
    (clean : ∀ adapter, loadCall env s newModel newDevice = some adapter →
      adapter.LoadsCleanly r newModel newDevice) :
    Truthful (loadModel env (r.behaviour infer inferMs) s newModel newDevice) := by
  rw [loadModel_eq]
  cases called : loadCall env s newModel newDevice with
  | none => exact truthful
  | some adapter =>
    have present := loadCall_adapter called
    have key := Adapter.load_key r adapter newModel newDevice
    have runtime := truthful.runtime adapter present
    simp only
    cases ok : ((r.behaviour infer inferMs).load adapter newModel newDevice).2 with
    | true =>
      rw [if_pos rfl]
      exact ⟨fun adapter' is => Option.some.inj is ▸ key.trans runtime,
        fun adapter' is => Option.some.inj is ▸ (Adapter.load_returned (Prod.ext rfl ok)).runs⟩
    | false =>
      rw [if_neg Bool.false_ne_true]
      exact ⟨fun adapter' is => Option.some.inj is ▸ key.trans runtime,
        fun adapter' is => Option.some.inj is ▸
          Adapter.load_raised (clean adapter called) ok (truthful.model adapter present)⟩

theorem SameAdapter.truthful (same : SameAdapter s s') (truthful : Truthful s) : Truthful s' where
  runtime := by
    rw [same.adapter, same.runtime]
    exact truthful.runtime
  model := by
    rw [same.adapter, same.model, same.device]
    exact truthful.model

/-! ## Runs -/

/-- Handling a message while third-party code answers as `r` says; what inference does is
    left open. -/
def HandlesWith (env : Env Adapter) (s : ServeState Adapter) (e : Incoming × Runtimes)
    (s' : ServeState Adapter) : Prop :=
  ∃ infer inferMs, Handles env s (e.1, e.2.behaviour infer inferMs) s'

/-- The load that a message leads to, if there is one, is clean. -/
def CleanLoad (env : Env Adapter) (s : ServeState Adapter) (e : Incoming × Runtimes) : Prop :=
  ∀ msg newRuntime newDevice newModel infer inferMs adapter, e.1.config? = some msg →
    configNames msg = some (newRuntime, newDevice, newModel) →
    loadCall env (swapAdapter (e.2.behaviour infer inferMs) s newRuntime) newModel newDevice = some adapter →
    adapter.LoadsCleanly e.2 newModel newDevice

theorem truthful_step {e : Incoming × Runtimes} (truthful : Truthful s)
    (step : Guarded (CleanLoad env) (HandlesWith env) s e s') : Truthful s' := by
  obtain ⟨clean, infer, inferMs, handles⟩ := step
  cases is_config : e.1.config? with
  | none => exact (other_adapter handles is_config).truthful truthful
  | some msg =>
    obtain ⟨newRuntime, newDevice, newModel, names, same⟩ := config_adapter handles is_config
    exact same.truthful ((truthful.swap newRuntime).load fun adapter called =>
      clean msg newRuntime newDevice newModel infer inferMs adapter is_config names called)

/-- If no load raises once it has stored the new session, then whenever the adapter has a
    session, it is one that was made by loading the current model on the current device with
    the current runtime, and everything else that `infer` reads belongs to it. -/
theorem truthful_of_clean_loads (pointPolygonTest : List (ℤ × ℤ) → ℚ × ℚ → Bool)
    {events : List (Incoming × Runtimes)} {s : ServeState Adapter}
    (run : Run (Guarded (CleanLoad (adapterEnv pointPolygonTest)) (HandlesWith (adapterEnv pointPolygonTest)))
      {} events s) : Truthful s :=
  run.invariant (fun _ _ _ truthful step => truthful_step truthful step) ⟨nofun, nofun⟩

/-! ## An example -/

/-- Runtimes that load any model, with an input of 640 × 640 and an end-to-end output. -/
def smallRuntimes : Runtimes where
  construct _ := true
  pathExists _ := true
  inferenceSession _ _ := some {
    inputs := [("images", [some 1, some 3, some 640, some 640])]
    outputs := [[some 1, some 300, some 6]]
    run := fun _ _ => none }
  getInputs := true
  getOutputs := true
  getProviders := true
  core := true
  readModel _ := some ⟨[some 1, some 3, some 640, some 640]⟩
  modelInput := true
  compileModel _ _ := some ⟨0, 1, [some 1, some 300, some 6], fun _ _ => none⟩
  compiledInput := true
  compiledOutput := true
  outputShape := true
  importYolo := true
  yolo _ _ := some ⟨fun _ _ _ _ _ => none⟩

/-- A model that finds a car and a person. -/
def carRuntimes : Runtimes :=
  { smallRuntimes with
    inferenceSession := fun _ _ => some {
      inputs := [("images", [some 1, some 3, some 16, some 16])]
      outputs := [[some 1, some 300, some 6]]
      run := fun _ _ => some {
        rows := [[0, 0, 16, 16, 9 / 10, 2], [0, 0, 16, 16, 9 / 10, 0]]
        cols := 6
        width := by simp } } }

def carCv2 : Cv2 := ⟨flatResize, fun _ _ _ _ => []⟩

def carBehaviour : Behaviour Adapter := carRuntimes.behaviour (Adapter.infer carCv2) 0

def smallEnv : Env Adapter := adapterEnv fun _ _ => true

def modelConfig (path : String) : Incoming :=
  .message [("model_path", .str path), ("type", .str "config")]

/-- The state after a config that names a model. -/
def afterConfig (r : Runtimes) (path : String) (s : ServeState Adapter) : ServeState Adapter :=
  ((handle smallEnv (r.behaviour (fun _ _ _ _ _ => none) 0) s (modelConfig path)).map Prod.fst).getD s

theorem handles_modelConfig {r : Runtimes} {path : String} {s : ServeState Adapter}
    (handled : (handle smallEnv (r.behaviour (fun _ _ _ _ _ => none) 0) s (modelConfig path)).isSome = true) :
    HandlesWith smallEnv s (modelConfig path, r) (afterConfig r path s) := by
  obtain ⟨next, is⟩ := Option.isSome_iff_exists.mp handled
  exact ⟨_, _, next.2, by rw [afterConfig, is]; rfl⟩

theorem clean_smallRuntimes (adapter : Adapter) (model device : String) :
    adapter.LoadsCleanly smallRuntimes model device := by
  cases adapter with
  | onnx a =>
    intro x passed
    simp only [OnnxAdapter.checked, smallRuntimes, answer, if_true, Option.bind_eq_bind, Option.bind_some,
      List.head?_cons, Option.pure_def, Option.some.injEq] at passed
    rw [← passed]
    exact ⟨rfl, List.cons_ne_nil _ _, rfl⟩
  | openvino a => exact fun _ _ _ => ⟨rfl, rfl, rfl⟩
  | pytorch a => exact trivial
  | tensorrt a => exact trivial

/-- A model that loads. -/
theorem truthful_of_clean_loads_small :
    (afterConfig smallRuntimes "street.onnx" {}).adapter.any Adapter.hasSession = true ∧
      Truthful (afterConfig smallRuntimes "street.onnx" {}) := by
  refine ⟨by decide +kernel, truthful_of_clean_loads _ (.cons ⟨?_, handles_modelConfig ?_⟩ (.nil _))⟩
  · intro _ _ _ _ _ _ adapter _ _ _
    exact clean_smallRuntimes adapter _ _
  · decide +kernel

/-- `get_outputs` raises while a second model is loaded: the adapter runs that model, and the
    worker still takes it for the first. -/
theorem second_model_taken_for_first : ∃ (events : List (Incoming × Runtimes)) (s : ServeState Adapter),
    Run (HandlesWith smallEnv) {} events s ∧ ¬ Truthful s := by
  refine ⟨[(modelConfig "street.onnx", smallRuntimes),
      (modelConfig "yard.onnx", { smallRuntimes with getOutputs := false })], _,
    .cons (handles_modelConfig (by decide +kernel)) (.cons (handles_modelConfig (by decide +kernel)) (.nil _)), ?_⟩
  intro truthful
  generalize state : afterConfig { smallRuntimes with getOutputs := false } "yard.onnx"
    (afterConfig smallRuntimes "street.onnx" {}) = s at truthful
  have running : s.adapter.bind (fun adapter => match adapter with
      | .onnx a => a.session.map (·.path)
      | _ => none) = some "yard.onnx" := by rw [← state]; decide +kernel
  have believed : s.currentModel = "street.onnx" := by rw [← state]; decide +kernel
  obtain ⟨adapter, present, running⟩ := Option.bind_eq_some_iff.mp running
  have runs := truthful.model adapter present
  cases adapter with
  | onnx a =>
    obtain ⟨session, is_session, path⟩ := Option.map_eq_some_iff.mp running
    have := (runs session is_session).path
    rw [path, believed] at this
    exact absurd this (by decide)
  | openvino a => cases running
  | pytorch a => cases running
  | tensorrt a => cases running

end VisionNx.Worker
