import VisionNx.Library.TransitionRuns
import VisionNx.Worker.Inference

/-! # What a config leaves behind

What `serve` decodes from a `config` message replaces what it decoded from the one
before, so the regions and the class filter in force are those of the last one, and the
pixel polygons in the cache are made from them. -/

namespace VisionNx.Worker

open Tracker TransitionRuns

variable {A : Type} {env : Env A} {b : Behaviour A} {s s' : ServeState A}

/-! ## The last config -/

/-- The object of a `config` message. -/
def Incoming.config? : Incoming → Option (List (String × Json))
  | message msg => if typeIs "config" msg then some msg else none
  | _ => none

def lastConfig (messages : List Incoming) : Option (List (String × Json)) :=
  (messages.filterMap Incoming.config?).getLast?

/-- `msg.get(key)` of the last config. -/
def configured (messages : List Incoming) (key : String) : Option Json :=
  (lastConfig messages).bind (Json.lookup key)

theorem configured_config {messages : List Incoming} {m : Incoming} {msg : List (String × Json)}
    (is_config : m.config? = some msg) (key : String) :
    configured (messages ++ [m]) key = Json.lookup key msg := by
  simp [configured, lastConfig, is_config]

theorem configured_other {messages : List Incoming} {m : Incoming} (other : m.config? = none) (key : String) :
    configured (messages ++ [m]) key = configured messages key := by
  simp [configured, lastConfig, other]

/-- Handling a message, as a step from one round of the loop to the next. -/
def Handles (env : Env A) (s : ServeState A) (e : Incoming × Behaviour A) (s' : ServeState A) : Prop :=
  ∃ effects, handle env e.2 s e.1 = some (s', effects)

/-! ## What a message may change -/

theorem swapAdapter_keeps (b : Behaviour A) (s : ServeState A) (newRuntime : String) :
    ∃ adapter runtime device model, swapAdapter b s newRuntime =
      { s with adapter := adapter, currentRuntime := runtime, currentDevice := device,
               currentModel := model } := by
  unfold swapAdapter
  split
  · split
    · exact ⟨_, _, _, _, rfl⟩
    · exact ⟨_, _, _, _, rfl⟩
  · exact ⟨_, _, _, _, rfl⟩

theorem loadModel_keeps (env : Env A) (b : Behaviour A) (s : ServeState A) (newModel newDevice : String) :
    ∃ adapter device model, loadModel env b s newModel newDevice =
      { s with adapter := adapter, currentDevice := device, currentModel := model } := by
  unfold loadModel
  split
  · exact ⟨_, _, _, rfl⟩
  · split
    · simp only
      split
      · exact ⟨_, _, _, rfl⟩
      · exact ⟨_, _, _, rfl⟩
    · exact ⟨_, _, _, rfl⟩

/-- What a config stores before it comes to the adapter. -/
def ServeState.configure (s : ServeState A) (msg : List (String × Json)) (conf iou : ℚ) (maxAge : Option ℤ) :
    ServeState A :=
  { s with
    confThr := conf
    iouThr := iou
    classFilterIds := classFilter (Json.lookup "classes" msg)
    roiNorm := coercePoly (Json.lookup "roi" msg)
    inclusiveNorm := coercePoly (Json.lookup "inclusive_mask" msg)
    exclusiveNorm := coercePoly (Json.lookup "exclusive_mask" msg)
    polyPxCache := []
    tracker := some (configTracker s.tracker maxAge (optStr (Json.lookup "track_class_match" msg))) }

/-- `new_runtime`, `new_device` and `new_model`. -/
def configNames (msg : List (String × Json)) : Option (String × String × String) := do
  let newRuntime ← textOr msg "runtime" "onnx"
  let newDevice ← textOr msg "device" "cpu"
  let newModel ← textOr msg "model_path" ""
  return (Python.lower (Python.strip newRuntime), Python.lower (Python.strip newDevice), newModel)

/-- A config is handled if its names, thresholds and `track_max_age` are read. -/
theorem handleConfig_eq_some {msg : List (String × Json)} :
    handleConfig env b s msg = some s' ↔ ∃ newRuntime newDevice newModel conf iou maxAge,
      configNames msg = some (newRuntime, newDevice, newModel) ∧
      ((Json.lookup "conf" msg).getD (.num s.confThr)).toFloat? = some conf ∧
      ((Json.lookup "iou" msg).getD (.num s.iouThr)).toFloat? = some iou ∧
      optInt (Json.lookup "track_max_age" msg) = some maxAge ∧
      s' = loadModel env b (swapAdapter b (s.configure msg conf iou maxAge) newRuntime) newModel newDevice := by
  simp only [handleConfig, configNames, Option.bind_eq_bind, Option.bind_eq_some_iff, Option.pure_def,
    Option.some.injEq, Prod.mk.injEq]
  constructor
  · rintro ⟨runtime, h₁, device, h₂, model, h₃, conf, h₄, iou, h₅, maxAge, h₆, done⟩
    exact ⟨_, _, _, conf, iou, maxAge, ⟨runtime, h₁, device, h₂, model, h₃, rfl, rfl, rfl⟩, h₄, h₅, h₆, done.symm⟩
  · rintro ⟨_, _, _, conf, iou, maxAge, ⟨runtime, h₁, device, h₂, model, h₃, rfl, rfl, rfl⟩, h₄, h₅, h₆, done⟩
    exact ⟨runtime, h₁, device, h₂, model, h₃, conf, h₄, iou, h₅, maxAge, h₆, done.symm⟩

/-- What a config leaves in the fields that the adapter does not touch. -/
theorem handleConfig_state {msg : List (String × Json)} (handled : handleConfig env b s msg = some s') :
    ∃ conf iou maxAge adapter runtime device model,
      ((Json.lookup "conf" msg).getD (.num s.confThr)).toFloat? = some conf ∧
      ((Json.lookup "iou" msg).getD (.num s.iouThr)).toFloat? = some iou ∧
      optInt (Json.lookup "track_max_age" msg) = some maxAge ∧
      s' = { s.configure msg conf iou maxAge with
        adapter := adapter
        currentRuntime := runtime
        currentDevice := device
        currentModel := model } := by
  obtain ⟨newRuntime, newDevice, newModel, conf, iou, maxAge, -, conf_read, iou_read, age_read, done⟩ :=
    handleConfig_eq_some.mp handled
  obtain ⟨_, _, _, _, swapped⟩ := swapAdapter_keeps b (s.configure msg conf iou maxAge) newRuntime
  obtain ⟨_, _, _, loaded⟩ := loadModel_keeps env b (swapAdapter b (s.configure msg conf iou maxAge) newRuntime)
    newModel newDevice
  exact ⟨conf, iou, maxAge, _, _, _, _, conf_read, iou_read, age_read, by rw [done, loaded, swapped]⟩

/-! ## The adapter after a config -/

/-- The adapter whose `load` is called, if `need_load` holds. -/
def loadCall (env : Env A) (s : ServeState A) (newModel newDevice : String) : Option A :=
  s.adapter.bind fun adapter =>
    if newModel ≠ "" ∧
        (newModel ≠ s.currentModel ∨ newDevice ≠ s.currentDevice ∨ env.hasSession adapter = false) then
      some adapter
    else none

theorem loadCall_adapter {newModel newDevice : String} {adapter : A}
    (called : loadCall env s newModel newDevice = some adapter) : s.adapter = some adapter := by
  obtain ⟨adapter', present, same⟩ := Option.bind_eq_some_iff.mp called
  split at same
  · rw [present, same]
  · cases same

theorem loadModel_eq (env : Env A) (b : Behaviour A) (s : ServeState A) (newModel newDevice : String) :
    loadModel env b s newModel newDevice =
      match loadCall env s newModel newDevice with
      | none => s
      | some adapter =>
        if (b.load adapter newModel newDevice).2 then
          { s with adapter := some (b.load adapter newModel newDevice).1, currentModel := newModel,
                   currentDevice := newDevice }
        else { s with adapter := some (b.load adapter newModel newDevice).1 } := by
  unfold loadModel loadCall
  cases s.adapter with
  | none => rfl
  | some adapter =>
    simp only [Option.bind_some]
    split
    · rfl
    · rfl

/-- Two states with the same adapter and the same names for what it has loaded. -/
structure SameAdapter (s s' : ServeState A) : Prop where
  adapter : s'.adapter = s.adapter
  runtime : s'.currentRuntime = s.currentRuntime
  device : s'.currentDevice = s.currentDevice
  model : s'.currentModel = s.currentModel

theorem SameAdapter.swap (same : SameAdapter s s') (newRuntime : String) :
    SameAdapter (swapAdapter b s newRuntime) (swapAdapter b s' newRuntime) := by
  simp only [swapAdapter, same.adapter, same.runtime]
  split
  · split
    · exact ⟨rfl, rfl, rfl, rfl⟩
    · exact ⟨rfl, rfl, same.device, same.model⟩
  · exact same

theorem SameAdapter.loadCall (same : SameAdapter s s') (newModel newDevice : String) :
    loadCall env s' newModel newDevice = loadCall env s newModel newDevice := by
  simp only [Worker.loadCall, same.adapter, same.device, same.model]

theorem SameAdapter.load (same : SameAdapter s s') (newModel newDevice : String) :
    SameAdapter (loadModel env b s newModel newDevice) (loadModel env b s' newModel newDevice) := by
  rw [loadModel_eq, loadModel_eq, same.loadCall]
  cases Worker.loadCall env s newModel newDevice with
  | none => exact same
  | some adapter =>
    simp only
    split
    · exact ⟨rfl, same.runtime, rfl, rfl⟩
    · exact ⟨rfl, same.runtime, same.device, same.model⟩

/-- A config changes the adapter through its three names only. -/
theorem handleConfig_adapter {msg : List (String × Json)} {cam : Json}
    (handled : handleConfig env b { s with cam := cam } msg = some s') :
    ∃ newRuntime newDevice newModel, configNames msg = some (newRuntime, newDevice, newModel) ∧
      SameAdapter (loadModel env b (swapAdapter b s newRuntime) newModel newDevice) s' := by
  obtain ⟨newRuntime, newDevice, newModel, conf, iou, maxAge, names, -, -, -, done⟩ :=
    handleConfig_eq_some.mp handled
  have same : SameAdapter s (ServeState.configure { s with cam := cam } msg conf iou maxAge) := ⟨rfl, rfl, rfl, rfl⟩
  have swapped := @SameAdapter.swap A b _ _ same newRuntime
  have loaded := @SameAdapter.load A env b _ _ swapped newModel newDevice
  rw [← done] at loaded
  exact ⟨newRuntime, newDevice, newModel, names, loaded⟩

/-! ## One message -/

/-- A message that is handled: a config, a frame, or one that only tells the camera's id. -/
theorem handles_cases {e : Incoming × Behaviour A} (handles : Handles env s e s') :
    (∃ msg cam, e.1.config? = some msg ∧ handleConfig env e.2 { s with cam := cam } msg = some s') ∨
    (∃ msg hdr body cam, e.1 = .frame msg hdr body ∧
      s' = (handleFrame env e.2 { s with cam := cam } hdr body).1) ∨
    (e.1.config? = none ∧ e.1.frameId? = none ∧ ∃ cam, s' = { s with cam := cam }) := by
  obtain ⟨m, b⟩ := e
  obtain ⟨effects, handled⟩ := handles
  cases m with
  | garbled =>
    cases handled
    exact .inr (.inr ⟨rfl, rfl, s.cam, rfl⟩)
  | frame msg hdr body =>
    rw [handle, Option.some.injEq] at handled
    exact .inr (.inl ⟨msg, hdr, body, _, rfl, (congrArg Prod.fst handled).symm⟩)
  | message msg =>
    simp only [handle] at handled
    split at handled
    next is_attach =>
      cases handled
      have no_config : typeIs "config" msg = false := by
        by_contra is_config
        have := typeIs_unique is_attach (Bool.not_eq_false _ ▸ is_config)
        simp at this
      exact .inr (.inr ⟨by simp [Incoming.config?, no_config], rfl, _, rfl⟩)
    next =>
      split at handled
      · cases handled
      split at handled
      next is_config =>
        obtain ⟨s'', configured, same⟩ := Option.map_eq_some_iff.mp handled
        obtain rfl := (Prod.mk.inj same).1
        exact .inl ⟨msg, _, by simp [Incoming.config?, is_config], configured⟩
      next no_config =>
        cases handled
        exact .inr (.inr ⟨by simp [Incoming.config?, no_config], rfl, _, rfl⟩)

/-- A config message that is handled. -/
theorem config_handled {e : Incoming × Behaviour A} {msg : List (String × Json)} (handles : Handles env s e s')
    (is_config : e.1.config? = some msg) : ∃ cam, handleConfig env e.2 { s with cam := cam } msg = some s' := by
  obtain ⟨msg', cam, same, handled⟩ | ⟨msg', hdr, body, cam, is_frame, -⟩ | ⟨other, -⟩ := handles_cases handles
  · cases is_config.symm.trans same
    exact ⟨cam, handled⟩
  · rw [is_frame] at is_config
    cases is_config
  · cases is_config.symm.trans other

/-- What is not a config touches the pixel polygons, the tracker and the camera's id only. -/
theorem handles_keeps {e : Incoming × Behaviour A} (handles : Handles env s e s') (other : e.1.config? = none) :
    ∃ cache tracker cam, s' = { s with polyPxCache := cache, tracker := tracker, cam := cam } ∧
      tracker.isSome = s.tracker.isSome := by
  obtain ⟨msg, cam, is_config, -⟩ | ⟨msg, hdr, body, cam, -, done⟩ | ⟨-, -, cam, done⟩ := handles_cases handles
  · rw [other] at is_config
    cases is_config
  · obtain ⟨cache, tracker, same, -, kept⟩ := handleFrame_keeps env e.2 { s with cam := cam } hdr body
    exact ⟨cache, tracker, cam, done.trans same, kept⟩
  · exact ⟨s.polyPxCache, s.tracker, cam, done, rfl⟩

/-- A config that is handled changes the adapter through its three names only. -/
theorem config_adapter {e : Incoming × Behaviour A} {msg : List (String × Json)} (handles : Handles env s e s')
    (is_config : e.1.config? = some msg) :
    ∃ newRuntime newDevice newModel, configNames msg = some (newRuntime, newDevice, newModel) ∧
      SameAdapter (loadModel env e.2 (swapAdapter e.2 s newRuntime) newModel newDevice) s' := by
  obtain ⟨cam, handled⟩ := config_handled handles is_config
  exact handleConfig_adapter handled

/-- What is not a config leaves the adapter. -/
theorem other_adapter {e : Incoming × Behaviour A} (handles : Handles env s e s') (other : e.1.config? = none) :
    SameAdapter s s' := by
  obtain ⟨cache, tracker, cam, rfl, -⟩ := handles_keeps handles other
  exact ⟨rfl, rfl, rfl, rfl⟩

theorem run_keeps {events : List (Incoming × Behaviour A)} (run : Run (Handles env) s events s')
    (others : ∀ e ∈ events, e.1.config? = none) :
    ∃ cache tracker cam, s' = { s with polyPxCache := cache, tracker := tracker, cam := cam } ∧
      tracker.isSome = s.tracker.isSome := by
  induction run with
  | nil s => exact ⟨s.polyPxCache, s.tracker, s.cam, rfl, rfl⟩
  | cons first _ ih =>
    obtain ⟨cache, tracker, cam, rfl, kept⟩ := handles_keeps first (others _ List.mem_cons_self)
    obtain ⟨cache', tracker', cam', done, kept'⟩ := ih fun e mem => others e (List.mem_cons_of_mem _ mem)
    exact ⟨cache', tracker', cam', done, kept'.trans kept⟩

/-! ## What is in force -/

/-- The state after `messages`: what the last of their configs says is in force, the cached
    pixel polygons are those of the regions in force, and an adapter comes after the
    tracker. -/
structure InForce (messages : List Incoming) (s : ServeState A) : Prop where
  classes : s.classFilterIds = classFilter (configured messages "classes")
  roi : s.roiNorm = coercePoly (configured messages "roi")
  inclusive : s.inclusiveNorm = coercePoly (configured messages "inclusive_mask")
  exclusive : s.exclusiveNorm = coercePoly (configured messages "exclusive_mask")
  cached : ∀ entry ∈ s.polyPxCache, entry.2 =
    (normalizeToPixelPolygon s.inclusiveNorm entry.1.1 entry.1.2,
      normalizeToPixelPolygon s.exclusiveNorm entry.1.1 entry.1.2)
  tracker_first : s.adapter.isSome = true → s.tracker.isSome = true

theorem inForce_start : InForce [] ({} : ServeState A) :=
  ⟨rfl, rfl, rfl, rfl, nofun, nofun⟩

theorem inForce_config {messages : List Incoming} {m : Incoming} {msg : List (String × Json)}
    (is_config : m.config? = some msg) (handled : handleConfig env b s msg = some s') :
    InForce (messages ++ [m]) s' := by
  obtain ⟨conf, iou, maxAge, adapter, runtime, device, model, -, -, -, rfl⟩ := handleConfig_state handled
  constructor <;> simp [ServeState.configure, configured_config is_config]

/-- The pixel polygons used on a frame are made from the regions in force, from the cache
    or not. -/
theorem InForce.polyPx {messages : List Incoming} (inForce : InForce messages s) (w h : ℤ) :
    polyPx s w h = (normalizeToPixelPolygon s.inclusiveNorm w h, normalizeToPixelPolygon s.exclusiveNorm w h) := by
  unfold Worker.polyPx
  split
  next entry found =>
    have same : entry.1 = (w, h) := by simpa using List.find?_some found
    rw [inForce.cached entry (List.mem_of_find?_eq_some found), same]
  next => rfl

theorem inForce_other {messages : List Incoming} {m : Incoming} (inForce : InForce messages s)
    (other : m.config? = none) : InForce (messages ++ [m]) s where
  classes := by rw [configured_other other, inForce.classes]
  roi := by rw [configured_other other, inForce.roi]
  inclusive := by rw [configured_other other, inForce.inclusive]
  exclusive := by rw [configured_other other, inForce.exclusive]
  cached := inForce.cached
  tracker_first := inForce.tracker_first

theorem InForce.cam {messages : List Incoming} (inForce : InForce messages s) (cam : Json) :
    InForce messages { s with cam := cam } :=
  ⟨inForce.classes, inForce.roi, inForce.inclusive, inForce.exclusive, inForce.cached, inForce.tracker_first⟩

theorem InForce.frame {messages : List Incoming} (inForce : InForce messages s) (env : Env A)
    (b : Behaviour A) (hdr : FrameHeader) (body : List UInt8) :
    InForce messages (handleFrame env b s hdr body).1 := by
  obtain ⟨cache, tracker, same, own, kept⟩ := handleFrame_keeps env b s hdr body
  rw [same]
  refine ⟨inForce.classes, inForce.roi, inForce.inclusive, inForce.exclusive, fun entry mem => ?_,
    fun present => kept.trans (inForce.tracker_first present)⟩
  cases own entry mem with
  | inl old => exact inForce.cached entry old
  | inr new => rw [new, inForce.polyPx]

theorem InForce.step {messages : List Incoming} {e : Incoming × Behaviour A} (inForce : InForce messages s)
    (handles : Handles env s e s') : InForce (messages ++ [e.1]) s' := by
  obtain ⟨msg, cam, is_config, handled⟩ | ⟨msg, hdr, body, cam, is_frame, done⟩ | ⟨other, -, cam, done⟩ :=
    handles_cases handles
  · exact inForce_config is_config handled
  · rw [done, is_frame]
    exact inForce_other ((inForce.cam cam).frame env e.2 hdr body) rfl
  · rw [done]
    exact inForce_other (inForce.cam cam) other

theorem InForce.run {messages : List Incoming} {events : List (Incoming × Behaviour A)}
    (inForce : InForce messages s) (run : Run (Handles env) s events s') :
    InForce (messages ++ events.map Prod.fst) s' := by
  induction run generalizing messages with
  | nil => simpa using inForce
  | cons first _ ih => simpa using ih (inForce.step first)

end VisionNx.Worker
