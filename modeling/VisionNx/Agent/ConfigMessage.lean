import VisionNx.Agent.SettingsParsing
import VisionNx.Worker.LastConfig

/-! # A config message as the worker reads it

What each key of the object that `sendConfigToWorker` builds gives in the `config` branch
of `serve`. -/

namespace VisionNx.Agent

open BinaryFloats Cpp Python Worker

variable {cameraUuid : String} {camera : CameraSettings} {engine : EngineSettings}

/-- The object of a config message. -/
def configFields (cameraUuid : String) (camera : CameraSettings) (engine : EngineSettings) : List (String × Json) :=
  ClientMessage.fields cameraUuid (.config (configExtra camera engine))

/-- The runtime and the device that are sent: the camera's, the engine's or a default. -/
def heldRuntime (camera : CameraSettings) (engine : EngineSettings) : String :=
  firstSet (firstSet camera.runtime engine.runtime) "onnx"

def heldDevice (camera : CameraSettings) (engine : EngineSettings) : String :=
  firstSet (firstSet camera.device engine.device) "cpu"

theorem typeIs_configFields (t : String) : typeIs t (configFields cameraUuid camera engine) = ("config" == t) :=
  typeIs_fields t (.config _)

theorem config_incoming :
    (incoming cameraUuid (.config (configExtra camera engine))).config? = some (configFields cameraUuid camera engine) := by
  show (if typeIs "config" (configFields cameraUuid camera engine) then
    some (configFields cameraUuid camera engine) else none) = _
  rw [typeIs_configFields]
  rfl

/-! ## Keys -/

theorem lookup_configFields {key : String} (not_type : "type" ≠ key) (not_uuid : "camera_uuid" ≠ key) :
    Json.lookup key (configFields cameraUuid camera engine) = Json.lookup key (configExtra camera engine) := by
  rw [configFields, ClientMessage.fields, Json.lookup_set_of_ne not_uuid, Json.lookup_set_of_ne not_type]

theorem lookup_append (key : String) (fields fields' : List (String × Json)) :
    Json.lookup key (fields ++ fields') = (Json.lookup key fields).or (Json.lookup key fields') := by
  rw [Json.lookup, List.find?_append]
  cases found : fields.find? fun field => field.1 == key with
  | none => simp only [Json.lookup, found, Option.none_or, Option.map_none]
  | some field => simp only [Json.lookup, found, Option.some_or, Option.map_some]

/-- The keys that every config has. -/
theorem lookup_always :
    Json.lookup "model_path" (configFields cameraUuid camera engine) = some (.str camera.modelPath) ∧
    Json.lookup "conf" (configFields cameraUuid camera engine) = some (jsonNumber camera.conf) ∧
    Json.lookup "iou" (configFields cameraUuid camera engine) = some (jsonNumber camera.iou) ∧
    Json.lookup "runtime" (configFields cameraUuid camera engine) = some (.str (heldRuntime camera engine)) ∧
    Json.lookup "device" (configFields cameraUuid camera engine) = some (.str (heldDevice camera engine)) ∧
    Json.lookup "track_max_age" (configFields cameraUuid camera engine) = some (.num camera.trackMaxAge) ∧
    Json.lookup "track_class_match" (configFields cameraUuid camera engine) = some (.str camera.trackClassMatch) := by
  refine ⟨?_, ?_, ?_, ?_, ?_, ?_, ?_⟩ <;>
    rw [lookup_configFields (by decide) (by decide)] <;> rfl

/-- The keys that are left out where nothing is set or drawn. -/
theorem lookup_optional :
    Json.lookup "classes" (configFields cameraUuid camera engine) =
      (if camera.classesSet then some (.arr (camera.classes.map .str)) else none) ∧
    Json.lookup "roi" (configFields cameraUuid camera engine) =
      (if camera.roi.isEmpty then none else some (polygonToJsonArray camera.roi)) ∧
    Json.lookup "inclusive_mask" (configFields cameraUuid camera engine) =
      (if camera.inclusiveMask.isEmpty then none else some (polygonToJsonArray camera.inclusiveMask)) ∧
    Json.lookup "exclusive_mask" (configFields cameraUuid camera engine) =
      (if camera.exclusiveMask.isEmpty then none else some (polygonToJsonArray camera.exclusiveMask)) := by
  refine ⟨?_, ?_, ?_, ?_⟩ <;>
    rw [lookup_configFields (by decide) (by decide)] <;>
    simp only [configExtra, lookup_append] <;>
    cases camera.classesSet <;> cases camera.roi.isEmpty <;> cases camera.inclusiveMask.isEmpty <;>
      cases camera.exclusiveMask.isEmpty <;> rfl

/-! ## Values -/

theorem textOr_of_text {msg : List (String × Json)} {key s : String} (default : String)
    (sent : Json.lookup key msg = some (.str s)) : textOr msg key default = some (firstSet s default) := by
  rw [textOr, sent, firstSet]

theorem firstSet_firstSet (value fallback : String) : firstSet (firstSet value fallback) fallback = firstSet value fallback := by
  by_cases empty : value = ""
  · rw [empty]
    exact ite_self fallback
  · simp only [firstSet, if_neg empty]

/-- The names that the worker takes from a config. -/
theorem configNames_configFields :
    configNames (configFields cameraUuid camera engine) =
      some (lower (strip (heldRuntime camera engine)), lower (strip (heldDevice camera engine)), camera.modelPath) := by
  obtain ⟨model, -, -, runtime, device, -, -⟩ := @lookup_always cameraUuid camera engine
  have model_kept : firstSet camera.modelPath "" = camera.modelPath := by
    unfold firstSet
    split
    next empty => exact empty.symm
    next => rfl
  rw [configNames, textOr_of_text "onnx" runtime, textOr_of_text "cpu" device, textOr_of_text "" model, model_kept,
    heldRuntime, heldDevice, firstSet_firstSet, firstSet_firstSet]
  rfl

/-- The ids of the classes that are sent. -/
theorem classFilter_configFields :
    classFilter (Json.lookup "classes" (configFields cameraUuid camera engine)) =
      if camera.classesSet then some (namesToIds camera.classes) else none := by
  rw [lookup_optional.1]
  split
  · rw [classFilter, List.map_map]
    congr 2
    exact List.map_id _
  · rfl

end VisionNx.Agent
