import VisionNx.Agent.ConfigMessage
import VisionNx.Worker.Narrowing

/-! # Asking for less

Raising the confidence, unticking classes and drawing masks never brings anything to the
screen that was not there before, as long as the model suppresses duplicates itself and the
region of interest stays. -/

namespace VisionNx.Agent

open BinaryFloats Cpp Client Tracker Worker

/-- The second settings run the same model on the same region and ask for less of what it finds; the
    tracker's settings may be any. -/
structure CameraSettings.Narrower (c c' : CameraSettings) : Prop where
  model : c'.modelPath = c.modelPath ∧ c'.runtime = c.runtime ∧ c'.device = c.device
  roi : c'.roi = c.roi
  conf : ∃ x x', c.conf = .finite x ∧ c'.conf = .finite x' ∧ x ≤ x'
  iou : c.iou.isFinite = true ∧ c'.iou.isFinite = true
  classes : c.classesSet = true → c'.classesSet = true ∧ c'.classes ⊆ c.classes
  inclusive : c.inclusiveMask = [] ∨ c'.inclusiveMask = c.inclusiveMask
  exclusive : c.exclusiveMask = [] ∨ c'.exclusiveMask = c.exclusiveMask

variable {cameraUuid : String} {c c' : CameraSettings} {engine : EngineSettings}

theorem namesToIds_subset {names names' : List String} (fewer : names' ⊆ names) : namesToIds names' ⊆ namesToIds names :=
  List.filterMap_subset _ fewer

theorem passesFilter_ids {ids : List ℕ} (some_id : ids ≠ []) (cls : ℤ) :
    passesFilter (some ids) cls = true ↔ ∃ id ∈ ids, (id : ℤ) = cls := by
  cases ids with
  | nil => exact absurd rfl some_id
  | cons id ids => simp only [passesFilter, List.any_eq_true, beq_iff_eq]

theorem narrowsFilter_of_classes (fewer : c.classesSet = true → c'.classesSet = true ∧ c'.classes ⊆ c.classes) :
    NarrowsFilter (if c.classesSet then some (namesToIds c.classes) else none)
      (if c'.classesSet then some (namesToIds c'.classes) else none) := by
  cases set : c.classesSet with
  | false => exact ⟨nofun, fun _ _ _ _ _ => rfl⟩
  | true =>
    obtain ⟨set', names⟩ := fewer set
    simp only [set', if_true]
    refine ⟨fun empty => ?_, fun some_id cls _ _ passes => ?_⟩
    · have nothing : namesToIds c.classes = [] := Option.some.inj empty
      have inside := namesToIds_subset names
      rw [nothing] at inside
      rw [List.subset_nil.mp inside]
    · have some_id' : namesToIds c'.classes ≠ [] := fun empty => some_id (congrArg some empty)
      obtain ⟨id, mem, is⟩ := (passesFilter_ids some_id' cls).mp passes
      have mem' := namesToIds_subset names mem
      exact (passesFilter_ids (List.ne_nil_of_mem mem') cls).mpr ⟨id, mem', is⟩

theorem polygon_narrower {poly poly' : List (Floating × Floating)} (same : poly = [] ∨ poly' = poly) :
    coercePoly (if poly.isEmpty then none else some (polygonToJsonArray poly)) = none ∨
      coercePoly (if poly'.isEmpty then none else some (polygonToJsonArray poly')) =
        coercePoly (if poly.isEmpty then none else some (polygonToJsonArray poly)) := by
  obtain rfl | rfl := same
  · exact .inl rfl
  · exact .inr rfl

theorem jsonNumber_of_finite {v : Floating} (finite : v.isFinite = true) : ∃ x, jsonNumber v = .num x := by
  cases v with
  | finite x => exact ⟨x, rfl⟩
  | infinite | nan => cases finite

/-- What the worker reads of the two configs. -/
theorem CameraSettings.Narrower.tightens (narrower : c.Narrower c') :
    Tightens (configFields cameraUuid c engine) (configFields cameraUuid c' engine) := by
  obtain ⟨-, conf, iou, -, -, age, -⟩ := @lookup_always cameraUuid c engine
  obtain ⟨-, conf', iou', -, -, age', -⟩ := @lookup_always cameraUuid c' engine
  obtain ⟨-, roi, inclusive, exclusive⟩ := @lookup_optional cameraUuid c engine
  obtain ⟨-, roi', inclusive', exclusive'⟩ := @lookup_optional cameraUuid c' engine
  obtain ⟨x, x', is_conf, is_conf', higher⟩ := narrower.conf
  obtain ⟨y, is_iou⟩ := jsonNumber_of_finite narrower.iou.1
  obtain ⟨y', is_iou'⟩ := jsonNumber_of_finite narrower.iou.2
  obtain ⟨model, runtime, device⟩ := narrower.model
  constructor
  · refine ⟨_, configNames_configFields, ?_⟩
    rw [configNames_configFields, heldRuntime, heldDevice, heldRuntime, heldDevice, model, runtime, device]
  · exact ⟨x, x', by rw [conf, is_conf]; rfl, by rw [conf', is_conf']; rfl, higher⟩
  · exact ⟨y, y', by rw [iou, is_iou], by rw [iou', is_iou']⟩
  · rw [age, age']
    exact ⟨rfl, rfl⟩
  · rw [roi, roi', narrower.roi]
  · rw [classFilter_configFields, classFilter_configFields]
    exact narrowsFilter_of_classes narrower.classes
  · rw [inclusive, inclusive']
    exact polygon_narrower narrower.inclusive
  · rw [exclusive, exclusive']
    exact polygon_narrower narrower.exclusive

/-! ## Two agents -/

/-- The same message, or two configs for related settings. -/
inductive Varied (R : CameraSettings → CameraSettings → Prop) : ClientMessage → ClientMessage → Prop where
  | config {c c' : CameraSettings} {engine : EngineSettings} : R c c' →
      Varied R (.config (configExtra c engine)) (.config (configExtra c' engine))
  | other {m : ClientMessage} : (∀ extra, m ≠ .config extra) → Varied R m m

/-- What the worker gets of a connection, each message with what third-party code does around it. -/
def eventsOf (cameraUuid : String) (behaviour : ℕ → Behaviour Adapter) (msgs : List ClientMessage) :
    List (Incoming × Behaviour Adapter) :=
  msgs.mapIdx fun i m => (incoming cameraUuid m, behaviour i)

theorem forall₂_eventsOf {R : ClientMessage → ClientMessage → Prop}
    {Rel : Incoming × Behaviour Adapter → Incoming × Behaviour Adapter → Prop} {msgs msgs' : List ClientMessage}
    (related : List.Forall₂ R msgs msgs') (behaviour : ℕ → Behaviour Adapter)
    (each : ∀ i m m', R m m' → Rel (incoming cameraUuid m, behaviour i) (incoming cameraUuid m', behaviour i)) :
    List.Forall₂ Rel (eventsOf cameraUuid behaviour msgs) (eventsOf cameraUuid behaviour msgs') := by
  induction related generalizing behaviour with
  | nil => exact .nil
  | cons first _ ih =>
    simp only [eventsOf, List.mapIdx_cons] at ih ⊢
    exact .cons (each 0 _ _ first) (ih (fun i => behaviour (i + 1)) fun i m m' related => each (i + 1) m m' related)

theorem config_of_other {m : ClientMessage} (other : ∀ extra, m ≠ .config extra) : (incoming cameraUuid m).config? = none := by
  cases m with
  | config extra => exact absurd rfl (other extra)
  | frame => rfl
  | attach | detach => simp [incoming, Incoming.config?, typeIs_fields]

/-- Of two agents with the same frames, one of which always asks for less than the other, that one is never
    sent a box that the other is not: the same frames are answered on both connections, and the boxes of the one
    reply are, up to their track ids, among those of the other, in their order. -/
theorem narrower_settings_show_less (pointPolygonTest : List (ℤ × ℤ) → ℚ × ℚ → Bool) (cv2 : Cv2) (cameraUuid : String)
    {msgs msgs' : List ClientMessage} (narrowed : List.Forall₂ (Varied CameraSettings.Narrower) msgs msgs')
    (behaviour : ℕ → Behaviour Adapter) (served : ∀ i, Served cv2 (· = .yolo26) (behaviour i)) :
    List.Forall₂ ShowsLess (Worker.run (adapterEnv pointPolygonTest) {} (eventsOf cameraUuid behaviour msgs)).2
      (Worker.run (adapterEnv pointPolygonTest) {} (eventsOf cameraUuid behaviour msgs')).2 := by
  refine @run_compared Adapter (adapterEnv pointPolygonTest) {} {} Narrows ShowsLess
    (fun e e' => Tightened e.1 e'.1 ∧ e'.2 = e.2 ∧ Served cv2 (· = .yolo26) e.2) ?_ _ _ ?_ narrows_start
  · rintro s s' ⟨m, b⟩ ⟨m', b'⟩ narrows ⟨tightened, same, served⟩
    obtain rfl : b' = b := same
    exact narrows.step served tightened
  · refine forall₂_eventsOf narrowed behaviour fun i m m' varied => ⟨?_, rfl, served i⟩
    cases varied with
    | config narrower => exact .config config_incoming config_incoming narrower.tightens
    | other others => exact .other (config_of_other others)

/-! ## An example -/

/-- Every class. -/
def yardSettings : CameraSettings where
  modelPath := "yard.onnx"
  conf := .finite (1 / 4)

/-- Cars in the left half of the picture. -/
def yardCars : CameraSettings where
  modelPath := "yard.onnx"
  conf := .finite (1 / 2)
  classes := ["Car", "Truck"]
  classesSet := true
  inclusiveMask := [(.finite 0, .finite 0), (.finite (1 / 2), .finite 0), (.finite (1 / 2), .finite 1)]

def yardEngine : EngineSettings := ⟨"onnx", "cpu", 1⟩

/-- The ONNX model of a car and a person; Ultralytics is not installed. -/
def yardRuntimes : Runtimes := { carRuntimes with importYolo := false }

def yardBehaviour : Behaviour Adapter := yardRuntimes.behaviour (Adapter.infer carCv2) 0

def yardMessages (c : CameraSettings) : List ClientMessage :=
  [.attach, .config (configExtra c yardEngine), .frame 1 5 16 8 48 (List.replicate 384 90)]

/-- The effects of the settings and a frame. -/
def yardEffects (c : CameraSettings) : List Effects :=
  (Worker.run smallEnv {} (eventsOf "cam" (fun _ => yardBehaviour) (yardMessages c))).2

theorem yardRuntimes_detects : yardRuntimes.Detects (· = .yolo26) where
  onnx path providers sess started := by
    cases started
    refine ⟨_, rfl, rfl, fun name image out ran => ?_⟩
    cases ran
    intro c mem
    have either : c ∈ [Candidate.mk ⟨0, 0, 16, 16⟩ (9 / 10) 2, ⟨⟨0, 0, 16, 16⟩, 9 / 10, 0⟩] := mem
    simp only [List.mem_cons, List.not_mem_nil, or_false] at either
    obtain rfl | rfl := either
    · exact ⟨by decide +kernel, by decide +kernel⟩
    · exact ⟨by decide +kernel, by decide +kernel⟩
  get_outputs := rfl
  openvino model device compiled is := by
    cases is
    exact ⟨rfl, nofun⟩
  ports := ⟨rfl, rfl, rfl⟩
  no_ultralytics := rfl

theorem yardCars_narrower : yardSettings.Narrower yardCars where
  model := ⟨rfl, rfl, rfl⟩
  roi := rfl
  conf := ⟨1 / 4, 1 / 2, rfl, rfl, by norm_num⟩
  iou := ⟨by decide +kernel, by decide +kernel⟩
  classes := nofun
  inclusive := .inl rfl
  exclusive := .inl rfl

/-- The car is shown either way, the person only where nothing is ticked. -/
theorem narrower_settings_show_less_yard :
    (yardEffects yardSettings).flatMap (·.replies.map (·.boxes.map (·.cls))) = [[some 2, some 0]] ∧
      (yardEffects yardCars).flatMap (·.replies.map (·.boxes.map (·.cls))) = [[some 2]] ∧
      List.Forall₂ ShowsLess (yardEffects yardSettings) (yardEffects yardCars) := by
  have narrowed : List.Forall₂ (Varied CameraSettings.Narrower) (yardMessages yardSettings) (yardMessages yardCars) :=
    .cons (.other nofun) (.cons (.config yardCars_narrower) (.cons (.other nofun) .nil))
  refine ⟨by decide +kernel, by decide +kernel, ?_⟩
  exact narrower_settings_show_less (fun _ _ => true) carCv2 "cam" narrowed (fun _ => yardBehaviour) fun _ =>
    ⟨yardRuntimes, 0, yardRuntimes_detects, rfl⟩

end VisionNx.Agent
