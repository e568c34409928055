import VisionNx.Agent.ConfigMessage
import VisionNx.Worker.ModelBookkeeping

/-! # What the worker runs with

The worker decodes from a config what the agent holds, unless a setting makes the agent
hold a number that is not finite: `nx::kit::Json` writes it as null, which raises as a
threshold and drops a point of a region. -/

namespace VisionNx.Agent

open BinaryFloats Cpp Python Tracker TransitionRuns Worker

/-! ## Agreement -/

/-- A region as the worker holds it; what is not drawn is `None`. -/
def heldPolygon (pts : List (Floating × Floating)) : Option (List (List Floating)) :=
  if pts.isEmpty then none else some (pts.map fun p => [p.1, p.2])

def asFloats (poly : Option (List (List ℚ))) : Option (List (List Floating)) :=
  poly.map fun pts => pts.map fun p => p.map .finite

/-- `match_mode` of the tracker. -/
def matchModeName : MatchMode → String
  | .strict => "strict"
  | .vehicleGroup => "vehicle_group"
  | .any => "any"

/-- After a config in state `s`, the worker's `s'` has the values that the agent holds; the adapter
    is one for its runtime and device, if they can be had. -/
structure Agrees {A : Type} (camera : CameraSettings) (engine : EngineSettings) (env : Env A) (b : Behaviour A)
    (s s' : ServeState A) : Prop where
  conf : .finite s'.confThr = camera.conf
  iou : .finite s'.iouThr = camera.iou
  classes : s'.classFilterIds = if camera.classesSet then some (namesToIds camera.classes) else none
  roi : asFloats s'.roiNorm = heldPolygon camera.roi
  inclusive : asFloats s'.inclusiveNorm = heldPolygon camera.inclusiveMask
  exclusive : asFloats s'.exclusiveNorm = heldPolygon camera.exclusiveMask
  tracker : ∃ t, s'.tracker = some t ∧ t.maxAge = camera.trackMaxAge ∧ matchModeName t.matchMode = camera.trackClassMatch
  names : SameAdapter (loadModel env b (swapAdapter b s (lower (strip (heldRuntime camera engine)))) camera.modelPath
    (lower (strip (heldDevice camera engine)))) s'

/-- The settings whose numbers are finite. -/
structure SettingsFit (parse : String → Option Json) (settingValue : String → String) : Prop where
  conf : spellsNonFinite (settingValue "conf") = false
  iou : spellsNonFinite (settingValue "iou") = false
  roi : BoxFits parse (settingValue "roi")
  inclusive : PolygonFits parse (settingValue "inclusiveMask")
  exclusive : PolygonFits parse (settingValue "exclusiveMask")

/-! ## Regions -/

/-- A point is decoded if both of its numbers are finite. -/
theorem coercePoint_cases (p : Floating × Floating) :
    (∃ x y, p = (.finite x, .finite y) ∧ coercePoint (.arr [jsonNumber p.1, jsonNumber p.2]) = some [x, y]) ∨
      (¬ (p.1.isFinite = true ∧ p.2.isFinite = true) ∧
        coercePoint (.arr [jsonNumber p.1, jsonNumber p.2]) = none) := by
  obtain ⟨x, y⟩ := p
  cases x with
  | finite x =>
    cases y with
    | finite y => exact .inl ⟨x, y, rfl, rfl⟩
    | infinite negative => exact .inr ⟨nofun, rfl⟩
    | nan => exact .inr ⟨nofun, rfl⟩
  | infinite negative => exact .inr ⟨nofun, rfl⟩
  | nan => exact .inr ⟨nofun, rfl⟩

/-- The points that the worker decodes. -/
def decodedPoints (pts : List (Floating × Floating)) : List (List ℚ) :=
  (pts.map fun p => Json.arr [jsonNumber p.1, jsonNumber p.2]).filterMap coercePoint

theorem decodedPoints_of_finite {pts : List (Floating × Floating)} (finite : FinitePoints pts) :
    (decodedPoints pts).map (fun p => p.map Floating.finite) = pts.map fun p => [p.1, p.2] := by
  induction pts with
  | nil => rfl
  | cons p pts ih =>
    obtain ⟨first, rest⟩ := List.forall_mem_cons.mp finite
    obtain ⟨x, y, rfl, decoded⟩ | ⟨lost, -⟩ := coercePoint_cases p
    · rw [decodedPoints, List.map_cons, List.filterMap_cons_some decoded, List.map_cons, List.map_cons]
      exact congrArg _ (ih rest)
    · exact absurd first lost

/-- All points arrive if and only if all are finite. -/
theorem decodedPoints_eq_iff (pts : List (Floating × Floating)) :
    (decodedPoints pts).map (fun p => p.map Floating.finite) = (pts.map fun p => [p.1, p.2]) ↔ FinitePoints pts := by
  constructor
  · intro arrived p mem
    have held : [p.1, p.2] ∈ (decodedPoints pts).map fun p => p.map Floating.finite := by
      rw [arrived]
      exact List.mem_map_of_mem mem
    obtain ⟨q, -, same⟩ := List.mem_map.mp held
    cases q with
    | nil => cases same
    | cons x q =>
      cases q with
      | nil => simp at same
      | cons y q =>
        simp only [List.map_cons, List.cons.injEq] at same
        rw [← same.1, ← same.2.1]
        exact ⟨rfl, rfl⟩
  · exact decodedPoints_of_finite

theorem decoded_region {pts : List (Floating × Floating)} (enough : pts = [] ∨ 3 ≤ pts.length) :
    asFloats (coercePoly (if pts.isEmpty then none else some (polygonToJsonArray pts))) = heldPolygon pts ↔
      FinitePoints pts := by
  cases enough with
  | inl empty =>
    rw [empty]
    exact iff_of_true rfl fun p mem => absurd mem List.not_mem_nil
  | inr enough =>
    have nonempty : pts.isEmpty = false := by
      cases pts with
      | nil => simp at enough
      | cons p pts => rfl
    simp only [nonempty, Bool.false_eq_true, if_false, polygonToJsonArray, coercePoly, List.length_map, heldPolygon]
    rw [← decodedPoints_eq_iff]
    split
    next few =>
      refine iff_of_false nofun fun arrived => ?_
      have length := congrArg List.length arrived
      rw [List.length_map, List.length_map] at length
      have : (decodedPoints pts).length < 3 := few.resolve_left (not_lt.mpr enough)
      omega
    next =>
      rw [asFloats, Option.map_some, Option.some.injEq]
      rfl

/-! ## Parsed settings -/

theorem matchModeName_normalizeMode {m : String} (known : m ∈ trackClassMatches) :
    matchModeName (normalizeMode m) = m := by
  have all : ∀ m ∈ trackClassMatches, matchModeName (normalizeMode m) = m := by decide
  exact all m known

theorem trackClassMatch_known (parse : String → Option Json) (settingValue : String → String) :
    (parsedSettings parse settingValue).trackClassMatch ∈ trackClassMatches := by
  simp only [parsedSettings]
  split
  next known => exact known
  next => decide

theorem default_finite : (float.round (3 / 10)).isFinite = true ∧ (float.round (1 / 2)).isFinite = true := by
  decide +kernel

theorem parsed_finite_iff (parse : String → Option Json) (settingValue : String → String) :
    SettingsFit parse settingValue ↔
      (parsedSettings parse settingValue).conf.isFinite = true ∧
      (parsedSettings parse settingValue).iou.isFinite = true ∧
      FinitePoints (parsedSettings parse settingValue).roi ∧
      FinitePoints (parsedSettings parse settingValue).inclusiveMask ∧
      FinitePoints (parsedSettings parse settingValue).exclusiveMask := by
  simp only [parsedSettings, parseFloatPercent_isFinite default_finite.1, parseFloatPercent_isFinite default_finite.2,
    parseBoxFigure_finite, parsePolygonJson_finite, Bool.not_eq_true']
  exact ⟨fun fit => ⟨fit.conf, fit.iou, fit.roi, fit.inclusive, fit.exclusive⟩,
    fun ⟨conf, iou, roi, inclusive, exclusive⟩ => ⟨conf, iou, roi, inclusive, exclusive⟩⟩

/-! ## The config -/

section

variable {A : Type} {camera : CameraSettings} {engine : EngineSettings} {cameraUuid : String} {env : Env A}
  {b : Behaviour A} {s s' : ServeState A}

theorem toFloat_eq_some_iff {v : Floating} {x : ℚ} : (jsonNumber v).toFloat? = some x ↔ v = .finite x := by
  cases v <;> simp [jsonNumber, Json.toFloat?]

theorem eq_finite {v : Floating} (finite : v.isFinite = true) : ∃ x, v = .finite x := by
  cases v with
  | finite x => exact ⟨x, rfl⟩
  | infinite negative => cases finite
  | nan => cases finite

/-- What becomes of a config message. -/
theorem handle_config :
    handle env b s (incoming cameraUuid (.config (configExtra camera engine))) =
      (handleConfig env b { s with cam := .str cameraUuid } (configFields cameraUuid camera engine)).map fun s => (s, {}) := by
  have uuid : Json.lookup "camera_uuid" (configFields cameraUuid camera engine) = some (.str cameraUuid) :=
    Json.lookup_set_same ..
  show handle env b s (.message (configFields cameraUuid camera engine)) = _
  rw [handle, uuid]
  simp only [typeIs_configFields]
  rfl

/-- It is handled if both thresholds are finite. -/
theorem handleConfig_iff :
    handleConfig env b s (configFields cameraUuid camera engine) = some s' ↔ ∃ conf iou,
      camera.conf = .finite conf ∧ camera.iou = .finite iou ∧
      s' = loadModel env b (swapAdapter b
        (s.configure (configFields cameraUuid camera engine) conf iou (some camera.trackMaxAge))
        (lower (strip (heldRuntime camera engine)))) camera.modelPath (lower (strip (heldDevice camera engine))) := by
  obtain ⟨-, conf, iou, -, -, maxAge, -⟩ := @lookup_always cameraUuid camera engine
  have age_read : optInt (some (.num (camera.trackMaxAge : ℚ))) = some (some camera.trackMaxAge) := by
    simp only [optInt, Json.toInt?, toInt_intCast, Option.map_some]
  constructor
  · intro handled
    obtain ⟨_, _, _, conf', iou', maxAge', names, conf_read, iou_read, age, done⟩ := handleConfig_eq_some.mp handled
    rw [conf, Option.getD_some, toFloat_eq_some_iff] at conf_read
    rw [iou, Option.getD_some, toFloat_eq_some_iff] at iou_read
    rw [maxAge, age_read, Option.some.injEq] at age
    rw [configNames_configFields, Option.some.injEq, Prod.mk.injEq, Prod.mk.injEq] at names
    obtain ⟨runtime, device, model⟩ := names
    exact ⟨conf', iou', conf_read, iou_read, by rw [done, ← age, runtime, device, model]⟩
  · intro given
    obtain ⟨conf', iou', is_conf, is_iou, done⟩ := given
    exact handleConfig_eq_some.mpr ⟨_, _, _, conf', iou', _, configNames_configFields,
      by rw [conf, Option.getD_some, toFloat_eq_some_iff, is_conf],
      by rw [iou, Option.getD_some, toFloat_eq_some_iff, is_iou], by rw [maxAge, age_read], done⟩

/-- A tracker, made or told its parameters by the config. -/
theorem configTracker_agrees (tracker : Option ByteTrackLite) {matching : String} (known : matching ∈ trackClassMatches)
    (maxAge : ℤ) :
    (configTracker tracker (some maxAge) (some matching)).maxAge = maxAge ∧
      matchModeName (configTracker tracker (some maxAge) (some matching)).matchMode = matching := by
  cases tracker with
  | none =>
    simp only [configTracker, ByteTrackLite.init, Option.getD_some, matchModeName_normalizeMode known, and_self]
  | some t =>
    simp only [configTracker, ByteTrackLite.setParams, Option.getD_some, Option.map_some,
      matchModeName_normalizeMode known, and_self]

/-- What a config that is handled leaves agrees with what is held as far as the points arrive. -/
theorem agrees_iff (known : camera.trackClassMatch ∈ trackClassMatches)
    (regions : ∀ pts ∈ [camera.roi, camera.inclusiveMask, camera.exclusiveMask], pts = [] ∨ 3 ≤ pts.length)
    {cam : Json} (handled : handleConfig env b { s with cam := cam } (configFields cameraUuid camera engine) = some s') :
    Agrees camera engine env b s s' ↔
      FinitePoints camera.roi ∧ FinitePoints camera.inclusiveMask ∧ FinitePoints camera.exclusiveMask := by
  obtain ⟨conf, iou, is_conf, is_iou, done⟩ := handleConfig_iff.mp handled
  obtain ⟨-, -, -, -, -, -, matching⟩ := @lookup_always cameraUuid camera engine
  obtain ⟨-, roi, inclusive, exclusive⟩ := @lookup_optional cameraUuid camera engine
  have region (pts : List (Floating × Floating)) (mem : pts ∈ [camera.roi, camera.inclusiveMask, camera.exclusiveMask]) :=
    decoded_region (regions pts mem)
  obtain ⟨_, _, _, _, swapped⟩ := swapAdapter_keeps b
    (ServeState.configure { s with cam := cam } (configFields cameraUuid camera engine) conf iou (some camera.trackMaxAge))
    (lower (strip (heldRuntime camera engine)))
  obtain ⟨adapter, device, model, loaded⟩ := loadModel_keeps env b _ camera.modelPath (lower (strip (heldDevice camera engine)))
  rw [loaded, swapped] at done
  obtain ⟨_, _, _, is_names, names⟩ := handleConfig_adapter handled
  rw [configNames_configFields, Option.some.injEq, Prod.mk.injEq, Prod.mk.injEq] at is_names
  rw [← is_names.1, ← is_names.2.1, ← is_names.2.2] at names
  have tracked := configTracker_agrees s.tracker known camera.trackMaxAge
  subst done
  constructor
  · intro agrees
    have roi_held := agrees.roi
    have inclusive_held := agrees.inclusive
    have exclusive_held := agrees.exclusive
    simp only [ServeState.configure, roi] at roi_held
    simp only [ServeState.configure, inclusive] at inclusive_held
    simp only [ServeState.configure, exclusive] at exclusive_held
    exact ⟨(region _ (by simp)).mp roi_held, (region _ (by simp)).mp inclusive_held,
      (region _ (by simp)).mp exclusive_held⟩
  · intro finite
    obtain ⟨roi_finite, inclusive_finite, exclusive_finite⟩ := finite
    exact {
      conf := is_conf.symm
      iou := is_iou.symm
      classes := classFilter_configFields
      roi := by rw [ServeState.configure, roi, (region _ (by simp)).mpr roi_finite]
      inclusive := by rw [ServeState.configure, inclusive, (region _ (by simp)).mpr inclusive_finite]
      exclusive := by rw [ServeState.configure, exclusive, (region _ (by simp)).mpr exclusive_finite]
      tracker := by
        rw [ServeState.configure, matching]
        exact ⟨_, rfl, tracked⟩
      names := names }

/-- Whatever the settings say and whatever state the worker is in: the config is handled without raising
    and leaves what the agent holds if and only if the settings only hold finite numbers. -/
theorem config_agrees_iff (parse : String → Option Json) (settingValue : String → String) (engine : EngineSettings)
    (cameraUuid : String) (env : Env A) (b : Behaviour A) (s : ServeState A) :
    (∃ s', handle env b s (incoming cameraUuid (.config (configExtra (parsedSettings parse settingValue) engine))) =
        some (s', {}) ∧ Agrees (parsedSettings parse settingValue) engine env b s s') ↔
      SettingsFit parse settingValue := by
  have known := trackClassMatch_known parse settingValue
  have regions : ∀ pts ∈ [(parsedSettings parse settingValue).roi, (parsedSettings parse settingValue).inclusiveMask,
      (parsedSettings parse settingValue).exclusiveMask], pts = [] ∨ 3 ≤ pts.length := by
    simp only [parsedSettings, List.forall_mem_cons]
    exact ⟨parseBoxFigure_length .., parsePolygonJson_length .., parsePolygonJson_length .., nofun⟩
  rw [parsed_finite_iff, handle_config]
  generalize parsedSettings parse settingValue = camera at *
  constructor
  · intro agreed
    obtain ⟨s', handled, agrees⟩ := agreed
    obtain ⟨_, handled, same⟩ := Option.map_eq_some_iff.mp handled
    cases same
    obtain ⟨conf, iou, is_conf, is_iou, -⟩ := handleConfig_iff.mp handled
    exact ⟨by rw [is_conf]; rfl, by rw [is_iou]; rfl, (agrees_iff known regions handled).mp agrees⟩
  · intro finite
    obtain ⟨conf_finite, iou_finite, points⟩ := finite
    obtain ⟨conf, is_conf⟩ := eq_finite conf_finite
    obtain ⟨iou, is_iou⟩ := eq_finite iou_finite
    have handled := (@handleConfig_iff A camera engine cameraUuid env b { s with cam := .str cameraUuid } _).mpr
      ⟨conf, iou, is_conf, is_iou, rfl⟩
    exact ⟨_, by rw [handled]; rfl, (agrees_iff known regions handled).mpr points⟩

end

/-- A threshold that is no number. -/
def nanConf (name : String) : String := if name = "conf" then "nan" else ""

/-- `std::stof` reads it, the config carries null, and `float(None)` raises. -/
theorem nan_conf_raises :
    handle smallEnv (smallRuntimes.behaviour (fun _ _ _ _ _ => none) 0) {}
      (incoming "cam" (.config (configExtra (parsedSettings (fun _ => none) nanConf) ⟨"onnx", "cpu", 1⟩))) = none :=
  Option.isNone_iff_eq_none.mp (by decide +kernel)

end VisionNx.Agent
