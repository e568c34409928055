import VisionNx.Agent.NarrowerSettings
import VisionNx.Agent.ObjectTypes
import VisionNx.Worker.SameClasses

/-! # Which classes are selected

However the classes are ticked, only the set of those that are selected matters to what is
shown.  So `Select all` shows what is shown when nothing was ever ticked. -/

namespace VisionNx.Agent

open Client Worker

/-- The class is let through, which all are as long as nothing was ticked. -/
def CameraSettings.Selects (c : CameraSettings) (id : ℕ) : Prop := c.classesSet = true → id ∈ namesToIds c.classes

/-- Settings that select the same of the 80 classes and are the same otherwise. -/
structure CameraSettings.SameSelection (c c' : CameraSettings) : Prop where
  others : c' = { c with classes := c'.classes, classesSet := c'.classesSet }
  selects : ∀ id < 80, c.Selects id ↔ c'.Selects id

/-- `class_filter_ids` for the settings. -/
def CameraSettings.filterIds (c : CameraSettings) : Option (List ℕ) :=
  if c.classesSet then some (namesToIds c.classes) else none

variable {cameraUuid : String} {c c' : CameraSettings} {engine : EngineSettings}

theorem namesToIds_lt {names : List String} {id : ℕ} (mem : id ∈ namesToIds names) : id < 80 := by
  obtain ⟨n, -, known⟩ := mem_namesToIds mem
  exact (List.getElem?_eq_some_iff.mp known).1

theorem filterIds_empty : c.filterIds = some [] ↔ ∀ id < 80, ¬c.Selects id := by
  rw [CameraSettings.filterIds]
  cases set : c.classesSet with
  | false =>
    refine ⟨nofun, fun no_id => ?_⟩
    exact absurd (fun is_set => by rw [set] at is_set; cases is_set) (no_id 0 (by decide))
  | true =>
    simp only [if_true, Option.some.injEq, CameraSettings.Selects, set, forall_const]
    constructor
    · intro empty id _ mem
      rw [empty] at mem
      cases mem
    · intro no_id
      apply List.eq_nil_iff_forall_not_mem.mpr
      intro id mem
      exact no_id id (namesToIds_lt mem) mem

theorem filterIds_passes {cls : ℤ} (nonneg : 0 ≤ cls) :
    passesFilter c.filterIds cls = true ↔ c.filterIds = some [] ∨ c.Selects cls.toNat := by
  rw [CameraSettings.filterIds, CameraSettings.Selects]
  cases set : c.classesSet with
  | false => simp [passesFilter]
  | true =>
    simp only [if_true, Option.some.injEq, forall_const]
    by_cases empty : namesToIds c.classes = []
    · simp [empty, passesFilter]
    · rw [passesFilter_ids empty]
      constructor
      · rintro ⟨id, mem, rfl⟩
        exact .inr (by rwa [Int.toNat_natCast])
      · intro selected
        exact ⟨cls.toNat, selected.resolve_left empty, Int.toNat_of_nonneg nonneg⟩

theorem CameraSettings.SameSelection.sameFilter (same : c.SameSelection c') : SameFilter c.filterIds c'.filterIds := by
  have empty : c.filterIds = some [] ↔ c'.filterIds = some [] := by
    rw [filterIds_empty, filterIds_empty]
    exact forall₂_congr fun id known => not_congr (same.selects id known)
  refine ⟨empty, fun cls nonneg below => ?_⟩
  rw [Bool.eq_iff_iff, filterIds_passes nonneg, filterIds_passes nonneg, empty, same.selects cls.toNat (by omega)]

theorem lookup_set_congr {key : String} {fields fields' : List (String × Json)}
    (same : Json.lookup key fields' = Json.lookup key fields) (k : String) (v : Json) :
    Json.lookup key (Json.set k v fields') = Json.lookup key (Json.set k v fields) := by
  by_cases is_key : k = key
  · subst is_key
    rw [Json.lookup_set_same, Json.lookup_set_same]
  · rw [Json.lookup_set_of_ne is_key, Json.lookup_set_of_ne is_key, same]

theorem lookup_unselected (key : String) (other : key ≠ "classes") (classes : List String) (classesSet : Bool) :
    Json.lookup key (configExtra { c with classes := classes, classesSet := classesSet } engine) =
      Json.lookup key (configExtra c engine) := by
  have spelled : ∀ (classes : List String) (classesSet : Bool),
      Json.lookup key (if classesSet then [("classes", .arr (classes.map .str))] else []) = none := by
    intro classes classesSet
    cases classesSet with
    | false => rfl
    | true => simp [Json.lookup, other.symm]
  simp only [configExtra, lookup_append, spelled, Option.or_none]

/-- What the worker reads of the two configs. -/
theorem CameraSettings.SameSelection.sameButClasses (same : c.SameSelection c') :
    SameButClasses (configFields cameraUuid c engine) (configFields cameraUuid c' engine) := by
  refine ⟨fun key other => ?_, ?_⟩
  · have extra : Json.lookup key (configExtra c' engine) = Json.lookup key (configExtra c engine) := by
      rw [same.others]
      exact lookup_unselected key other c'.classes c'.classesSet
    rw [configFields, configFields, ClientMessage.fields, ClientMessage.fields]
    exact lookup_set_congr (lookup_set_congr extra _ _) _ _
  · rw [classFilter_configFields, classFilter_configFields]
    exact same.sameFilter

/-- Two agents with the same frames, whose settings differ in nothing but how they select the same
    classes, are sent the same replies, with the same boxes and the same track ids. -/
theorem same_classes_same_replies (pointPolygonTest : List (ℤ × ℤ) → ℚ × ℚ → Bool) (cv2 : Cv2) (cameraUuid : String)
    {msgs msgs' : List ClientMessage} (varied : List.Forall₂ (Varied CameraSettings.SameSelection) msgs msgs')
    (behaviour : ℕ → Behaviour Adapter) (served : ∀ i, Served cv2 (fun _ => True) (behaviour i)) :
    (Worker.run (adapterEnv pointPolygonTest) {} (eventsOf cameraUuid behaviour msgs)).2 =
      (Worker.run (adapterEnv pointPolygonTest) {} (eventsOf cameraUuid behaviour msgs')).2 := by
  rw [← List.forall₂_eq_eq_eq]
  refine @run_compared Adapter (adapterEnv pointPolygonTest) {} {} (SelectsSame fun _ => True) Eq
    (fun e e' => Respelled e.1 e'.1 ∧ e'.2 = e.2 ∧ Served cv2 (fun _ => True) e.2) ?_ _ _ ?_ (selectsSame_start _)
  · rintro s s' ⟨m, b⟩ ⟨m', b'⟩ selects ⟨respelled, same, served⟩
    obtain rfl : b' = b := same
    exact selects.step served respelled
  · refine forall₂_eventsOf varied behaviour fun i m m' varied => ⟨?_, rfl, served i⟩
    cases varied with
    | config same => exact .config config_incoming config_incoming same.sameButClasses
    | other others => exact .other (config_of_other others)

/-! ## The buttons of the settings page -/

theorem namesToIds_all : namesToIds (kCoco80.map (·.name)) = List.range 80 := by
  rw [kCoco80_names]
  decide +kernel

/-- `Select all` selects what is selected as long as nothing was ever ticked. -/
theorem selectAll_sameSelection {parse : String → Option Json} {settingValue : String → String}
    (never : NeverSet parse (settingValue "classes"))
    (reads : parse allClassesJsonArray = some (.arr (kCoco80.map fun c => .str c.name))) :
    (parsedSettings parse settingValue).SameSelection
      (parsedSettings parse fun name =>
        if name = "classes" then (doGetSettingsOnActiveSettingChange "classesSelectAll").getD "" else settingValue name) := by
  have unset := parseClassesJson_neverSet never
  have all : parseClassesJson parse allClassesJsonArray = (kCoco80.map (·.name), true) :=
    parseClassesJson_lists ⟨by decide +kernel, _, reads, by simp [List.filterMap_map, Function.comp_def, stringItem]⟩
  refine ⟨?_, fun id known => ?_⟩
  · simp [parsedSettings]
  · simp [CameraSettings.Selects, parsedSettings, unset, doGetSettingsOnActiveSettingChange, all, namesToIds_all, known]

/-! ## An example -/

def parseAll (raw : String) : Option Json :=
  if raw = allClassesJsonArray then some (.arr (kCoco80.map fun c => .str c.name)) else none

/-- The settings of the yard, as they are stored and after `Select all`. -/
def yardValue (name : String) : String := if name = "modelPath" then "yard.onnx" else ""

def yardAllValue (name : String) : String :=
  if name = "classes" then (doGetSettingsOnActiveSettingChange "classesSelectAll").getD "" else yardValue name

/-- The car and the person are shown after `Select all`, as they were before. -/
theorem same_classes_same_replies_yard :
    (yardEffects (parsedSettings parseAll yardAllValue)).flatMap (·.replies.map (·.boxes.map (·.cls))) =
        [[some 2, some 0]] ∧
      yardEffects (parsedSettings parseAll yardValue) = yardEffects (parsedSettings parseAll yardAllValue) := by
  have same : (parsedSettings parseAll yardValue).SameSelection (parsedSettings parseAll yardAllValue) :=
    selectAll_sameSelection (.inl rfl) (if_pos rfl)
  have varied : List.Forall₂ (Varied CameraSettings.SameSelection) (yardMessages (parsedSettings parseAll yardValue))
      (yardMessages (parsedSettings parseAll yardAllValue)) :=
    .cons (.other nofun) (.cons (.config same) (.cons (.other nofun) .nil))
  refine ⟨by decide +kernel, ?_⟩
  exact same_classes_same_replies (fun _ _ => true) carCv2 "cam" varied (fun _ => yardBehaviour) fun _ =>
    ⟨yardRuntimes, 0, yardRuntimes_detects.mono fun _ _ => trivial, rfl⟩

end VisionNx.Agent
