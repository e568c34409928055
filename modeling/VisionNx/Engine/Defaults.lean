import VisionNx.Agent.DeviceAgent
import VisionNx.Engine.EnvProbe

/-! # The engine's defaults

The engine derives its default runtime and device twice.  `initDefaultsFromProbe` takes
the first device of the first runtime, and `buildManifest` the first of all devices in
the order of the map.  Both are the same as long as the first runtime has answered. -/

namespace VisionNx.Engine

open OrderedMaps VisionNx.Agent

/-! ## initDefaultsFromProbe -/

/-- The members that the constructor sets from the probe. -/
def initDefaultsFromProbe (env : EnvProbe) : EngineSettings :=
  let runtime := env.runtimes.headD "<none>"
  { runtime
    device := ((env.devicesByRuntime.find? runtime).getD []).headD "<none>"
    workerCount := 1 }

/-! ## buildManifest -/

structure ComboBox where
  name : String
  defaultValue : String
  range : List String

/-- The items of the two settings models that depend on the probe. -/
structure Manifest where
  engineSettingsModel : List ComboBox
  deviceAgentSettingsModel : List ComboBox

/-- `deviceUnion.push_back(d)`, if `d` has not been seen. -/
def pushNew (deviceUnion : List String) (d : String) : List String :=
  if d ∈ deviceUnion then deviceUnion else deviceUnion ++ [d]

def deviceUnion (devicesByRuntime : OrderedMap String (List String)) : List String :=
  devicesByRuntime.entries.foldl (fun union kv => kv.2.foldl pushNew union) []

def orNone (items : List String) : List String := if items.isEmpty then ["<none>"] else items

def buildManifest (env : EnvProbe) : Manifest :=
  let runtimes := orNone env.runtimes
  let devices := orNone (deviceUnion env.devicesByRuntime)
  let items : List ComboBox := [
    { name := "runtime", defaultValue := runtimes.headD "", range := runtimes },
    { name := "device", defaultValue := devices.headD "", range := devices }]
  { engineSettingsModel := items, deviceAgentSettingsModel := items }

theorem orNone_ne_nil (items : List String) : orNone items ≠ [] := by
  cases items with
  | nil => exact List.cons_ne_nil _ _
  | cons item items => exact List.cons_ne_nil _ _

/-- Every default is one of the values to choose from. -/
theorem default_mem_range (env : EnvProbe) :
    ∀ box ∈ (buildManifest env).engineSettingsModel ++ (buildManifest env).deviceAgentSettingsModel,
      box.defaultValue ∈ box.range := by
  have head_mem (items : List String) : (orNone items).headD "" ∈ orNone items := by
    cases at_head : orNone items with
    | nil => exact absurd at_head (orNone_ne_nil items)
    | cons item items => exact List.mem_cons_self
  intro box mem
  simp only [buildManifest, List.mem_append, List.mem_cons, List.not_mem_nil, or_false] at mem
  obtain (rfl | rfl) | (rfl | rfl) := mem
  · exact head_mem _
  · exact head_mem _
  · exact head_mem _
  · exact head_mem _

theorem headD_orNone (items : List String) : (orNone items).headD "" = items.headD "<none>" := by
  cases items with
  | nil => rfl
  | cons item items => rfl

/-- The first device stays the first. -/
theorem headD_foldl_pushNew (devices union : List String) (default : String) :
    (devices.foldl pushNew union).headD default = (union ++ devices).headD default := by
  induction devices generalizing union with
  | nil => rw [List.foldl_nil, List.append_nil]
  | cons d devices ih =>
    rw [List.foldl_cons, ih, pushNew]
    cases union with
    | nil => rfl
    | cons first union =>
      split
      · rfl
      · rfl

theorem headD_deviceUnion (map : OrderedMap String (List String)) (default : String) :
    (deviceUnion map).headD default = (map.entries.flatMap (·.2)).headD default := by
  rw [deviceUnion, ← List.foldl_flatMap, headD_foldl_pushNew, List.nil_append]

/-! ## Agreement -/

/-- What `initDefaultsFromProbe` stores is what the manifest gives as the defaults of both settings
    models, and if any device is reported, the default device is reported for the default runtime. -/
structure InSync (probe : Probe) (engine : EngineSettings) (manifest : Manifest) : Prop where
  runtime : ∀ box ∈ manifest.engineSettingsModel ++ manifest.deviceAgentSettingsModel,
    box.name = "runtime" → box.defaultValue = engine.runtime
  device : ∀ box ∈ manifest.engineSettingsModel ++ manifest.deviceAgentSettingsModel,
    box.name = "device" → box.defaultValue = engine.device
  reported : (∃ entry ∈ probe.devices, entry.2 ≠ []) →
    ∃ entry ∈ probe.devices, entry.1 = engine.runtime ∧ engine.device ∈ entry.2

/-- The first runtime that is imported answers the queries behind its import, or none does. -/
def Modules.FirstAnswers (m : Modules) : Prop :=
  (∀ entry, m.imported.head? = some entry → entry.2 ≠ none) ∨ ∀ entry ∈ m.imported, entry.2 = none

theorem manifest_defaults (env : EnvProbe) (box : ComboBox)
    (mem : box ∈ (buildManifest env).engineSettingsModel ++ (buildManifest env).deviceAgentSettingsModel) :
    (box.name = "runtime" → box.defaultValue = env.runtimes.headD "<none>") ∧
      (box.name = "device" → box.defaultValue = (env.devicesByRuntime.entries.flatMap (·.2)).headD "<none>") := by
  rw [← headD_orNone env.runtimes, ← headD_deviceUnion, ← headD_orNone (deviceUnion _)]
  simp only [buildManifest, List.mem_append, List.mem_cons, List.not_mem_nil, or_false, or_self] at mem
  cases mem with
  | inl at_runtime =>
    subst at_runtime
    exact ⟨fun _ => rfl, fun other => by simp at other⟩
  | inr at_device =>
    subst at_device
    exact ⟨fun other => by simp at other, fun _ => rfl⟩

/-- Both defaults agree exactly if the two devices do. -/
theorem inSync_iff (probe : Probe) (env : EnvProbe) :
    InSync probe (initDefaultsFromProbe env) (buildManifest env) ↔
      (env.devicesByRuntime.entries.flatMap (·.2)).headD "<none>" = (initDefaultsFromProbe env).device ∧
      ((∃ entry ∈ probe.devices, entry.2 ≠ []) → ∃ entry ∈ probe.devices,
        entry.1 = (initDefaultsFromProbe env).runtime ∧ (initDefaultsFromProbe env).device ∈ entry.2) := by
  constructor
  · intro in_sync
    have device := in_sync.device _ (List.mem_append_left _ (List.mem_cons_of_mem _ List.mem_cons_self)) rfl
    exact ⟨((manifest_defaults env _ (List.mem_append_left _
      (List.mem_cons_of_mem _ List.mem_cons_self))).2 rfl).symm.trans device, in_sync.reported⟩
  · rintro ⟨device, reported⟩
    refine ⟨fun box mem named => (manifest_defaults env box mem).1 named, fun box mem named => ?_, reported⟩
    rw [(manifest_defaults env box mem).2 named, device]

/-- With no runtime at all everything is `"<none>"`. -/
theorem initDefaults_nil {env : EnvProbe} (none_imported : env.runtimes = [])
    (no_devices : env.devicesByRuntime.entries = []) :
    (initDefaultsFromProbe env).runtime = "<none>" ∧ (initDefaultsFromProbe env).device = "<none>" := by
  have absent : env.devicesByRuntime.find? "<none>" = none :=
    OrderedMap.find?_eq_none (by rw [no_devices]; exact fun _ mem => absurd mem List.not_mem_nil)
  simp [initDefaultsFromProbe, none_imported, absent]

theorem initDefaults_cons {env : EnvProbe} {runtime : String} {devs : List String} {runtimes : List String}
    {entries : List (String × List String)} (imported : env.runtimes = runtime :: runtimes)
    (devices : env.devicesByRuntime.entries = (runtime, devs) :: entries) :
    (initDefaultsFromProbe env).runtime = runtime ∧ (initDefaultsFromProbe env).device = devs.headD "<none>" := by
  have found : env.devicesByRuntime.find? runtime = some devs :=
    OrderedMap.find?_eq_some_iff.mpr (by rw [devices]; exact List.mem_cons_self)
  simp [initDefaultsFromProbe, imported, found]

/-- If the first runtime has answered, its first device is the first of all. -/
theorem inSync_of_answer {m : Modules} {env : EnvProbe} {runtime : String} {devs : List String}
    {rest : List (String × Option (List String))} (imported : m.imported = (runtime, some devs) :: rest)
    (runtimes : env.runtimes = m.imported.map (·.1))
    (devices : env.devicesByRuntime.entries = m.imported.map fun entry => (entry.1, entry.2.getD [])) :
    InSync (envProbe m) (initDefaultsFromProbe env) (buildManifest env) := by
  have first : (runtime, some devs) ∈ m.imported := imported ▸ List.mem_cons_self
  obtain ⟨d, others, rfl⟩ := List.exists_cons_of_ne_nil (devices_nonempty first)
  rw [inSync_iff, envProbe_eq, devices, imported]
  rw [imported, List.map_cons] at runtimes devices
  obtain ⟨is_runtime, is_device⟩ := initDefaults_cons runtimes devices
  rw [is_runtime, is_device]
  refine ⟨rfl, fun _ => ⟨(runtime, d :: others), ?_, rfl, List.mem_cons_self⟩⟩
  exact List.mem_filterMap.mpr ⟨_, List.mem_cons_self, rfl⟩

/-- If it has not, the engine's device is `"<none>"`, and this only fits if no runtime has. -/
theorem inSync_iff_of_raised {m : Modules} {env : EnvProbe} {runtime : String}
    {rest : List (String × Option (List String))} (imported : m.imported = (runtime, none) :: rest)
    (runtimes : env.runtimes = m.imported.map (·.1))
    (devices : env.devicesByRuntime.entries = m.imported.map fun entry => (entry.1, entry.2.getD [])) :
    InSync (envProbe m) (initDefaultsFromProbe env) (buildManifest env) ↔ ∀ entry ∈ m.imported, entry.2 = none := by
  have first : (runtime, none) ∈ m.imported := imported ▸ List.mem_cons_self
  rw [inSync_iff, envProbe_eq]
  obtain ⟨is_runtime, is_device⟩ : (initDefaultsFromProbe env).runtime = runtime ∧
      (initDefaultsFromProbe env).device = "<none>" := by
    rw [imported, List.map_cons] at runtimes devices
    exact initDefaults_cons runtimes devices
  rw [is_runtime, is_device, devices]
  constructor
  · rintro ⟨-, reported⟩ ⟨other, query⟩ mem
    cases query with
    | none => rfl
    | some devs =>
      obtain ⟨⟨_, devs'⟩, answer, rfl, -⟩ := reported ⟨_, mem_answered.mpr mem, devices_nonempty mem⟩
      cases query_unique first (mem_answered.mp answer)
  · intro silent
    refine ⟨?_, ?_⟩
    · have empty : (m.imported.map fun entry => (entry.1, entry.2.getD [])).flatMap (·.2) = [] := by
        refine List.flatMap_eq_nil_iff.mpr fun entry mem => ?_
        obtain ⟨entry', mem', rfl⟩ := List.mem_map.mp mem
        rw [silent entry' mem']
        rfl
      rw [empty, List.headD_nil]
    · rintro ⟨⟨other, devs⟩, answer, -⟩
      cases silent _ (mem_answered.mp answer)

/-- Whatever the probe finds, the defaults of the engine and of the manifest are in sync
    exactly if the first runtime has answered or none has. -/
theorem defaults_in_sync_iff (dump : Json → List UInt8) (parse : List UInt8 → Option Json) (m : Modules)
    (trips : parse (dump (envProbe m).json) = some (envProbe m).json) :
    let env := probeEnvironment parse (some (dump (envProbe m).json))
    InSync (envProbe m) (initDefaultsFromProbe env) (buildManifest env) ↔ m.FirstAnswers := by
  intro env
  obtain ⟨runtimes, devices⟩ := probeEnvironment_envProbe trips
  cases imported : m.imported with
  | nil =>
    have none_first : m.FirstAnswers := .inr (by rw [imported]; exact fun _ mem => absurd mem List.not_mem_nil)
    refine iff_of_true ?_ none_first
    rw [imported, List.map_nil] at runtimes devices
    obtain ⟨-, is_device⟩ := initDefaults_nil runtimes devices
    rw [inSync_iff, is_device, devices, envProbe_eq, imported]
    refine ⟨rfl, ?_⟩
    rintro ⟨_, mem, -⟩
    exact absurd mem List.not_mem_nil
  | cons first rest =>
    obtain ⟨runtime, query⟩ := first
    have head : m.imported.head? = some (runtime, query) := by rw [imported, List.head?_cons]
    cases query with
    | some devs =>
      refine iff_of_true (inSync_of_answer imported runtimes devices) (.inl fun entry at_head => ?_)
      cases head.symm.trans at_head
      exact Option.some_ne_none devs
    | none =>
      refine (inSync_iff_of_raised imported runtimes devices).trans ⟨.inr, fun answers => ?_⟩
      exact answers.resolve_left fun first => first _ head rfl

/-- When the script cannot be run, or prints something else, nothing is found on either side. -/
theorem inSync_of_failure {parse : List UInt8 → Option Json} {rawJson : Option (List UInt8)}
    (failed : ∀ fields, rawJson.bind parse ≠ some (.obj fields)) :
    InSync {} (initDefaultsFromProbe (probeEnvironment parse rawJson)) (buildManifest (probeEnvironment parse rawJson)) := by
  have empty : probeEnvironment parse rawJson = {} := by
    rw [probeEnvironment]
    split
    next fields parsed => exact absurd parsed (failed fields)
    next => rfl
  rw [empty, inSync_iff]
  refine ⟨(initDefaults_nil rfl rfl).2.symm, ?_⟩
  rintro ⟨_, mem, -⟩
  exact absurd mem List.not_mem_nil

/-! ## A query that raises -/

/-- `onnxruntime` without its native library, and OpenVINO on a CPU. -/
def brokenOnnx : Modules where
  onnxruntime := some ⟨none⟩
  openvino := some ⟨some ["CPU"]⟩

/-- A JSON library that has to carry one text only. -/
def parseOnly (json : Json) (text : List UInt8) : Option Json := if text = dumpText json then some json else none

/-- On its own, an OpenVINO that answers is the default everywhere. -/
theorem defaults_in_sync_iff_openvino :
    let m : Modules := { openvino := some ⟨some ["GPU", "CPU"]⟩ }
    let env := probeEnvironment (parseOnly (envProbe m).json) (some (dumpText (envProbe m).json))
    InSync (envProbe m) (initDefaultsFromProbe env) (buildManifest env) ∧
      (initDefaultsFromProbe env).device = "intel:gpu" := by
  intro m env
  have answers : m.FirstAnswers := .inl fun entry at_head => by
    cases at_head
    exact Option.some_ne_none _
  exact ⟨(defaults_in_sync_iff dumpText (parseOnly (envProbe m).json) m (if_pos rfl)).mpr answers, by decide +kernel⟩

/-- The runtimes agree, but the engine has no device where the manifest says `"cpu"`. -/
theorem defaults_diverge :
    ¬ ∀ (dump : Json → List UInt8) (parse : List UInt8 → Option Json) (m : Modules),
      parse (dump (envProbe m).json) = some (envProbe m).json →
      let env := probeEnvironment parse (some (dump (envProbe m).json))
      InSync (envProbe m) (initDefaultsFromProbe env) (buildManifest env) := by
  intro claimed
  have in_sync := claimed dumpText (parseOnly (envProbe brokenOnnx).json) brokenOnnx (if_pos rfl)
  have device := in_sync.device _ (List.mem_append_left _ (List.mem_cons_of_mem _ List.mem_cons_self)) rfl
  revert device
  decide +kernel

end VisionNx.Engine
