import Mathlib.Data.String.Basic
import VisionNx.Json
import VisionNx.Library.OrderedMaps

/-! # The probe of the environment

`env_probe.py` tries four runtimes.  It lists a runtime as soon as its module is imported,
and the devices only once the queries behind the import have returned, so a query that
raises leaves a runtime without devices.  `probeEnvironment` parses what it prints. -/

namespace VisionNx.Engine

open OrderedMaps Python

/-! ## Third-party modules -/

/-- `onnxruntime`; here and below, `none` is an exception of the query. -/
structure OnnxRuntime where
  getAvailableProviders : Option (List String)

structure OpenVino where
  /-- `Core().available_devices` -/
  availableDevices : Option (List String)

structure Torch where
  cudaIsAvailable : Option Bool
  cudaDeviceCount : Option ℤ
  /-- `backends.mps.is_available()`, if there is that attribute -/
  mpsIsAvailable : Option (Option Bool)
  /-- `xpu.is_available()`, if there is that attribute -/
  xpuIsAvailable : Option (Option Bool)

/-- The modules that are installed; `none` where the import raises. -/
structure Modules where
  onnxruntime : Option OnnxRuntime := none
  openvino : Option OpenVino := none
  torch : Option Torch := none
  tensorrt : Bool := false

/-! ## env_probe.py -/

def OnnxRuntime.devices (ort : OnnxRuntime) : Option (List String) :=
  ort.getAvailableProviders.map fun provs =>
    (if "CUDAExecutionProvider" ∈ provs then ["cuda:0"] else []) ++
    (if "OpenVINOExecutionProvider" ∈ provs then ["intel:gpu"] else []) ++ ["cpu"]

def openVinoDevice (d : String) : String :=
  if d = "CPU" then "cpu" else if d = "GPU" then "intel:gpu" else if d = "NPU" then "intel:npu" else lower d

def OpenVino.devices (ov : OpenVino) : Option (List String) :=
  ov.availableDevices.map fun available =>
    let devs := available.map openVinoDevice
    if devs.isEmpty then ["cpu"] else devs

/-- A device that is listed if an attribute is there and says that it is available. -/
def optionalDevice (name : String) : Option (Option Bool) → Option (List String)
  | none => some []
  | some isAvailable => isAvailable.map fun available => if available then [name] else []

def Torch.cudaDevices (t : Torch) : Option (List String) :=
  t.cudaIsAvailable.bind fun available =>
    if available then t.cudaDeviceCount.map fun n => (List.range n.toNat).map fun i => "cuda:" ++ toString i
    else some []

def Torch.devices (t : Torch) : Option (List String) := do
  let cuda ← t.cudaDevices
  let mps ← optionalDevice "mps" t.mpsIsAvailable
  let xpu ← optionalDevice "xpu" t.xpuIsAvailable
  return "cpu" :: (cuda ++ mps ++ xpu)

/-- The lists that the script fills. -/
structure Probe where
  runtimes : List String := []
  devices : List (String × List String) := []

/-- One of the four `try` blocks: a runtime, and its device queries if its import returns. -/
abbrev TryBlock : Type := String × Option (Option (List String))

def Modules.tryBlocks (m : Modules) : List TryBlock :=
  [("onnx", m.onnxruntime.map OnnxRuntime.devices), ("openvino", m.openvino.map OpenVino.devices),
    ("pytorch", m.torch.map Torch.devices), ("tensorrt", if m.tensorrt then some (some ["cuda:0"]) else none)]

def Probe.tryBlock (p : Probe) : TryBlock → Probe
  | (_, none) => p
  -- The runtime has been appended before the query raises.
  | (runtime, some none) => { p with runtimes := p.runtimes ++ [runtime] }
  | (runtime, some (some devs)) =>
    { p with runtimes := p.runtimes ++ [runtime], devices := p.devices ++ [(runtime, devs)] }

def envProbe (m : Modules) : Probe := m.tryBlocks.foldl Probe.tryBlock {}

/-- What the script prints. -/
def Probe.json (p : Probe) : Json :=
  .obj [("runtimes", .arr (p.runtimes.map .str)),
    ("devices", .obj (p.devices.map fun entry => (entry.1, .arr (entry.2.map .str))))]

/-! ## probeEnvironment -/

/-- The members of `EnvProbe` that the engine reads. -/
structure EnvProbe where
  runtimes : List String := []
  devicesByRuntime : OrderedMap String (List String) := .empty

/-- The strings among `v.array_items()`. -/
def stringItems : Json → List String
  | .arr items => items.filterMap fun item => match item with
    | .str s => some s
    | _ => none
  | _ => []

def objectItems : Json → List (String × Json)
  | .obj fields => fields
  | _ => []

/-- `devicesByRuntime` with an empty list for each runtime that has none: the log line looks
    them up with `operator[]`. -/
def logRuntimes (runtimes : List String) (devices : OrderedMap String (List String)) : OrderedMap String (List String) :=
  runtimes.foldl (fun map runtime => map.alter runtime (·.getD [])) devices

def readDevices (fields : List (String × Json)) : OrderedMap String (List String) :=
  fields.foldl (fun map field => map.alter field.1 fun _ => stringItems field.2) .empty

/-- `probeEnvironment`, given what the script has printed if it could be started. -/
def probeEnvironment (parse : List UInt8 → Option Json) (rawJson : Option (List UInt8)) : EnvProbe :=
  match rawJson.bind parse with
  | some (.obj fields) =>
    let json := Json.obj fields
    let runtimes := stringItems (json.get "runtimes")
    { runtimes, devicesByRuntime := logRuntimes runtimes (readDevices (objectItems (json.get "devices"))) }
  -- A text that is no object leaves an `errorMessage`.
  | _ => {}

/-! ## What is reported -/

/-- The runtimes whose import returns, with their devices unless the queries raise. -/
def Modules.imported (m : Modules) : List (String × Option (List String)) :=
  m.tryBlocks.filterMap fun block => block.2.map (block.1, ·)

/-- The runtimes that have answered. -/
def answered (imported : List (String × Option (List String))) : List (String × List String) :=
  imported.filterMap fun entry => entry.2.map (entry.1, ·)

theorem foldl_tryBlock (blocks : List TryBlock) (p : Probe) :
    blocks.foldl Probe.tryBlock p =
      let imported := blocks.filterMap fun block => block.2.map (block.1, ·)
      ⟨p.runtimes ++ imported.map (·.1), p.devices ++ answered imported⟩ := by
  induction blocks generalizing p with
  | nil => simp [answered]
  | cons block blocks ih =>
    obtain ⟨runtime, outcome⟩ := block
    rw [List.foldl_cons, ih]
    cases outcome with
    | none => rfl
    | some query =>
      cases query with
      | none => simp [Probe.tryBlock, answered]
      | some devs => simp [Probe.tryBlock, answered]

theorem envProbe_eq (m : Modules) : envProbe m = ⟨m.imported.map (·.1), answered m.imported⟩ := by
  rw [envProbe, foldl_tryBlock]
  rfl

/-- The runtimes are tried in alphabetical order. -/
theorem imported_ascending (m : Modules) : m.imported.Pairwise fun entry entry' => entry.1 < entry'.1 := by
  have order : m.tryBlocks.Pairwise fun block block' => block.1 < block'.1 := by
    have names : (m.tryBlocks.map (·.1)).Pairwise (· < ·) := by
      show ["onnx", "openvino", "pytorch", "tensorrt"].Pairwise (· < ·)
      decide +kernel
    exact List.pairwise_map.mp names
  refine List.pairwise_filterMap.mpr (order.imp fun less entry is_entry entry' is_entry' => ?_)
  obtain ⟨_, -, rfl⟩ := Option.map_eq_some_iff.mp is_entry
  obtain ⟨_, -, rfl⟩ := Option.map_eq_some_iff.mp is_entry'
  exact less

/-- A runtime that answers has a device. -/
theorem devices_nonempty {m : Modules} {runtime : String} {devs : List String}
    (mem : (runtime, some devs) ∈ m.imported) : devs ≠ [] := by
  obtain ⟨⟨_, outcome⟩, block, is_entry⟩ := List.mem_filterMap.mp mem
  obtain ⟨query, is_query, same⟩ := Option.map_eq_some_iff.mp is_entry
  cases same
  simp only at is_query
  subst is_query
  simp only [Modules.tryBlocks, List.mem_cons, Prod.mk.injEq, List.not_mem_nil, or_false] at block
  obtain ⟨-, onnx⟩ | ⟨-, openvino⟩ | ⟨-, torch⟩ | ⟨-, tensorrt⟩ := block
  · obtain ⟨ort, -, query⟩ := Option.map_eq_some_iff.mp onnx.symm
    obtain ⟨provs, -, rfl⟩ := Option.map_eq_some_iff.mp query
    simp
  · obtain ⟨ov, -, query⟩ := Option.map_eq_some_iff.mp openvino.symm
    obtain ⟨available, -, rfl⟩ := Option.map_eq_some_iff.mp query
    simp only
    split
    · exact List.cons_ne_nil _ _
    next some_device => simpa using some_device
  · obtain ⟨t, -, query⟩ := Option.map_eq_some_iff.mp torch.symm
    simp only [Torch.devices, Option.bind_eq_bind, Option.bind_eq_some_iff] at query
    obtain ⟨_, -, _, -, _, -, result⟩ := query
    cases result
    exact List.cons_ne_nil _ _
  · split at tensorrt
    · cases tensorrt
      exact List.cons_ne_nil _ _
    · cases tensorrt

/-! ## What is parsed -/

theorem stringItems_strs (xs : List String) : stringItems (.arr (xs.map .str)) = xs := by
  rw [stringItems, List.filterMap_map]
  exact List.filterMap_some

variable {m : Modules} {parse : List UInt8 → Option Json} {rawJson : List UInt8}

/-- A runtime is imported once. -/
theorem query_unique {runtime : String} {query query' : Option (List String)} (mem : (runtime, query) ∈ m.imported)
    (mem' : (runtime, query') ∈ m.imported) : query = query' := by
  rw [← findEntry_eq_some_iff (imported_ascending m)] at mem mem'
  exact Option.some.inj (mem.symm.trans mem')

theorem mem_answered {runtime : String} {devs : List String} :
    (runtime, devs) ∈ answered m.imported ↔ (runtime, some devs) ∈ m.imported := by
  constructor
  · intro mem
    obtain ⟨⟨_, query⟩, entry, is_answer⟩ := List.mem_filterMap.mp mem
    obtain ⟨_, rfl, same⟩ := Option.map_eq_some_iff.mp is_answer
    cases same
    exact entry
  · exact fun entry => List.mem_filterMap.mpr ⟨_, entry, rfl⟩

theorem answered_ascending (m : Modules) : (answered m.imported).Pairwise fun entry entry' => entry.1 < entry'.1 := by
  refine List.pairwise_filterMap.mpr ((imported_ascending m).imp fun less entry is_entry entry' is_entry' => ?_)
  obtain ⟨_, -, rfl⟩ := Option.map_eq_some_iff.mp is_entry
  obtain ⟨_, -, rfl⟩ := Option.map_eq_some_iff.mp is_entry'
  exact less

/-- What the map holds for a runtime before the log line. -/
theorem find?_readDevices (m : Modules) (runtime : String) :
    (readDevices ((answered m.imported).map fun entry => (entry.1, .arr (entry.2.map .str)))).find? runtime =
      findEntry runtime (answered m.imported) := by
  rw [readDevices, List.foldl_map]
  obtain ⟨changed, kept⟩ := OrderedMap.find?_foldl_alter (fun entry : String × List String => entry.1)
    (fun entry _ => stringItems (.arr (entry.2.map .str))) ((answered_ascending m).imp fun less => less.ne) .empty
  cases found : findEntry runtime (answered m.imported) with
  | some devs =>
    have mem := (findEntry_eq_some_iff (answered_ascending m)).mp found
    exact (changed _ mem).trans (congrArg some (stringItems_strs devs))
  | none =>
    refine kept runtime ?_
    rintro ⟨_, devs⟩ mem rfl
    cases found.symm.trans ((findEntry_eq_some_iff (answered_ascending m)).mpr mem)

theorem findEntry_answered {runtime : String} {query : Option (List String)} (mem : (runtime, query) ∈ m.imported) :
    findEntry runtime (answered m.imported) = query := by
  cases query with
  | some devs => exact (findEntry_eq_some_iff (answered_ascending m)).mpr (mem_answered.mpr mem)
  | none =>
    cases found : findEntry runtime (answered m.imported) with
    | none => rfl
    | some devs =>
      have answer := mem_answered.mp ((findEntry_eq_some_iff (answered_ascending m)).mp found)
      cases query_unique mem answer

theorem findEntry_answered_of_absent {runtime : String} (absent : ∀ entry ∈ m.imported, entry.1 ≠ runtime) :
    findEntry runtime (answered m.imported) = none := by
  cases found : findEntry runtime (answered m.imported) with
  | none => rfl
  | some devs =>
    have answer := mem_answered.mp ((findEntry_eq_some_iff (answered_ascending m)).mp found)
    exact absurd rfl (absent _ answer)

/-- What `devicesByRuntime` holds for each runtime. -/
theorem find?_logRuntimes (m : Modules) :
    let map := logRuntimes (m.imported.map (·.1))
      (readDevices ((answered m.imported).map fun entry => (entry.1, .arr (entry.2.map .str))))
    (∀ entry ∈ m.imported, map.find? entry.1 = some (entry.2.getD [])) ∧
      ∀ runtime, (∀ entry ∈ m.imported, entry.1 ≠ runtime) → map.find? runtime = none := by
  rw [logRuntimes, List.foldl_map]
  obtain ⟨touched, kept⟩ := OrderedMap.find?_foldl_alter (fun entry : String × Option (List String) => entry.1)
    (fun _ old => old.getD []) ((imported_ascending m).imp fun less => less.ne)
    (readDevices ((answered m.imported).map fun entry => (entry.1, .arr (entry.2.map .str))))
  refine ⟨fun entry mem => ?_, fun runtime absent => ?_⟩
  · rw [touched entry mem, find?_readDevices, findEntry_answered mem]
  · rw [kept runtime absent, find?_readDevices, findEntry_answered_of_absent absent]

/-- The engine sees each imported runtime, with no devices where the queries have raised. -/
theorem probeEnvironment_envProbe (trips : parse rawJson = some (envProbe m).json) :
    (probeEnvironment parse (some rawJson)).runtimes = m.imported.map (·.1) ∧
      (probeEnvironment parse (some rawJson)).devicesByRuntime.entries =
        m.imported.map fun entry => (entry.1, entry.2.getD []) := by
  have parsed : probeEnvironment parse (some rawJson) =
      { runtimes := m.imported.map (·.1)
        devicesByRuntime := logRuntimes (m.imported.map (·.1))
          (readDevices ((answered m.imported).map fun entry => (entry.1, .arr (entry.2.map .str)))) } := by
    have texts := stringItems_strs (m.imported.map (·.1))
    rw [List.map_map] at texts
    rw [probeEnvironment, Option.bind_some, trips, envProbe_eq]
    simp [Probe.json, Json.get, Json.lookup, texts, objectItems]
  rw [parsed]
  refine ⟨rfl, ?_⟩
  obtain ⟨imported, absent⟩ := find?_logRuntimes m
  have ascending : (m.imported.map fun entry => (entry.1, entry.2.getD [])).Pairwise fun e e' => e.1 < e'.1 :=
    List.pairwise_map.mpr (imported_ascending m)
  -- Two ordered maps that find the same have the same entries.
  refine @OrderedMap.ext_find? _ _ _ _ ⟨_, ascending⟩ fun runtime => ?_
  by_cases mem : ∃ entry ∈ m.imported, entry.1 = runtime
  · obtain ⟨entry, mem, rfl⟩ := mem
    rw [imported entry mem]
    exact (OrderedMap.find?_eq_some_iff.mpr (List.mem_map.mpr ⟨entry, mem, rfl⟩)).symm
  · have others : ∀ entry ∈ m.imported, entry.1 ≠ runtime := fun entry at_entry same => mem ⟨entry, at_entry, same⟩
    rw [absent runtime others]
    refine (OrderedMap.find?_eq_none fun entry mem => ?_).symm
    obtain ⟨entry', mem', rfl⟩ := List.mem_map.mp mem
    exact others entry' mem'

end VisionNx.Engine
