import VisionNx.Agent.ConfigMessage
import VisionNx.Worker.ModelBookkeeping

/-! # The ticked classes, from the setting to the reply

A list that has never been set, an empty one and one without a known class are told apart
on the whole way: the first restricts nothing, the others find nothing. -/

namespace VisionNx.Agent

open Python Tracker TransitionRuns Worker

/-! ## What an adapter returns -/

/-- The adapters that decode a raw tensor. -/
def DecodesTensor : Adapter → Prop
  | .onnx _ | .openvino _ => True
  | .pytorch _ | .tensorrt _ => False

/-- A box of a class that passes the filter. -/
def BoxPasses (classFilter : Option (List ℕ)) (box : Box) : Prop :=
  ∃ cls : ℤ, box.cls = some (Int32.ofInt cls) ∧ passesFilter classFilter cls = true

theorem toBox_passes {classFilter : Option (List ℕ)} {d : Detection} {box : Box} (boxed : Detection.toBox d = some box)
    (passes : passesFilter classFilter d.cls = true) : BoxPasses classFilter box := by
  unfold Detection.toBox at boxed
  split at boxed
  · cases boxed
    exact ⟨d.cls, rfl, passes⟩
  · cases boxed

theorem inferRaw_passes {cv2 : Cv2} {run : Image → Option RawOutput} {modelH modelW : ℤ} {layout : Layout}
    {rgb : Image} {confThr iouThr : ℚ} {classFilter : Option (List ℕ)} {boxes : List Box}
    (inferred : inferRaw cv2 run modelH modelW layout rgb confThr iouThr classFilter = some boxes) :
    ∀ box ∈ boxes, BoxPasses classFilter box := by
  simp only [inferRaw, Option.bind_eq_bind, Option.bind_eq_some_iff] at inferred
  obtain ⟨⟨canvas, ratio, padX, padY⟩, -, out, -, detections, decoded, boxed⟩ := inferred
  intro box mem
  obtain ⟨d, d_mem, is⟩ := mem_of_mapM boxed mem
  exact toBox_passes is (decodeBoxes_passes decoded d d_mem)

theorem infer_passes {cv2 : Cv2} {adapter : Adapter} (decodes : DecodesTensor adapter) {rgb : Image}
    {confThr iouThr : ℚ} {classFilter : Option (List ℕ)} {boxes : List Box}
    (inferred : adapter.infer cv2 rgb confThr iouThr classFilter = some boxes) :
    ∀ box ∈ boxes, BoxPasses classFilter box := by
  have nothing : ∀ box ∈ ([] : List Box), BoxPasses classFilter box := fun box mem => absurd mem List.not_mem_nil
  cases adapter with
  | onnx a =>
    simp only [Adapter.infer, OnnxAdapter.infer] at inferred
    split at inferred
    · cases inferred
      exact nothing
    · exact inferRaw_passes inferred
  | openvino a =>
    simp only [Adapter.infer, OpenvinoAdapter.infer] at inferred
    split at inferred
    · cases inferred
      exact nothing
    · exact inferRaw_passes inferred
  | pytorch a => exact decodes.elim
  | tensorrt a => exact decodes.elim

/-! ## What is replied -/

variable {env : Env Adapter} {b : Behaviour Adapter} {s : ServeState Adapter} {hdr : FrameHeader} {body : List UInt8}

theorem maskedBoxes_passes {cv2 : Cv2} {adapter : Adapter} (infers : b.infer = Adapter.infer cv2)
    (present : s.adapter = some adapter) (decodes : DecodesTensor adapter) :
    ∀ box ∈ maskedBoxes env b s hdr body, BoxPasses s.classFilterIds box := by
  unfold maskedBoxes
  split
  · exact fun box mem => absurd mem List.not_mem_nil
  next boxes answered =>
    intro box mem
    obtain ⟨given, called, found⟩ := Option.bind_eq_some_iff.mp answered
    obtain ⟨inferred, is_inferred, rfl⟩ := Option.map_eq_some_iff.mp found
    obtain ⟨raw, raw_mem, rfl⟩ := List.mem_map.mp (applyMasks_subset env s hdr.w hdr.h _ mem)
    have same_adapter : given.1 = adapter := Option.some.inj ((inferInput_adapter called).symm.trans present)
    rw [infers, same_adapter] at is_inferred
    exact infer_passes decodes is_inferred raw raw_mem

/-- The tracker does not touch a class. -/
theorem reply_passes {classFilter : Option (List ℕ)} (t : ByteTrackLite) {boxes : List Box}
    (passing : ∀ box ∈ boxes, BoxPasses classFilter box) : ∀ box ∈ (t.update boxes).2, BoxPasses classFilter box := by
  intro box mem
  have untracked : box.untracked ∈ boxes.map Box.untracked := by
    rw [← t.untracked_update boxes]
    exact List.mem_map_of_mem mem
  obtain ⟨given, given_mem, same⟩ := List.mem_map.mp untracked
  obtain ⟨cls, is_cls, passes⟩ := passing given given_mem
  exact ⟨cls, (congrArg Box.cls same).symm.trans is_cls, passes⟩

/-- The COCO-80 name of a class id. -/
def clsName (cls : Int32) : Option String := if cls < 0 then none else coco80Names[cls.toNatClampNeg]?

theorem clsName_of_known {id : ℕ} {name : String} (known : coco80Names[id]? = some name) :
    clsName (Int32.ofInt id) = some name := by
  have inside : id < 80 := (List.getElem?_eq_some_iff.mp known).1
  have kept : ∀ id < 80, ¬ Int32.ofInt (id : ℕ) < 0 ∧ (Int32.ofInt (id : ℕ)).toNatClampNeg = id := by decide
  obtain ⟨nonneg, same⟩ := kept id inside
  rw [clsName, if_neg nonneg, same, known]

/-- With a filter that is not empty, a box that passes is of one of its names. -/
theorem BoxPasses.named {names : List String} (some_id : namesToIds names ≠ []) {box : Box}
    (passes : BoxPasses (some (namesToIds names)) box) :
    ∃ cls, box.cls = some cls ∧ ∃ n ∈ names, clsName cls = some (lower (strip n)) := by
  obtain ⟨cls, is_cls, passes⟩ := passes
  unfold passesFilter at passes
  split at passes
  next none_given => cases none_given
  next empty => exact absurd (Option.some.inj empty) some_id
  next keepSet is_some =>
    cases is_some
    obtain ⟨id, mem, same⟩ := List.any_eq_true.mp passes
    obtain ⟨n, n_mem, known⟩ := mem_namesToIds mem
    refine ⟨_, is_cls, n, n_mem, ?_⟩
    rw [← beq_iff_eq.mp same, clsName_of_known known]

/-! ## The three selections -/

/-- The setting is empty or no array. -/
def NeverSet (parse : String → Option Json) (raw : String) : Prop := raw = "" ∨ ∀ items, parse raw ≠ some (.arr items)

/-- The texts of an explicit list. -/
def Lists (parse : String → Option Json) (raw : String) (names : List String) : Prop :=
  raw ≠ "" ∧ ∃ items, parse raw = some (.arr items) ∧ names = items.filterMap stringItem

theorem parseClassesJson_neverSet {parse : String → Option Json} {raw : String} (never : NeverSet parse raw) :
    parseClassesJson parse raw = ([], false) := by
  unfold parseClassesJson
  split
  · rfl
  next nonempty =>
    split
    next items parsed => exact absurd parsed (never.resolve_left nonempty items)
    next => rfl

theorem parseClassesJson_lists {parse : String → Option Json} {raw : String} {names : List String}
    (lists : Lists parse raw names) : parseClassesJson parse raw = (names, true) := by
  obtain ⟨nonempty, items, parsed, rfl⟩ := lists
  rw [parseClassesJson, if_neg nonempty, parsed]

/-- After a config and any messages that are none, the class filter is what the config says, and there is
    a tracker. -/
theorem filter_after_config {cameraUuid : String} {camera : CameraSettings} {engine : EngineSettings}
    {e : Incoming × Behaviour Adapter} {s₀ s₁ s : ServeState Adapter} {between : List (Incoming × Behaviour Adapter)}
    (is_config : e.1 = incoming cameraUuid (.config (configExtra camera engine))) (configured : Handles env s₀ e s₁)
    (later : Run (Handles env) s₁ between s) (no_config : ∀ e ∈ between, e.1.config? = none) :
    s.classFilterIds = (if camera.classesSet then some (namesToIds camera.classes) else none) ∧
      s.tracker.isSome = true := by
  have fields : e.1.config? = some (configFields cameraUuid camera engine) := by rw [is_config, config_incoming]
  obtain ⟨cam, handled⟩ := config_handled configured fields
  obtain ⟨conf, iou, maxAge, adapter, runtime, device, model, -, -, -, rfl⟩ := handleConfig_state handled
  obtain ⟨cache, tracker, cam', rfl, kept⟩ := run_keeps later no_config
  exact ⟨classFilter_configFields, kept⟩

/-- From the setting to the reply, whatever state the worker was in and whatever frames came between:
    a list that was never set restricts nothing; a list without a known class finds nothing, without
    a call of the model, and the tracker ticks; any other list only lets its own classes through. -/
theorem class_selection (parse : String → Option Json) (settingValue : String → String) (engine : EngineSettings)
    (cameraUuid : String) (pointPolygonTest : List (ℤ × ℤ) → ℚ × ℚ → Bool) (cv2 : Cv2) (r : Runtimes) (inferMs : ℚ)
    {b₀ : Behaviour Adapter} {s₀ s₁ s : ServeState Adapter} {between : List (Incoming × Behaviour Adapter)}
    (configured : Handles (adapterEnv pointPolygonTest) s₀
      (incoming cameraUuid (.config (configExtra (parsedSettings parse settingValue) engine)), b₀) s₁)
    (later : Run (Handles (adapterEnv pointPolygonTest)) s₁ between s) (no_config : ∀ e ∈ between, e.1.config? = none)
    {adapter : Adapter} (present : s.adapter = some adapter) (decodes : DecodesTensor adapter)
    (loaded : adapter.hasSession = true) (msg : List (String × Json)) (hdr : FrameHeader) (body : List UInt8) :
    (NeverSet parse (settingValue "classes") →
      Json.lookup "classes" (configFields cameraUuid (parsedSettings parse settingValue) engine) = none ∧
      (∀ candidates confThr, keptCandidates candidates confThr s.classFilterIds =
        candidates.filter fun c => decide (confThr ≤ c.score)) ∧
      inferInput (adapterEnv pointPolygonTest) s hdr body =
        (decodeRgbBody body hdr.w hdr.h hdr.stride).map fun img => (adapter, cropToRoi img s.roiNorm hdr.w hdr.h)) ∧
    ∀ names, Lists parse (settingValue "classes") names → ∃ s' reply updates,
      handle (adapterEnv pointPolygonTest) (r.behaviour (Adapter.infer cv2) inferMs) s (.frame msg hdr body) =
        some (s', { replies := [reply], updates }) ∧
      ((∀ n ∈ names, lower (strip n) ∉ coco80Names) → reply.boxes = [] ∧ updates = [[]] ∧
        -- Nothing that the adapter could find would be seen.
        ∀ infer, handle (adapterEnv pointPolygonTest) (r.behaviour infer inferMs) s (.frame msg hdr body) =
          some (s', { replies := [reply], updates })) ∧
      ((∃ n ∈ names, lower (strip n) ∈ coco80Names) → ∀ box ∈ reply.boxes, ∃ cls, box.cls = some cls ∧
        ∃ n ∈ names, clsName cls = some (lower (strip n))) := by
  obtain ⟨filter, tracked⟩ := filter_after_config rfl configured later no_config
  obtain ⟨t, is_t⟩ := Option.isSome_iff_exists.mp tracked
  constructor
  · intro never
    have unset : (parsedSettings parse settingValue).classesSet = false :=
      congrArg Prod.snd (parseClassesJson_neverSet never)
    rw [unset] at filter
    refine ⟨?_, fun candidates confThr => ?_, ?_⟩
    · rw [lookup_optional.1, unset]
      rfl
    · rw [keptCandidates, filter]
      exact List.filter_congr fun c _ => Bool.and_true _
    · have unfiltered : s.classFilterIds ≠ some [] := by simp [filter]
      rw [inferInput, if_neg unfiltered, present]
      exact if_pos loaded
  · intro names lists
    have parsed := parseClassesJson_lists lists
    have set : (parsedSettings parse settingValue).classesSet = true := congrArg Prod.snd parsed
    have held : (parsedSettings parse settingValue).classes = names := congrArg Prod.fst parsed
    rw [set, held, if_pos rfl] at filter
    generalize seen : ({ s with cam := (Json.lookup "camera_uuid" msg).getD s.cam } : ServeState Adapter) = s₂
    have filter₂ : s₂.classFilterIds = some (namesToIds names) := by rw [← seen, filter]
    have present₂ : s₂.adapter = some adapter := by rw [← seen, present]
    have tracked₂ : s₂.tracker = some t := by rw [← seen, is_t]
    obtain ⟨ms, effects⟩ := @handleFrame_effects Adapter (adapterEnv pointPolygonTest)
      (r.behaviour (Adapter.infer cv2) inferMs) s₂ hdr body t tracked₂
    refine ⟨_, _, _, by rw [handle, seen, ← effects], fun unknown => ?_, fun known => ?_⟩
    · rw [namesToIds_eq_nil.mpr unknown] at filter₂
      have uncalled := @inferInput_of_empty Adapter (adapterEnv pointPolygonTest) s₂ filter₂ hdr body
      have nothing := @maskedBoxes_of_uncalled _ _ (r.behaviour (Adapter.infer cv2) inferMs) _ _ _ uncalled
      refine ⟨by rw [nothing]; rfl, by rw [nothing], fun infer => ?_⟩
      rw [← effects, handle, seen, handleFrame_of_uncalled uncalled]
    · have some_id : namesToIds names ≠ [] := by
        intro empty
        obtain ⟨n, n_mem, is_known⟩ := known
        exact namesToIds_eq_nil.mp empty n n_mem is_known
      intro box mem
      have passes := reply_passes t (@maskedBoxes_passes (adapterEnv pointPolygonTest) _ s₂ hdr body cv2 adapter rfl
        present₂ decodes) box mem
      rw [filter₂] at passes
      exact passes.named some_id

/-- The settings of a camera with one ticked class. -/
def tickedCar (name : String) : String :=
  if name = "modelPath" then "street.onnx" else if name = "classes" then "[\x22Car\x22]" else ""

def parseCar (raw : String) : Option Json := if raw = "[\x22Car\x22]" then some (.arr [.str "Car"]) else none

def carConfig : Incoming :=
  incoming "cam" (.config (configExtra (parsedSettings parseCar tickedCar) ⟨"onnx", "cpu", 1⟩))

def afterCarConfig : ServeState Adapter := ((handle smallEnv carBehaviour {} carConfig).map Prod.fst).getD {}

/-- The car is kept, the person is not. -/
theorem class_selection_car :
    (handle smallEnv carBehaviour afterCarConfig (.frame [] ⟨16, 8, 48, 1⟩ (List.replicate 384 90))).map
        (fun after => after.2.replies.map fun reply => reply.boxes.map (·.cls)) = some [[some 2]] ∧
      ∃ s' reply updates,
        handle smallEnv carBehaviour afterCarConfig (.frame [] ⟨16, 8, 48, 1⟩ (List.replicate 384 90)) =
          some (s', { replies := [reply], updates }) ∧
        ∀ box ∈ reply.boxes, ∃ cls, box.cls = some cls ∧ ∃ n ∈ ["Car"], clsName cls = some (lower (strip n)) := by
  have configured : Handles smallEnv {} (carConfig, carBehaviour) afterCarConfig := by
    obtain ⟨after, handled⟩ := Option.isSome_iff_exists.mp
      (show (handle smallEnv carBehaviour {} carConfig).isSome = true by decide +kernel)
    exact ⟨after.2, by simp only [afterCarConfig, handled, Option.map_some, Option.getD_some, Prod.mk.eta]⟩
  have ready : afterCarConfig.adapter.any (fun adapter => adapter.hasSession && adapter.key == "onnx") = true := by
    decide +kernel
  obtain ⟨adapter, present, ready⟩ := (Option.any_eq_true _ _).mp ready
  obtain ⟨loaded, is_onnx⟩ := Bool.and_eq_true_iff.mp ready
  have decodes : DecodesTensor adapter := by
    cases adapter with
    | onnx a | openvino a => trivial
    | pytorch a | tensorrt a => simp [Adapter.key] at is_onnx
  obtain ⟨-, listed⟩ := class_selection parseCar tickedCar ⟨"onnx", "cpu", 1⟩ "cam" (fun _ _ => true) carCv2 carRuntimes 0
    configured (.nil _) (fun _ mem => absurd mem List.not_mem_nil) present decodes loaded []
    ⟨16, 8, 48, 1⟩ (List.replicate 384 90)
  obtain ⟨s', reply, updates, handled, -, named⟩ := listed ["Car"] ⟨by decide, [.str "Car"], rfl, rfl⟩
  exact ⟨by decide +kernel, s', reply, updates, handled, named ⟨"Car", List.mem_singleton_self _, by decide⟩⟩

end VisionNx.Agent
