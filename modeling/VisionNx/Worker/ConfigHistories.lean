import VisionNx.Worker.MaskFilter
import VisionNx.Worker.ModelBookkeeping

/-! # Two histories with the same last config

`serve` keeps what it can of what older configs have set up.  As long as nothing raises
and inference depends on the runtime, the model and the device only, nothing of it shows
in the replies: the last config decides. -/

namespace VisionNx.Worker

open Python Tracker TransitionRuns

/-! ## Where an adapter comes from -/

section

variable {A : Type}

/-- The adapters that one of the behaviours has constructed for a runtime, with any loads since. -/
inductive Made (B : Set (Behaviour A)) (key : String) : A → Prop where
  | construct {b : Behaviour A} {a : A} : b ∈ B → b.construct key = some a → Made B key a
  | load {b : Behaviour A} {a : A} (model device : String) : b ∈ B → Made B key a → Made B key (b.load a model device).1

/-- An adapter of a runtime after a load that has returned. -/
def LoadedAs (B : Set (Behaviour A)) (key model device : String) (a : A) : Prop :=
  ∃ b ∈ B, ∃ a₀, Made B key a₀ ∧ b.load a₀ model device = (a, true)

theorem LoadedAs.made {B : Set (Behaviour A)} {key model device : String} {a : A} (loaded : LoadedAs B key model device a) :
    Made B key a := by
  obtain ⟨b, mem, a₀, made, returned⟩ := loaded
  have := Made.load model device mem made
  rwa [returned] at this

/-- What an adapter infers depends only on its runtime, the model and the device it has loaded, and
    its inputs. -/
def InfersAlike (B : Set (Behaviour A)) : Prop :=
  ∀ ⦃key model device a a' b b'⦄, b ∈ B → b' ∈ B → LoadedAs B key model device a → LoadedAs B key model device a' →
    b.infer a = b'.infer a'

/-- The message calls neither `make_adapter` nor `load` in vain. -/
def NoRaise (env : Env A) (s : ServeState A) (e : Incoming × Behaviour A) : Prop :=
  ∀ msg newRuntime newDevice newModel, e.1.config? = some msg →
    configNames msg = some (newRuntime, newDevice, newModel) →
    ((newRuntime ≠ s.currentRuntime ∨ s.adapter.isNone = true) → (makeAdapter e.2 newRuntime).isSome = true) ∧
    ∀ adapter, loadCall env (swapAdapter e.2 s newRuntime) newModel newDevice = some adapter →
      (e.2.load adapter newModel newDevice).2 = true

def Allowed (env : Env A) (B : Set (Behaviour A)) (s : ServeState A) (e : Incoming × Behaviour A) : Prop :=
  e.2 ∈ B ∧ NoRaise env s e

/-- The names that `serve` keeps are those of what the adapter has loaded. -/
structure Traced (B : Set (Behaviour A)) (s : ServeState A) : Prop where
  made : ∀ a, s.adapter = some a → Made B (adapterKey s.currentRuntime) a
  loaded : ∀ a, s.adapter = some a → s.currentModel ≠ "" →
    LoadedAs B (adapterKey s.currentRuntime) s.currentModel s.currentDevice a

variable {env : Env A} {B : Set (Behaviour A)} {b : Behaviour A} {s s' : ServeState A}

theorem traced_start : Traced B ({} : ServeState A) := ⟨nofun, nofun⟩

theorem SameAdapter.traced (same : SameAdapter s s') (traced : Traced B s) : Traced B s' where
  made := by
    rw [same.adapter, same.runtime]
    exact traced.made
  loaded := by
    rw [same.adapter, same.runtime, same.model, same.device]
    exact traced.loaded

theorem Traced.swap (traced : Traced B s) (mem : b ∈ B) (newRuntime : String) :
    Traced B (swapAdapter b s newRuntime) := by
  unfold swapAdapter
  split
  · cases constructed : makeAdapter b newRuntime with
    | none => exact ⟨nofun, nofun⟩
    | some adapter =>
      refine ⟨fun a is => ?_, fun a _ some_model => absurd rfl some_model⟩
      cases is
      exact .construct mem (makeAdapter_some constructed)
  · exact traced

theorem Traced.load (traced : Traced B s) (mem : b ∈ B) {newModel newDevice : String}
    (returns : ∀ adapter, loadCall env s newModel newDevice = some adapter → (b.load adapter newModel newDevice).2 = true) :
    Traced B (loadModel env b s newModel newDevice) := by
  rw [loadModel_eq]
  cases called : loadCall env s newModel newDevice with
  | none => exact traced
  | some adapter =>
    have returned := returns adapter called
    have made := traced.made adapter (loadCall_adapter called)
    simp only [returned, if_true]
    refine ⟨fun a is => ?_, fun a is _ => ?_⟩
    · cases is
      exact .load newModel newDevice mem made
    · cases is
      exact ⟨b, mem, adapter, made, Prod.ext rfl returned⟩

theorem traced_step {e : Incoming × Behaviour A} (traced : Traced B s) (step : Guarded (Allowed env B) (Handles env) s e s') :
    Traced B s' := by
  obtain ⟨⟨mem, no_raise⟩, handles⟩ := step
  cases is_config : e.1.config? with
  | none => exact (other_adapter handles is_config).traced traced
  | some msg =>
    obtain ⟨newRuntime, newDevice, newModel, names, same⟩ := config_adapter handles is_config
    exact same.traced ((traced.swap mem newRuntime).load mem fun adapter called =>
      (no_raise msg newRuntime newDevice newModel is_config names).2 adapter called)

/-! ## After the last config -/

theorem swapAdapter_makes {newRuntime : String}
    (makes : (newRuntime ≠ s.currentRuntime ∨ s.adapter.isNone = true) → (makeAdapter b newRuntime).isSome = true) :
    (swapAdapter b s newRuntime).currentRuntime = newRuntime ∧ (swapAdapter b s newRuntime).adapter.isSome = true := by
  unfold swapAdapter
  split
  next swaps =>
    obtain ⟨adapter, constructed⟩ := Option.isSome_iff_exists.mp (makes swaps)
    rw [constructed]
    exact ⟨rfl, rfl⟩
  next keeps =>
    obtain ⟨same, present⟩ := not_or.mp keeps
    exact ⟨(not_not.mp same).symm, Option.isSome_iff_ne_none.mpr (mt Option.isNone_iff_eq_none.mpr present)⟩

/-- A load that is not needed has been made. -/
theorem loaded_of_no_call {newModel newDevice : String} {a : A} (present : s.adapter = some a) (some_model : newModel ≠ "")
    (uncalled : loadCall env s newModel newDevice = none) : newModel = s.currentModel ∧ newDevice = s.currentDevice := by
  rw [loadCall, present, Option.bind_some] at uncalled
  split at uncalled
  · cases uncalled
  next unneeded =>
    have same := not_or.mp fun needed => unneeded ⟨some_model, needed⟩
    exact ⟨not_not.mp same.1, not_not.mp (not_or.mp same.2).1⟩

/-- After a config with a model, the adapter is one of its runtime that has loaded its model on its
    device, whatever came before. -/
theorem config_loads {e : Incoming × Behaviour A} {msg : List (String × Json)} {newRuntime newDevice newModel : String}
    (traced : Traced B s) (step : Guarded (Allowed env B) (Handles env) s e s') (is_config : e.1.config? = some msg)
    (names : configNames msg = some (newRuntime, newDevice, newModel)) (some_model : newModel ≠ "") :
    s'.currentRuntime = newRuntime ∧ s'.currentDevice = newDevice ∧
      ∃ a, s'.adapter = some a ∧ LoadedAs B (adapterKey newRuntime) newModel newDevice a := by
  obtain ⟨⟨mem, no_raise⟩, handles⟩ := step
  obtain ⟨makes, returns⟩ := no_raise msg _ _ _ is_config names
  obtain ⟨_, _, _, names', same⟩ := config_adapter handles is_config
  cases names.symm.trans names'
  have traced_swapped := traced.swap mem newRuntime
  obtain ⟨runtime, present⟩ := swapAdapter_makes makes
  obtain ⟨adapter, present⟩ := Option.isSome_iff_exists.mp present
  generalize swapAdapter e.2 s newRuntime = swapped at *
  rw [same.runtime, same.device, same.adapter, loadModel_eq]
  cases called : loadCall env swapped newModel newDevice with
  | none =>
    obtain ⟨same_model, same_device⟩ := loaded_of_no_call present some_model called
    rw [same_model] at some_model
    have loaded := traced_swapped.loaded adapter present some_model
    rw [runtime, ← same_model, ← same_device] at loaded
    exact ⟨runtime, same_device.symm, adapter, present, loaded⟩
  | some adapter' =>
    have returned := returns adapter' called
    have made := traced_swapped.made adapter' (loadCall_adapter called)
    rw [runtime] at made
    simp only [returned, if_true]
    exact ⟨runtime, trivial, _, rfl, e.2, mem, adapter', made, Prod.ext rfl returned⟩

/-! ## Alike from there -/

/-- Two states behind the same last config. -/
structure SameConfig (env : Env A) (B : Set (Behaviour A)) (past past' : List Incoming) (s s' : ServeState A) : Prop where
  inForce : InForce past s
  inForce' : InForce past' s'
  config : ∀ key, configured past' key = configured past key
  conf : s'.confThr = s.confThr
  iou : s'.iouThr = s.iouThr
  runtime : s'.currentRuntime = s.currentRuntime
  device : s'.currentDevice = s.currentDevice
  loaded : ∃ key model device a a', s.adapter = some a ∧ s'.adapter = some a' ∧
    LoadedAs B key model device a ∧ LoadedAs B key model device a' ∧ env.hasSession a = true ∧ env.hasSession a' = true

variable {past past' : List Incoming} {b' : Behaviour A} {hdr : FrameHeader} {body : List UInt8}

theorem SameConfig.classes (same : SameConfig env B past past' s s') : s'.classFilterIds = s.classFilterIds := by
  rw [same.inForce'.classes, same.inForce.classes, same.config]

theorem SameConfig.roi (same : SameConfig env B past past' s s') : s'.roiNorm = s.roiNorm := by
  rw [same.inForce'.roi, same.inForce.roi, same.config]

theorem SameConfig.polygons (same : SameConfig env B past past' s s') :
    s'.inclusiveNorm = s.inclusiveNorm ∧ s'.exclusiveNorm = s.exclusiveNorm := by
  rw [same.inForce'.inclusive, same.inForce.inclusive, same.inForce'.exclusive, same.inForce.exclusive, same.config,
    same.config]
  exact ⟨rfl, rfl⟩

/-- Both adapters find the same boxes. -/
theorem SameConfig.found (same : SameConfig env B past past' s s') (alike : InfersAlike B) (mem : b ∈ B) (mem' : b' ∈ B) :
    (inferInput env s' hdr body).bind (allBoxes b' s' hdr) = (inferInput env s hdr body).bind (allBoxes b s hdr) := by
  obtain ⟨key, model, device, a, a', present, present', loaded, loaded', ready, ready'⟩ := same.loaded
  have infers := alike mem mem' loaded loaded'
  simp only [inferInput, same.classes, same.roi, present, present', ready, ready', if_true]
  split
  · rfl
  · cases decodeRgbBody body hdr.w hdr.h hdr.stride with
    | none => rfl
    | some img => simp only [Option.map_some, Option.bind_some, allBoxes, infers, same.conf, same.iou, same.classes]

theorem SameConfig.masked (same : SameConfig env B past past' s s') (alike : InfersAlike B) (mem : b ∈ B) (mem' : b' ∈ B) :
    maskedBoxes env b' s' hdr body = maskedBoxes env b s hdr body := by
  simp only [maskedBoxes, same.found alike mem mem']
  cases (inferInput env s hdr body).bind (allBoxes b s hdr) with
  | none => rfl
  | some boxes =>
    simp only [applyMasks_boxes _ _ _ _ _ (same.inForce.polyPx _ _), applyMasks_boxes _ _ _ _ _ (same.inForce'.polyPx _ _),
      same.polygons.1, same.polygons.2]

/-- What a reply says, but for the track ids. -/
def Reply.shown (r : Reply) : ℤ × List Box × String × String := (r.id, r.boxes.map Box.untracked, r.runtime, r.device)

theorem SameConfig.after (same : SameConfig env B past past' s s') {m : Incoming} (other : m.config? = none)
    {next next' : ServeState A} (handles : Handles env s (m, b) next) (handles' : Handles env s' (m, b') next') :
    SameConfig env B (past ++ [m]) (past' ++ [m]) next next' := by
  have inForce := same.inForce.step handles
  have inForce' := same.inForce'.step handles'
  obtain ⟨cache, tracker, cam, rfl, -⟩ := handles_keeps handles other
  obtain ⟨cache', tracker', cam', rfl, -⟩ := handles_keeps handles' other
  refine ⟨inForce, inForce', fun key => ?_, same.conf, same.iou, same.runtime, same.device, same.loaded⟩
  rw [configured_other other, configured_other other, same.config]

theorem SameConfig.cam (same : SameConfig env B past past' s s') (cam cam' : Json) :
    SameConfig env B past past' { s with cam := cam } { s' with cam := cam' } :=
  ⟨same.inForce.cam cam, same.inForce'.cam cam', same.config, same.conf, same.iou, same.runtime, same.device, same.loaded⟩

theorem SameConfig.tracked (same : SameConfig env B past past' s s') :
    (∃ t, s.tracker = some t) ∧ ∃ t, s'.tracker = some t := by
  obtain ⟨-, -, -, a, a', present, present', -⟩ := same.loaded
  exact ⟨Option.isSome_iff_exists.mp (same.inForce.tracker_first (by rw [present]; rfl)),
    Option.isSome_iff_exists.mp (same.inForce'.tracker_first (by rw [present']; rfl))⟩

theorem SameConfig.frame (same : SameConfig env B past past' s s') (alike : InfersAlike B) (mem : b ∈ B) (mem' : b' ∈ B) :
    (handleFrame env b' s' hdr body).2.replies.map Reply.shown = (handleFrame env b s hdr body).2.replies.map Reply.shown := by
  obtain ⟨⟨t, is_t⟩, ⟨t', is_t'⟩⟩ := same.tracked
  obtain ⟨ms, effects⟩ := @handleFrame_effects A env b s hdr body t is_t
  obtain ⟨ms', effects'⟩ := @handleFrame_effects A env b' s' hdr body t' is_t'
  rw [effects, effects', same.masked alike mem mem']
  simp only [List.map_cons, List.map_nil, Reply.shown, ByteTrackLite.untracked_update, same.runtime, same.device]

/-- What the outside sees of one message, but for the track ids. -/
def Effects.shown (e : Effects) : List (ℤ × List Box × String × String) := e.replies.map Reply.shown

/-- One message that is no config: both connections end, or they answer alike. -/
theorem SameConfig.step (same : SameConfig env B past past' s s') (alike : InfersAlike B) (mem : b ∈ B) (mem' : b' ∈ B)
    {m : Incoming} (other : m.config? = none) :
    (handle env b s m = none ∧ handle env b' s' m = none) ∨
    ∃ next next' effects effects', handle env b s m = some (next, effects) ∧ handle env b' s' m = some (next', effects') ∧
      SameConfig env B (past ++ [m]) (past' ++ [m]) next next' ∧ effects'.shown = effects.shown := by
  have answered {next next' : ServeState A} {effects effects' : Effects} (handled : handle env b s m = some (next, effects))
      (handled' : handle env b' s' m = some (next', effects')) (shown : effects'.shown = effects.shown) :
      ∃ next next' effects effects', handle env b s m = some (next, effects) ∧ handle env b' s' m = some (next', effects') ∧
        SameConfig env B (past ++ [m]) (past' ++ [m]) next next' ∧ effects'.shown = effects.shown :=
    ⟨next, next', effects, effects', handled, handled', same.after other ⟨effects, handled⟩ ⟨effects', handled'⟩, shown⟩
  cases m with
  | garbled => exact .inr (answered rfl rfl rfl)
  | frame msg hdr body => exact .inr (answered rfl rfl ((same.cam _ _).frame alike mem mem'))
  | message msg =>
    have no_config : typeIs "config" msg = false := by
      cases is_config : typeIs "config" msg with
      | false => rfl
      | true => simp [Incoming.config?, is_config] at other
    cases attach : typeIs "attach" msg with
    | true => exact .inr (answered (by simp only [handle, attach, if_true]; rfl) (by simp only [handle, attach, if_true]; rfl) rfl)
    | false =>
      cases detach : typeIs "detach" msg with
      | true => exact .inl ⟨by simp [handle, attach, detach], by simp [handle, attach, detach]⟩
      | false =>
        exact .inr (answered (by simp only [handle, attach, detach, no_config, Bool.false_eq_true, if_false]; rfl)
          (by simp only [handle, attach, detach, no_config, Bool.false_eq_true, if_false]; rfl) rfl)

/-- The same messages from there on, each with what third-party code does around it on the one
    connection and on the other. -/
theorem SameConfig.run (same : SameConfig env B past past' s s') (alike : InfersAlike B)
    {messages : List (Incoming × Behaviour A × Behaviour A)}
    (others : ∀ m ∈ messages, m.1.config? = none ∧ m.2.1 ∈ B ∧ m.2.2 ∈ B) :
    (run env s' (messages.map fun m => (m.1, m.2.2))).2.map Effects.shown =
      (run env s (messages.map fun m => (m.1, m.2.1))).2.map Effects.shown := by
  induction messages generalizing s s' past past' with
  | nil => rfl
  | cons m messages ih =>
    obtain ⟨other, mem, mem'⟩ := others m List.mem_cons_self
    cases same.step alike mem mem' other with
    | inl ends => simp only [List.map_cons, Worker.run, ends.1, ends.2]
    | inr answered =>
      obtain ⟨next, next', effects, effects', handled, handled', after, shown⟩ := answered
      have rest := ih after fun m mem => others m (List.mem_cons_of_mem _ mem)
      simp only [List.map_cons, Worker.run, handled, handled', shown, rest]

theorem configNames_model {msg : List (String × Json)} {newRuntime newDevice newModel path : String}
    (names : configNames msg = some (newRuntime, newDevice, newModel))
    (model : Json.lookup "model_path" msg = some (.str path)) (some_model : path ≠ "") : newModel = path := by
  simp only [configNames, Option.bind_eq_bind, Option.bind_eq_some_iff, Option.pure_def, Option.some.injEq,
    Prod.mk.injEq] at names
  obtain ⟨_, -, _, -, newModel', read, -, -, rfl⟩ := names
  rw [textOr, model] at read
  simpa only [if_neg some_model, Option.some.injEq, eq_comm] using read

/-- What one history on a fresh connection leaves, if it ends with a config that has its thresholds and
    its model. -/
theorem history_ends {events : List (Incoming × Behaviour A)} {msg : List (String × Json)} {path : String} {conf iou : Json}
    (is_config : typeIs "config" msg = true) (conf_sent : Json.lookup "conf" msg = some conf)
    (iou_sent : Json.lookup "iou" msg = some iou) (model : Json.lookup "model_path" msg = some (.str path))
    (some_model : path ≠ "")
    (history : Run (Guarded (Allowed env B) (Handles env)) {} (events ++ [(.message msg, b)]) s) :
    InForce (events.map Prod.fst ++ [.message msg]) s ∧ conf.toFloat? = some s.confThr ∧ iou.toFloat? = some s.iouThr ∧
      ∃ a, s.adapter = some a ∧ configNames msg = some (s.currentRuntime, s.currentDevice, path) ∧
        LoadedAs B (adapterKey s.currentRuntime) path s.currentDevice a := by
  obtain ⟨s₀, front, last⟩ := history.of_concat
  have config : (Incoming.message msg).config? = some msg := if_pos is_config
  have traced : Traced B s₀ := front.invariant (fun _ _ _ traced step => traced_step traced step) traced_start
  have inForce : InForce (events.map Prod.fst) s₀ := by simpa using inForce_start.run front.of_guarded
  have inForce_after := inForce.step last.2
  obtain ⟨cam, handled⟩ := config_handled last.2 config
  obtain ⟨newRuntime, newDevice, newModel, names, -⟩ := handleConfig_adapter handled
  have same_model := configNames_model names model some_model
  subst same_model
  obtain ⟨runtime, device, a, present, loaded⟩ := config_loads traced last config names some_model
  obtain ⟨c, i, _, _, _, _, _, conf_read, iou_read, -, done⟩ := handleConfig_state handled
  rw [conf_sent, Option.getD_some] at conf_read
  rw [iou_sent, Option.getD_some] at iou_read
  refine ⟨inForce_after, ?_, ?_, a, present, ?_, ?_⟩
  · rw [conf_read, done, ServeState.configure]
  · rw [iou_read, done, ServeState.configure]
  · rw [names, runtime, device]
  · rw [runtime, device]
    exact loaded

/-- Two histories on fresh connections that end with the same config. -/
theorem sameConfig_of_histories {events events' : List (Incoming × Behaviour A)} {msg : List (String × Json)}
    {path : String} (session : ∀ key model device a, LoadedAs B key model device a → env.hasSession a = true)
    (is_config : typeIs "config" msg = true) (conf : (Json.lookup "conf" msg).isSome = true)
    (iou : (Json.lookup "iou" msg).isSome = true) (model : Json.lookup "model_path" msg = some (.str path))
    (some_model : path ≠ "")
    (history : Run (Guarded (Allowed env B) (Handles env)) {} (events ++ [(.message msg, b)]) s)
    (history' : Run (Guarded (Allowed env B) (Handles env)) {} (events' ++ [(.message msg, b')]) s') :
    SameConfig env B (events.map Prod.fst ++ [.message msg]) (events'.map Prod.fst ++ [.message msg]) s s' := by
  obtain ⟨confV, conf_sent⟩ := Option.isSome_iff_exists.mp conf
  obtain ⟨iouV, iou_sent⟩ := Option.isSome_iff_exists.mp iou
  obtain ⟨inForce, conf_read, iou_read, a, present, names, loaded⟩ :=
    history_ends is_config conf_sent iou_sent model some_model history
  obtain ⟨inForce', conf_read', iou_read', a', present', names', loaded'⟩ :=
    history_ends is_config conf_sent iou_sent model some_model history'
  have same_names := Option.some.inj (names'.symm.trans names)
  have runtime := congrArg Prod.fst same_names
  have device := congrArg (fun x => x.2.1) same_names
  simp only at runtime device
  rw [runtime, device] at loaded'
  have config : (Incoming.message msg).config? = some msg := if_pos is_config
  exact {
    inForce := inForce
    inForce' := inForce'
    config := fun key => by rw [configured_config config, configured_config config]
    conf := Option.some.inj (conf_read'.symm.trans conf_read)
    iou := Option.some.inj (iou_read'.symm.trans iou_read)
    runtime := runtime
    device := device
    loaded := ⟨_, _, _, a, a', present, present', loaded, loaded', session _ _ _ _ loaded, session _ _ _ _ loaded'⟩ }

end

/-! ## The adapters -/

/-- What third-party code makes of the same model on the same device at two times. -/
structure SameModels (r r' : Runtimes) : Prop where
  inferenceSession : r'.inferenceSession = r.inferenceSession
  readModel : r'.readModel = r.readModel
  compileModel : r'.compileModel = r.compileModel
  yolo : r'.yolo = r.yolo

theorem UltralyticsAdapter.LoadedBy.unique {task : Option String} {defaultDevice : String} {r r' : Runtimes}
    {a a' : UltralyticsAdapter} {model device : String} (models : SameModels r r')
    (loaded : a.LoadedBy task defaultDevice r model device) (loaded' : a'.LoadedBy task defaultDevice r' model device) :
    a' = a := by
  obtain ⟨yolo, made, rfl⟩ := loaded
  obtain ⟨yolo', made', rfl⟩ := loaded'
  rw [models.yolo, made] at made'
  cases made'
  rfl

/-- A load that returns leaves nothing of the adapter before. -/
theorem Adapter.LoadedBy.unique {r r' : Runtimes} {a a' : Adapter} {model device : String} (models : SameModels r r')
    (key : a'.key = a.key) (loaded : a.LoadedBy r model device) (loaded' : a'.LoadedBy r' model device) : a' = a := by
  cases a with
  | onnx a =>
    cases a' with
    | onnx a' =>
      obtain ⟨ort, inputName, n, c, modelH, modelW, outShape, made, input, output, rfl⟩ := loaded
      obtain ⟨ort', inputName', n', c', modelH', modelW', outShape', made', input', output', rfl⟩ := loaded'
      rw [models.inferenceSession, made] at made'
      cases made'
      rw [input] at input'
      cases input'
      rw [output] at output'
      cases output'
      rfl
    | openvino a' | pytorch a' | tensorrt a' => exact absurd key (by simp [Adapter.key])
  | openvino a =>
    cases a' with
    | openvino a' =>
      obtain ⟨read, compiled, is_read, is_compiled, rfl⟩ := loaded
      obtain ⟨read', compiled', is_read', is_compiled', rfl⟩ := loaded'
      rw [models.readModel, is_read] at is_read'
      cases is_read'
      rw [models.compileModel, is_compiled] at is_compiled'
      cases is_compiled'
      rfl
    | onnx a' | pytorch a' | tensorrt a' => exact absurd key (by simp [Adapter.key])
  | pytorch a =>
    cases a' with
    | pytorch a' => exact congrArg pytorch (UltralyticsAdapter.LoadedBy.unique models loaded loaded')
    | onnx a' | openvino a' | tensorrt a' => exact absurd key (by simp [Adapter.key])
  | tensorrt a =>
    cases a' with
    | tensorrt a' => exact congrArg tensorrt (UltralyticsAdapter.LoadedBy.unique models loaded loaded')
    | onnx a' | openvino a' | pytorch a' => exact absurd key (by simp [Adapter.key])

theorem Adapter.LoadedBy.hasSession {r : Runtimes} {a : Adapter} {model device : String}
    (loaded : a.LoadedBy r model device) : a.hasSession = true := by
  cases a with
  | onnx a =>
    obtain ⟨ort, inputName, n, c, modelH, modelW, outShape, -, -, -, rfl⟩ := loaded
    rfl
  | openvino a =>
    obtain ⟨read, compiled, -, -, rfl⟩ := loaded
    rfl
  | pytorch a | tensorrt a =>
    obtain ⟨yolo, -, rfl⟩ := loaded
    rfl

/-- The behaviours are those of the adapters; what `infer` does is left open. -/
def OfAdapters (B : Set (Behaviour Adapter)) : Prop := ∀ b ∈ B, ∃ r infer inferMs, b = Runtimes.behaviour r infer inferMs

theorem loadedAs_hasSession {B : Set (Behaviour Adapter)} (adapters : OfAdapters B) {key model device : String} {a : Adapter}
    (loaded : LoadedAs B key model device a) : a.hasSession = true := by
  obtain ⟨b, mem, a₀, -, returned⟩ := loaded
  obtain ⟨r, infer, inferMs, rfl⟩ := adapters b mem
  have loaded : a.LoadedBy r model device := Adapter.load_returned returned
  exact loaded.hasSession

theorem made_key {B : Set (Behaviour Adapter)} (adapters : OfAdapters B) {key : String} {a : Adapter} (made : Made B key a) :
    a.key = key := by
  induction made with
  | @construct b a mem constructed =>
    obtain ⟨r, infer, inferMs, rfl⟩ := adapters b mem
    exact (make_spec (construct_some constructed)).1
  | @load b a model device mem _ ih =>
    obtain ⟨r, infer, inferMs, rfl⟩ := adapters b mem
    exact (Adapter.load_key r a model device).trans ih

theorem ofAdapters_sameModels (cv2 : Cv2) (r₀ : Runtimes) :
    OfAdapters {b | ∃ r inferMs, SameModels r₀ r ∧ b = Runtimes.behaviour r (Adapter.infer cv2) inferMs} := by
  intro b mem
  obtain ⟨r, inferMs, -, is⟩ := mem
  exact ⟨r, _, inferMs, is⟩

/-- If third-party code makes the same of a model at any time, then what an adapter infers depends only
    on its runtime, the model, the device and its inputs. -/
theorem adapters_infer_alike (cv2 : Cv2) (r₀ : Runtimes) :
    InfersAlike {b | ∃ r inferMs, SameModels r₀ r ∧ b = Runtimes.behaviour r (Adapter.infer cv2) inferMs} := by
  have adapters := ofAdapters_sameModels cv2 r₀
  intro key model device a a' b b' mem mem' loaded loaded'
  have same_key : a'.key = a.key := (made_key adapters loaded'.made).trans (made_key adapters loaded.made).symm
  obtain ⟨_, ⟨r, _, same, rfl⟩, a₀, -, returned⟩ := loaded
  obtain ⟨_, ⟨r', _, same', rfl⟩, a₀', -, returned'⟩ := loaded'
  have models : SameModels r r' :=
    ⟨same'.inferenceSession.trans same.inferenceSession.symm, same'.readModel.trans same.readModel.symm,
      same'.compileModel.trans same.compileModel.symm, same'.yolo.trans same.yolo.symm⟩
  have same_adapter : a' = a :=
    Adapter.LoadedBy.unique models same_key (Adapter.load_returned returned) (Adapter.load_returned returned')
  obtain ⟨_, _, -, rfl⟩ := mem
  obtain ⟨_, _, -, rfl⟩ := mem'
  rw [same_adapter]
  rfl

/-! ## Two histories -/

/-- Two histories on fresh connections that end with the same config, with its thresholds and a model: if no
    `make_adapter` and no `load` has raised, the same messages from there on are answered with the
    same boxes, but for the track ids, from the same runtime and device. -/
theorem last_config_wins (pointPolygonTest : List (ℤ × ℤ) → ℚ × ℚ → Bool) {B : Set (Behaviour Adapter)}
    (adapters : OfAdapters B) (alike : InfersAlike B) {events events' : List (Incoming × Behaviour Adapter)}
    {b b' : Behaviour Adapter} {s s' : ServeState Adapter} {msg : List (String × Json)} {path : String}
    (is_config : typeIs "config" msg = true) (conf : (Json.lookup "conf" msg).isSome = true)
    (iou : (Json.lookup "iou" msg).isSome = true) (model : Json.lookup "model_path" msg = some (.str path))
    (some_model : path ≠ "")
    (history : Run (Guarded (Allowed (adapterEnv pointPolygonTest) B) (Handles (adapterEnv pointPolygonTest))) {}
      (events ++ [(.message msg, b)]) s)
    (history' : Run (Guarded (Allowed (adapterEnv pointPolygonTest) B) (Handles (adapterEnv pointPolygonTest))) {}
      (events' ++ [(.message msg, b')]) s')
    {messages : List (Incoming × Behaviour Adapter × Behaviour Adapter)}
    (others : ∀ m ∈ messages, m.1.config? = none ∧ m.2.1 ∈ B ∧ m.2.2 ∈ B) :
    (run (adapterEnv pointPolygonTest) s' (messages.map fun m => (m.1, m.2.2))).2.map Effects.shown =
      (run (adapterEnv pointPolygonTest) s (messages.map fun m => (m.1, m.2.1))).2.map Effects.shown :=
  (sameConfig_of_histories (fun _ _ _ _ loaded => loadedAs_hasSession adapters loaded) is_config conf iou model
    some_model history history').run alike others

/-- The times at which `carRuntimes` is there. -/
def carAnswers : Set (Behaviour Adapter) :=
  {b | ∃ r inferMs, SameModels carRuntimes r ∧ b = Runtimes.behaviour r (Adapter.infer carCv2) inferMs}

theorem carBehaviour_mem : carBehaviour ∈ carAnswers := ⟨carRuntimes, 0, ⟨rfl, rfl, rfl, rfl⟩, rfl⟩

def thresholdConfig (path : String) : List (String × Json) :=
  [("type", .str "config"), ("model_path", .str path), ("conf", .num (3 / 10)), ("iou", .num (1 / 2))]

def afterThresholds (path : String) (s : ServeState Adapter) : ServeState Adapter :=
  ((handle smallEnv carBehaviour s (.message (thresholdConfig path))).map Prod.fst).getD s

theorem carRuntimes_loads (a : Adapter) (model device : String) : (a.load carRuntimes model device).2 = true := by
  cases a with
  | onnx a => rfl
  | openvino a =>
    show (a.load carRuntimes model device).2 = true
    simp [OpenvinoAdapter.load, OpenvinoAdapter.checked, carRuntimes, smallRuntimes, answer]
  | pytorch a => rfl
  | tensorrt a => rfl

theorem thresholds_step {path : String} {s : ServeState Adapter}
    (names : configNames (thresholdConfig path) = some ("onnx", "cpu", path))
    (handled : (handle smallEnv carBehaviour s (.message (thresholdConfig path))).isSome = true) :
    Guarded (Allowed smallEnv carAnswers) (Handles smallEnv) s (.message (thresholdConfig path), carBehaviour)
      (afterThresholds path s) := by
  obtain ⟨after, is⟩ := Option.isSome_iff_exists.mp handled
  refine ⟨⟨carBehaviour_mem, fun msg newRuntime newDevice newModel is_config names' => ?_⟩, after.2, ?_⟩
  · cases is_config
    cases names.symm.trans names'
    exact ⟨fun _ => rfl, fun adapter _ => carRuntimes_loads adapter path "cpu"⟩
  · rw [is, afterThresholds, is]
    rfl

/-- The frame is answered alike whether another model came first or not. -/
theorem last_config_wins_two_models :
    (run smallEnv (afterThresholds "street.onnx" (afterThresholds "yard.onnx" {}))
        [(.frame [] ⟨16, 8, 48, 1⟩ (List.replicate 384 90), carBehaviour)]).2.map Effects.shown =
      (run smallEnv (afterThresholds "street.onnx" {})
        [(.frame [] ⟨16, 8, 48, 1⟩ (List.replicate 384 90), carBehaviour)]).2.map Effects.shown ∧
      (run smallEnv (afterThresholds "street.onnx" {})
        [(.frame [] ⟨16, 8, 48, 1⟩ (List.replicate 384 90), carBehaviour)]).2.map
          (fun e => e.replies.map fun r => (r.boxes.map (·.cls), r.runtime, r.device)) =
        [[([some 2, some 0], "onnx", "cpu")]] := by
  have street : configNames (thresholdConfig "street.onnx") = some ("onnx", "cpu", "street.onnx") := by decide
  have yard : configNames (thresholdConfig "yard.onnx") = some ("onnx", "cpu", "yard.onnx") := by decide
  have adapters : OfAdapters carAnswers := ofAdapters_sameModels carCv2 carRuntimes
  have fresh : Run (Guarded (Allowed smallEnv carAnswers) (Handles smallEnv)) {}
      [(.message (thresholdConfig "street.onnx"), carBehaviour)] (afterThresholds "street.onnx" {}) :=
    .cons (thresholds_step street (by decide +kernel)) (.nil _)
  have swapped : Run (Guarded (Allowed smallEnv carAnswers) (Handles smallEnv)) {}
      [(.message (thresholdConfig "yard.onnx"), carBehaviour), (.message (thresholdConfig "street.onnx"), carBehaviour)]
      (afterThresholds "street.onnx" (afterThresholds "yard.onnx" {})) :=
    .cons (thresholds_step yard (by decide +kernel)) (.cons (thresholds_step street (by decide +kernel)) (.nil _))
  refine ⟨?_, by decide +kernel⟩
  exact @last_config_wins (fun _ _ => true) carAnswers adapters (adapters_infer_alike carCv2 carRuntimes) []
    [(.message (thresholdConfig "yard.onnx"), carBehaviour)] carBehaviour carBehaviour _ _ (thresholdConfig "street.onnx")
    "street.onnx" rfl rfl rfl rfl (by decide) fresh swapped
    [(.frame [] ⟨16, 8, 48, 1⟩ (List.replicate 384 90), carBehaviour, carBehaviour)]
    (List.forall_mem_singleton.mpr ⟨rfl, carBehaviour_mem, carBehaviour_mem⟩)

end VisionNx.Worker
