import VisionNx.Tracker.NonInterference
import VisionNx.Worker.MaskFilter

/-! # Configs that repeat what is in effect

The engine sends every camera its config again whenever an engine setting changes, also
one that the worker does not read or that the camera overrides.  Such a config costs
nothing: the model stays loaded, the tracks keep their ids, and no reply changes. -/

namespace VisionNx.Worker

open Tracker TransitionRuns

variable {A : Type} {env : Env A} {b : Behaviour A} {s s' : ServeState A} {msg msg' : List (String × Json)}

/-! ## A config in effect -/

/-- The keys that the `config` branch reads. -/
def configKeys : List String :=
  ["runtime", "device", "model_path", "conf", "iou", "classes", "roi", "inclusive_mask", "exclusive_mask",
    "track_max_age", "track_class_match"]

/-- Two configs that `serve` reads alike. -/
def ReadAlike (msg msg' : List (String × Json)) : Prop :=
  ∀ key ∈ configKeys, Json.lookup key msg' = Json.lookup key msg

/-- The state holds what the config says, the adapter apart. -/
structure Holds (msg : List (String × Json)) (s : ServeState A) : Prop where
  conf : ((Json.lookup "conf" msg).getD (.num s.confThr)).toFloat? = some s.confThr
  iou : ((Json.lookup "iou" msg).getD (.num s.iouThr)).toFloat? = some s.iouThr
  classes : s.classFilterIds = classFilter (Json.lookup "classes" msg)
  roi : s.roiNorm = coercePoly (Json.lookup "roi" msg)
  inclusive : s.inclusiveNorm = coercePoly (Json.lookup "inclusive_mask" msg)
  exclusive : s.exclusiveNorm = coercePoly (Json.lookup "exclusive_mask" msg)
  tracker : ∃ t maxAge, s.tracker = some t ∧ optInt (Json.lookup "track_max_age" msg) = some maxAge ∧
    t.setParams none maxAge (optStr (Json.lookup "track_class_match" msg)) = t

/-- The adapter is of the config's runtime and has loaded its model on its device. -/
structure Loaded (env : Env A) (msg : List (String × Json)) (s : ServeState A) : Prop where
  names : ∃ newRuntime newDevice newModel, configNames msg = some (newRuntime, newDevice, newModel) ∧
    s.currentRuntime = newRuntime ∧ ∃ adapter, s.adapter = some adapter ∧
      (newModel = "" ∨ s.currentModel = newModel ∧ s.currentDevice = newDevice ∧ env.hasSession adapter = true)

theorem ReadAlike.textOr (alike : ReadAlike msg msg') {key : String} (mem : key ∈ configKeys) (default : String) :
    textOr msg' key default = textOr msg key default := by
  simp only [Worker.textOr, alike key mem]

theorem ReadAlike.names (alike : ReadAlike msg msg') : configNames msg' = configNames msg := by
  simp only [configNames, alike.textOr (by decide : "runtime" ∈ configKeys),
    alike.textOr (by decide : "device" ∈ configKeys), alike.textOr (by decide : "model_path" ∈ configKeys)]

theorem ReadAlike.holds (alike : ReadAlike msg msg') (holds : Holds msg s) : Holds msg' s where
  conf := by rw [alike "conf" (by decide)]; exact holds.conf
  iou := by rw [alike "iou" (by decide)]; exact holds.iou
  classes := by rw [alike "classes" (by decide)]; exact holds.classes
  roi := by rw [alike "roi" (by decide)]; exact holds.roi
  inclusive := by rw [alike "inclusive_mask" (by decide)]; exact holds.inclusive
  exclusive := by rw [alike "exclusive_mask" (by decide)]; exact holds.exclusive
  tracker := by rw [alike "track_max_age" (by decide), alike "track_class_match" (by decide)]; exact holds.tracker

theorem swapAdapter_current {adapter : A} (present : s.adapter = some adapter) (b : Behaviour A) :
    swapAdapter b s s.currentRuntime = s := by
  simp [swapAdapter, present]

theorem loadModel_current {adapter : A} (present : s.adapter = some adapter) {newModel newDevice : String}
    (current : newModel = "" ∨ s.currentModel = newModel ∧ s.currentDevice = newDevice ∧ env.hasSession adapter = true)
    (b : Behaviour A) : loadModel env b s newModel newDevice = s := by
  have unneeded : ¬ (newModel ≠ "" ∧
      (newModel ≠ s.currentModel ∨ newDevice ≠ s.currentDevice ∨ env.hasSession adapter = false)) := by
    intro needed
    obtain none_given | ⟨model, device, ready⟩ := current
    · exact needed.1 none_given
    · simp [model, device, ready] at needed
  simp only [loadModel, present, if_neg unneeded]

/-- What is in effect is only read again, but for the pixel polygons. -/
theorem Holds.handleConfig (holds : Holds msg s) (loaded : Loaded env msg s) (b : Behaviour A) :
    handleConfig env b s msg = some { s with polyPxCache := [] } := by
  obtain ⟨_, newDevice, newModel, names, rfl, adapter, present, current⟩ := loaded.names
  obtain ⟨t, maxAge, tracked, age_read, same_params⟩ := holds.tracker
  have configured : s.configure msg s.confThr s.iouThr maxAge = { s with polyPxCache := [] } := by
    simp only [ServeState.configure, ← holds.classes, ← holds.roi, ← holds.inclusive, ← holds.exclusive, tracked,
      configTracker, same_params]
  refine handleConfig_eq_some.mpr ⟨_, newDevice, newModel, s.confThr, s.iouThr, maxAge, names, holds.conf, holds.iou,
    age_read, ?_⟩
  have swapped : swapAdapter b { s with polyPxCache := [] } s.currentRuntime = { s with polyPxCache := [] } :=
    @swapAdapter_current A { s with polyPxCache := [] } adapter present b
  rw [configured, swapped]
  exact (@loadModel_current A env { s with polyPxCache := [] } adapter present newModel newDevice current b).symm

/-! ## What keeps it in effect -/

theorem setParams_idem (t : ByteTrackLite) (maxAge : Option ℤ) (matchMode : Option String) :
    (t.setParams none maxAge matchMode).setParams none maxAge matchMode = t.setParams none maxAge matchMode := by
  cases maxAge <;> cases matchMode <;> simp [ByteTrackLite.setParams]

theorem setParams_update {t : ByteTrackLite} {maxAge : Option ℤ} {matchMode : Option String}
    (same : t.setParams none maxAge matchMode = t) (boxes : List Box) :
    (t.update boxes).1.setParams none maxAge matchMode = (t.update boxes).1 := by
  have age : maxAge.getD t.maxAge = t.maxAge := congrArg ByteTrackLite.maxAge same
  have mode : (matchMode.map normalizeMode).getD t.matchMode = t.matchMode := congrArg ByteTrackLite.matchMode same
  have age' : maxAge.getD (t.update boxes).1.maxAge = (t.update boxes).1.maxAge := by
    rw [ByteTrackLite.maxAge_update, age]
  have mode' : (matchMode.map normalizeMode).getD (t.update boxes).1.matchMode = (t.update boxes).1.matchMode := by
    rw [ByteTrackLite.matchMode_update, mode]
  simp only [ByteTrackLite.setParams, Option.getD_none, age', mode']

theorem configTracker_holds (tracker : Option ByteTrackLite) (maxAge : Option ℤ) (matchMode : Option String) :
    (configTracker tracker maxAge matchMode).setParams none maxAge matchMode =
        configTracker tracker maxAge matchMode := by
  cases tracker with
  | none =>
    cases maxAge <;> cases matchMode <;> simp [configTracker, ByteTrackLite.init, ByteTrackLite.setParams]
  | some t => exact setParams_idem t maxAge matchMode

theorem holds_config (handled : handleConfig env b s msg = some s') : Holds msg s' := by
  obtain ⟨conf, iou, maxAge, adapter, runtime, device, model, conf_read, iou_read, age_read, rfl⟩ :=
    handleConfig_state handled
  have again : ∀ {v : Option Json} {x y : ℚ}, (v.getD (.num x)).toFloat? = some y →
      (v.getD (.num y)).toFloat? = some y := by
    intro v x y read
    cases v with
    | none => rfl
    | some v => exact read
  exact ⟨again conf_read, again iou_read, rfl, rfl, rfl, rfl, _, maxAge, rfl, age_read, configTracker_holds _ _ _⟩

theorem Holds.other {e : Incoming × Behaviour A} (holds : Holds msg s) (handles : Handles env s e s')
    (other : e.1.config? = none) : Holds msg s' := by
  obtain ⟨t, maxAge, tracked, age_read, same⟩ := holds.tracker
  obtain ⟨_, _, is_config, -⟩ | ⟨_, hdr, body, cam, -, rfl⟩ | ⟨-, -, cam, rfl⟩ := handles_cases handles
  · rw [other] at is_config
    cases is_config
  · obtain ⟨cache, tracker, kept, -⟩ := handleFrame_keeps env e.2 { s with cam := cam } hdr body
    obtain ⟨boxes, _, -, -, -, ticked, -⟩ := @handleFrame_tracked A env e.2 { s with cam := cam } t tracked hdr body
    rw [kept] at ticked ⊢
    exact ⟨holds.conf, holds.iou, holds.classes, holds.roi, holds.inclusive, holds.exclusive, _, maxAge, ticked,
      age_read, setParams_update same boxes⟩
  · exact ⟨holds.conf, holds.iou, holds.classes, holds.roi, holds.inclusive, holds.exclusive, t, maxAge, tracked,
      age_read, same⟩

/-- The state after `messages` holds what the last of their configs says. -/
def HoldsLast (messages : List Incoming) (s : ServeState A) : Prop :=
  ∀ msg, lastConfig messages = some msg → Holds msg s

theorem HoldsLast.step {messages : List Incoming} {e : Incoming × Behaviour A} (holds : HoldsLast messages s)
    (handles : Handles env s e s') : HoldsLast (messages ++ [e.1]) s' := by
  intro msg last
  cases is_config : e.1.config? with
  | none =>
    have same : lastConfig (messages ++ [e.1]) = lastConfig messages := by simp [lastConfig, is_config]
    exact (holds msg (same.symm.trans last)).other handles is_config
  | some msg' =>
    obtain rfl : msg' = msg := by simpa [lastConfig, is_config] using last
    obtain ⟨cam, handled⟩ := config_handled handles is_config
    exact holds_config handled

/-! ## Two connections -/

/-- Two states that differ in the pixel polygons and the camera's id only. -/
def SameButCaches (s s' : ServeState A) : Prop := ∃ cache cam, s' = { s with polyPxCache := cache, cam := cam }

/-- The pixel polygons in the cache are those of the regions. -/
def Cached (s : ServeState A) : Prop :=
  ∀ w h, polyPx s w h = (normalizeToPixelPolygon s.inclusiveNorm w h, normalizeToPixelPolygon s.exclusiveNorm w h)

theorem swapAdapter_alike (cam : Json) (newRuntime : String) :
    swapAdapter b { s with cam := cam } newRuntime = { swapAdapter b s newRuntime with cam := cam } := by
  simp only [swapAdapter]
  split
  · cases makeAdapter b newRuntime <;> rfl
  · rfl

theorem loadModel_alike (cam : Json) (newModel newDevice : String) :
    loadModel env b { s with cam := cam } newModel newDevice =
      { loadModel env b s newModel newDevice with cam := cam } := by
  have same : loadCall env { s with cam := cam } newModel newDevice = loadCall env s newModel newDevice := rfl
  rw [loadModel_eq, loadModel_eq, same]
  cases loadCall env s newModel newDevice with
  | none => rfl
  | some adapter =>
    simp only
    split
    · rfl
    · rfl

theorem SameButCaches.config (alike : SameButCaches s s') (msg : List (String × Json)) :
    ∃ cam, handleConfig env b s' msg = (handleConfig env b s msg).map fun next => { next with cam := cam } := by
  obtain ⟨cache, cam, rfl⟩ := alike
  refine ⟨cam, Option.ext fun next => ?_⟩
  rw [handleConfig_eq_some, Option.map_eq_some_iff]
  have after : ∀ conf iou maxAge newRuntime newModel newDevice,
      loadModel env b (swapAdapter b (ServeState.configure
        { s with polyPxCache := cache, cam := cam } msg conf iou maxAge)
        newRuntime) newModel newDevice =
      { loadModel env b (swapAdapter b (s.configure msg conf iou maxAge) newRuntime) newModel newDevice with
        cam := cam } := by
    intro conf iou maxAge newRuntime newModel newDevice
    rw [← loadModel_alike, ← swapAdapter_alike]
    rfl
  constructor
  · intro read
    obtain ⟨newRuntime, newDevice, newModel, conf, iou, maxAge, names, conf_read, iou_read, age_read, rfl⟩ := read
    exact ⟨_, handleConfig_eq_some.mpr ⟨newRuntime, newDevice, newModel, conf, iou, maxAge, names, conf_read, iou_read,
      age_read, rfl⟩, (after _ _ _ _ _ _).symm⟩
  · intro read
    obtain ⟨_, handled, rfl⟩ := read
    obtain ⟨newRuntime, newDevice, newModel, conf, iou, maxAge, names, conf_read, iou_read, age_read, rfl⟩ :=
      handleConfig_eq_some.mp handled
    exact ⟨newRuntime, newDevice, newModel, conf, iou, maxAge, names, conf_read, iou_read, age_read,
      (after _ _ _ _ _ _).symm⟩

def ServeState.recached (s : ServeState A)
    (cache : List ((ℤ × ℤ) × (Option (List (ℤ × ℤ)) × Option (List (ℤ × ℤ))))) : ServeState A :=
  { s with polyPxCache := cache }

def FrameProgress.recached (p : FrameProgress A)
    (cache : List ((ℤ × ℤ) × (Option (List (ℤ × ℤ)) × Option (List (ℤ × ℤ))))) : FrameProgress A :=
  { p with state := p.state.recached cache }

theorem tick_recached (p : FrameProgress A)
    (cache : List ((ℤ × ℤ) × (Option (List (ℤ × ℤ)) × Option (List (ℤ × ℤ))))) :
    (p.recached cache).tick = p.tick.recached cache := by
  cases tracked : p.state.tracker with
  | none => simp only [FrameProgress.tick, FrameProgress.recached, ServeState.recached, tracked]
  | some t => simp only [FrameProgress.tick, FrameProgress.recached, ServeState.recached, tracked]

variable {cache : List ((ℤ × ℤ) × (Option (List (ℤ × ℤ)) × Option (List (ℤ × ℤ))))} {hdr : FrameHeader}
  {body : List UInt8}

theorem maybeInfer_recached (cached : Cached s) (cached' : Cached (s.recached cache)) :
    ∃ cache', maybeInfer env b (s.recached cache) hdr body = (maybeInfer env b s hdr body).recached cache' := by
  have input : inferInput env (s.recached cache) hdr body = inferInput env s hdr body := rfl
  have found : allBoxes b (s.recached cache) hdr = allBoxes b s hdr := rfl
  rw [maybeInfer_eq, maybeInfer_eq, input, found]
  cases (inferInput env s hdr body).bind (allBoxes b s hdr) with
  | none => exact ⟨cache, rfl⟩
  | some boxes =>
    obtain ⟨cache₁, masked, -⟩ := applyMasks_keeps env s hdr.w hdr.h boxes
    obtain ⟨cache₂, masked', -⟩ := applyMasks_keeps env (s.recached cache) hdr.w hdr.h boxes
    have same_boxes : (applyMasks env (s.recached cache) hdr.w hdr.h boxes).1 =
        (applyMasks env s hdr.w hdr.h boxes).1 := by
      rw [applyMasks_boxes _ _ _ _ _ (cached hdr.w hdr.h), applyMasks_boxes _ _ _ _ _ (cached' hdr.w hdr.h)]
      rfl
    refine ⟨cache₂, ?_⟩
    rw [← tick_recached]
    simp only [masked, masked', same_boxes]
    rfl

/-- The cache does not show in what a frame does. -/
theorem handleFrame_recached (cached : Cached s) (cached' : Cached (s.recached cache)) :
    ∃ cache', handleFrame env b (s.recached cache) hdr body =
      ((handleFrame env b s hdr body).1.recached cache', (handleFrame env b s hdr body).2) := by
  obtain ⟨cache', inferred⟩ := @maybeInfer_recached A env b s cache hdr body cached cached'
  refine ⟨cache', ?_⟩
  have ticked : ((maybeInfer env b s hdr body).recached cache').trackerTicked =
      (maybeInfer env b s hdr body).trackerTicked := rfl
  simp only [handleFrame, inferred, tick_recached, ticked]
  split
  · rfl
  · rfl

/-- The frame tells the camera's id. -/
def Incoming.NamesCamera : Incoming → Prop
  | .frame msg _ _ => (Json.lookup "camera_uuid" msg).isSome = true
  | _ => True

/-- Two alike connections handle a message alike, or both end. -/
theorem SameButCaches.step (alike : SameButCaches s s') (cached : Cached s) (cached' : Cached s') {m : Incoming}
    (names : m.NamesCamera) :
    (handle env b s m = none ∧ handle env b s' m = none) ∨
      ∃ next next' effects, handle env b s m = some (next, effects) ∧ handle env b s' m = some (next', effects) ∧
        SameButCaches next next' := by
  obtain ⟨cache, cam, rfl⟩ := alike
  cases m with
  | garbled => exact .inr ⟨_, _, _, rfl, rfl, cache, cam, rfl⟩
  | frame msg hdr body =>
    obtain ⟨uuid, named⟩ := Option.isSome_iff_exists.mp names
    obtain ⟨cache', same⟩ := @handleFrame_recached A env b { s with cam := uuid } cache hdr body cached cached'
    rw [ServeState.recached] at same
    refine .inr ⟨(handleFrame env b { s with cam := uuid } hdr body).1,
      (handleFrame env b { s with cam := uuid } hdr body).1.recached cache',
      (handleFrame env b { s with cam := uuid } hdr body).2, ?_, ?_, cache', _, rfl⟩
    · simp only [handle, named, Option.getD_some]
    · simp only [handle, named, Option.getD_some, same]
  | message msg =>
    simp only [handle]
    split
    next => exact .inr ⟨_, _, _, rfl, rfl, cache, _, rfl⟩
    next =>
      split
      next => exact .inl ⟨rfl, rfl⟩
      next =>
        split
        next =>
          have alike : SameButCaches { s with cam := (Json.lookup "camera_uuid" msg).getD s.cam }
              { s with polyPxCache := cache, cam := (Json.lookup "camera_uuid" msg).getD cam } := ⟨cache, _, rfl⟩
          obtain ⟨cam', same⟩ := @SameButCaches.config A env b _ _ alike msg
          cases handled : handleConfig env b { s with cam := (Json.lookup "camera_uuid" msg).getD s.cam } msg with
          | none => exact .inl ⟨rfl, by rw [same, handled]; rfl⟩
          | some next => exact .inr ⟨next, _, {}, rfl, by rw [same, handled]; rfl, next.polyPxCache, cam', rfl⟩
        next => exact .inr ⟨_, _, _, rfl, rfl, cache, _, rfl⟩

/-- A config that repeats what is in effect leaves the connection as it is. -/
theorem SameButCaches.again (alike : SameButCaches s s') (holds : Holds msg s) (loaded : Loaded env msg s)
    (is_config : typeIs "config" msg' = true) (same : ReadAlike msg msg') :
    ∃ next', handle env b s' (.message msg') = some (next', {}) ∧ SameButCaches s next' := by
  obtain ⟨cache, cam, rfl⟩ := alike
  have not_attach : typeIs "attach" msg' = false := by
    by_contra attach
    exact absurd (typeIs_unique is_config (Bool.not_eq_false _ ▸ attach)) (by decide)
  have not_detach : typeIs "detach" msg' = false := by
    by_contra detach
    exact absurd (typeIs_unique is_config (Bool.not_eq_false _ ▸ detach)) (by decide)
  have read := same.holds holds
  have holds' : Holds msg' { s with polyPxCache := cache, cam := (Json.lookup "camera_uuid" msg').getD cam } :=
    ⟨read.conf, read.iou, read.classes, read.roi, read.inclusive, read.exclusive, read.tracker⟩
  have loaded' : Loaded env msg' { s with polyPxCache := cache, cam := (Json.lookup "camera_uuid" msg').getD cam } :=
    ⟨by rw [same.names]; exact loaded.names⟩
  refine ⟨_, ?_, [], (Json.lookup "camera_uuid" msg').getD cam, rfl⟩
  simp only [handle, not_attach, not_detach, is_config, Bool.false_eq_true, if_false, if_true,
    holds'.handleConfig loaded' b]
  rfl

/-! ## Histories -/

/-- The second history is the first with further configs in between, each of which repeats
    the last config of the first at a place where that one is in effect. -/
inductive Repeats (env : Env A) : List Incoming → ServeState A →
    List (Incoming × Behaviour A) → List (Incoming × Behaviour A) → Prop where
  | nil (past : List Incoming) (s : ServeState A) : Repeats env past s [] []
  | both {past : List Incoming} {s : ServeState A} {e : Incoming × Behaviour A}
      {events events' : List (Incoming × Behaviour A)}
      (rest : ∀ next effects, handle env e.2 s e.1 = some (next, effects) →
        Repeats env (past ++ [e.1]) next events events') : Repeats env past s (e :: events) (e :: events')
  | again {past : List Incoming} {s : ServeState A} {msg msg' : List (String × Json)} {b : Behaviour A}
      {events events' : List (Incoming × Behaviour A)} (last : lastConfig past = some msg)
      (is_config : typeIs "config" msg' = true) (same : ReadAlike msg msg') (loaded : Loaded env msg s)
      (rest : Repeats env past s events events') : Repeats env past s events ((.message msg', b) :: events')

theorem Repeats.run {past past' : List Incoming} {events events' : List (Incoming × Behaviour A)}
    (repeats : Repeats env past s events events') (names : ∀ e ∈ events, e.1.NamesCamera) (alike : SameButCaches s s')
    (inForce : InForce past s) (inForce' : InForce past' s') (holds : HoldsLast past s) :
    SameButCaches (Worker.run env s events).1 (Worker.run env s' events').1 ∧
      (Worker.run env s' events').2.flatMap (·.replies) = (Worker.run env s events).2.flatMap (·.replies) ∧
      (Worker.run env s' events').2.flatMap (·.updates) = (Worker.run env s events).2.flatMap (·.updates) := by
  induction repeats generalizing s' past' with
  | nil past s => exact ⟨alike, rfl, rfl⟩
  | @both past s e events events' rest ih =>
    obtain ⟨m, b⟩ := e
    have first := @SameButCaches.step A env b s s' alike inForce.polyPx inForce'.polyPx m (names _ List.mem_cons_self)
    obtain ⟨ended, ended'⟩ | ⟨next, next', effects, handled, handled', alike_next⟩ := first
    · simp only [Worker.run, ended, ended']
      exact ⟨alike, trivial, trivial⟩
    · obtain ⟨states, replies, updates⟩ := ih next effects handled (fun e mem => names e (List.mem_cons_of_mem _ mem))
        alike_next (@InForce.step A env s next past (m, b) inForce ⟨effects, handled⟩)
        (@InForce.step A env s' next' past' (m, b) inForce' ⟨effects, handled'⟩)
        (@HoldsLast.step A env s next past (m, b) holds ⟨effects, handled⟩)
      simp only [Worker.run, handled, handled', List.flatMap_cons, replies, updates]
      exact ⟨states, trivial, trivial⟩
  | @again past s msg msg' b events events' last is_config same loaded rest ih =>
    obtain ⟨next', handled', alike_next⟩ :=
      @SameButCaches.again A env b s s' msg msg' alike (holds msg last) loaded is_config same
    obtain ⟨states, replies, updates⟩ := ih names alike_next inForce
      (@InForce.step A env s' next' past' (.message msg', b) inForce' ⟨{}, handled'⟩) holds
    simp only [Worker.run, handled', List.flatMap_cons, replies, updates]
    exact ⟨states, rfl, rfl⟩

/-- Configs that repeat what is in effect, sent any number of times at any places and
    whatever the adapters would do to another load, change none of the replies, nothing of
    what the tracker is given, and of the connection's state nothing but the pixel polygons
    and the camera's id. -/
theorem repeated_configs_change_nothing (env : Env A) {events events' : List (Incoming × Behaviour A)}
    (repeats : Repeats env [] {} events events') (names : ∀ e ∈ events, e.1.NamesCamera) :
    SameButCaches (run env {} events).1 (run env {} events').1 ∧
      (run env {} events').2.flatMap (·.replies) = (run env {} events).2.flatMap (·.replies) ∧
      (run env {} events').2.flatMap (·.updates) = (run env {} events).2.flatMap (·.updates) :=
  repeats.run names ⟨[], .str "?", rfl⟩ inForce_start inForce_start fun _ none_there => by
    simp [lastConfig] at none_there

/-- `configMsg` again, from a camera whose engine has another worker count. -/
def configMsgAgain : List (String × Json) := ("worker_count", .num 2) :: configMsg

def carEvent (id : ℤ) : Incoming × Behaviour Unit :=
  (.frame [("camera_uuid", .str "cam")] ⟨1, 1, 3, id⟩ [1, 2, 3], carOrRaise true)

/-- Whatever is tried raises. -/
def refusing : Behaviour Unit where
  construct _ := none
  load a _ _ := (a, false)
  infer _ _ _ _ _ := none
  inferMs := 0

theorem configMsg_again : ReadAlike configMsg configMsgAgain := by
  intro key mem
  have other : ("worker_count" == key) = false := by
    rw [beq_eq_false_iff_ne]
    intro same
    subst same
    exact absurd mem (by decide)
  simp [Json.lookup, configMsgAgain, other]

theorem loaded_configMsg {next : ServeState Unit} {effects : Effects}
    (handled : handle loadedEnv (carOrRaise true) {} (.message configMsg) = some (next, effects)) :
    Loaded loadedEnv configMsg next := by
  have names : (handle loadedEnv (carOrRaise true) {} (.message configMsg)).map (fun r =>
      (r.1.currentRuntime, r.1.adapter, r.1.currentModel, r.1.currentDevice)) =
      some ("onnx", some (), "yolo26n.onnx", "cpu") := by
    decide +kernel
  simp only [handled, Option.map_some, Option.some.injEq, Prod.mk.injEq] at names
  obtain ⟨runtime, adapter, model, device⟩ := names
  exact ⟨"onnx", "cpu", "yolo26n.onnx", by decide +kernel, runtime, (), adapter, .inr ⟨model, device, rfl⟩⟩

/-- The config comes twice before two frames; a second load would have raised. -/
theorem repeated_configs_change_nothing_twice :
    (run loadedEnv {} [(.message configMsg, carOrRaise true), (.message configMsgAgain, refusing), carEvent 7,
      carEvent 8]).2.flatMap (·.replies) =
    (run loadedEnv {} [(.message configMsg, carOrRaise true), carEvent 7, carEvent 8]).2.flatMap (·.replies) := by
  have last : lastConfig [.message configMsg] = some configMsg := by
    have is_config : typeIs "config" configMsg = true := by decide +kernel
    simp [lastConfig, Incoming.config?, is_config]
  have repeats : Repeats loadedEnv [] {} [(.message configMsg, carOrRaise true), carEvent 7, carEvent 8]
      [(.message configMsg, carOrRaise true), (.message configMsgAgain, refusing), carEvent 7, carEvent 8] := by
    refine .both fun next effects handled => ?_
    exact .again last (by decide +kernel) configMsg_again (loaded_configMsg handled)
      (.both fun _ _ _ => .both fun _ _ _ => .nil _ _)
  refine (repeated_configs_change_nothing loadedEnv repeats fun e mem => ?_).2.1
  simp only [List.mem_cons, List.not_mem_nil, or_false] at mem
  obtain rfl | rfl | rfl := mem
  · trivial
  · rfl
  · rfl

end VisionNx.Worker
