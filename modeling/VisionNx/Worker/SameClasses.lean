import VisionNx.Worker.Narrowing

/-! # The classes that are selected

Of the class filter only the set of classes that pass it matters: two connections whose
filters pass the same of the 80 classes see the same boxes with the same track ids. -/

namespace VisionNx.Worker

open Tracker

/-- Two filters that pass the same of the 80 classes, and are empty alike. -/
def SameFilter (classFilter classFilter' : Option (List ℕ)) : Prop :=
  (classFilter = some [] ↔ classFilter' = some []) ∧ PassSame classFilter classFilter'

def ServeState.refiltered {A : Type} (s : ServeState A) (classFilter : Option (List ℕ)) : ServeState A :=
  { s with classFilterIds := classFilter }

def FrameProgress.refiltered {A : Type} (p : FrameProgress A) (classFilter : Option (List ℕ)) : FrameProgress A :=
  { p with state := p.state.refiltered classFilter }

section

variable {A : Type} {env : Env A} {b : Behaviour A} {s : ServeState A} {classFilter : Option (List ℕ)}

/-! ## What does not read the filter -/

theorem swapAdapter_refiltered (newRuntime : String) :
    swapAdapter b (s.refiltered classFilter) newRuntime = (swapAdapter b s newRuntime).refiltered classFilter := by
  have runtime : (s.refiltered classFilter).currentRuntime = s.currentRuntime := rfl
  have adapter : (s.refiltered classFilter).adapter = s.adapter := rfl
  simp only [swapAdapter, runtime, adapter]
  by_cases swaps : newRuntime ≠ s.currentRuntime ∨ s.adapter.isNone = true
  · rw [if_pos swaps, if_pos swaps]
    cases makeAdapter b newRuntime with
    | none => rfl
    | some adapter => rfl
  · rw [if_neg swaps, if_neg swaps]

theorem loadModel_refiltered (newModel newDevice : String) :
    loadModel env b (s.refiltered classFilter) newModel newDevice =
      (loadModel env b s newModel newDevice).refiltered classFilter := by
  have same : loadCall env (s.refiltered classFilter) newModel newDevice = loadCall env s newModel newDevice := rfl
  rw [loadModel_eq, loadModel_eq, same]
  cases loadCall env s newModel newDevice with
  | none => rfl
  | some adapter =>
    simp only
    split
    · rfl
    · rfl

theorem applyMasks_refiltered (w h : ℤ) (boxes : List Box) :
    applyMasks env (s.refiltered classFilter) w h boxes =
      ((applyMasks env s w h boxes).1, (applyMasks env s w h boxes).2.refiltered classFilter) := by
  have poly : polyPx (s.refiltered classFilter) w h = polyPx s w h := rfl
  simp only [applyMasks, poly]
  cases masked : s.inclusiveNorm.isSome || s.exclusiveNorm.isSome with
  | true =>
    have masked' : ((s.refiltered classFilter).inclusiveNorm.isSome || (s.refiltered classFilter).exclusiveNorm.isSome) = true :=
      masked
    simp only [masked', if_true]
    rfl
  | false =>
    have masked' : ((s.refiltered classFilter).inclusiveNorm.isSome || (s.refiltered classFilter).exclusiveNorm.isSome) = false :=
      masked
    simp only [masked', Bool.false_eq_true, if_false]

theorem tick_refiltered (p : FrameProgress A) : (p.refiltered classFilter).tick = p.tick.refiltered classFilter := by
  cases tracked : p.state.tracker with
  | none => simp only [FrameProgress.tick, FrameProgress.refiltered, ServeState.refiltered, tracked]
  | some t => simp only [FrameProgress.tick, FrameProgress.refiltered, ServeState.refiltered, tracked]

end

/-! ## One message -/

variable {pointPolygonTest : List (ℤ × ℤ) → ℚ × ℚ → Bool} {cv2 : Cv2} {b : Behaviour Adapter}
  {s s' : ServeState Adapter} {hdr : FrameHeader} {body : List UInt8} {allowed : Layout → Prop}
  {classFilter : Option (List ℕ)}

theorem found_refiltered (same : SameFilter s.classFilterIds classFilter) (infers : b.infer = Adapter.infer cv2)
    (detects : ∀ adapter, s.adapter = some adapter → adapter.Detects allowed) :
    (inferInput (adapterEnv pointPolygonTest) (s.refiltered classFilter) hdr body).bind
        (allBoxes b (s.refiltered classFilter) hdr) =
      (inferInput (adapterEnv pointPolygonTest) s hdr body).bind (allBoxes b s hdr) := by
  by_cases nothing : s.classFilterIds = some []
  · rw [inferInput_of_empty nothing, inferInput_of_empty (s := s.refiltered classFilter) (same.1.mp nothing)]
    rfl
  · have called : inferInput (adapterEnv pointPolygonTest) (s.refiltered classFilter) hdr body =
        inferInput (adapterEnv pointPolygonTest) s hdr body := by
      have nothing' : ¬(s.refiltered classFilter).classFilterIds = some [] := fun empty => nothing (same.1.mpr empty)
      rw [inferInput, inferInput, if_neg nothing', if_neg nothing]
      rfl
    rw [called]
    cases input : inferInput (adapterEnv pointPolygonTest) s hdr body with
    | none => rfl
    | some given =>
      have inferred := @Adapter.infer_same s.confThr s.iouThr s.classFilterIds classFilter allowed given.1 cv2 given.2.img
        (detects _ (inferInput_adapter input)) same.2
      simp only [Option.bind_some, allBoxes, ServeState.refiltered, infers, inferred]

theorem handleFrame_refiltered (same : SameFilter s.classFilterIds classFilter) (infers : b.infer = Adapter.infer cv2)
    (detects : ∀ adapter, s.adapter = some adapter → adapter.Detects allowed) :
    handleFrame (adapterEnv pointPolygonTest) b (s.refiltered classFilter) hdr body =
      ((handleFrame (adapterEnv pointPolygonTest) b s hdr body).1.refiltered classFilter,
        (handleFrame (adapterEnv pointPolygonTest) b s hdr body).2) := by
  have inferred : maybeInfer (adapterEnv pointPolygonTest) b (s.refiltered classFilter) hdr body =
      (maybeInfer (adapterEnv pointPolygonTest) b s hdr body).refiltered classFilter := by
    rw [maybeInfer_eq, maybeInfer_eq, found_refiltered same infers detects]
    cases (inferInput (adapterEnv pointPolygonTest) s hdr body).bind (allBoxes b s hdr) with
    | none => rfl
    | some boxes =>
      rw [← tick_refiltered]
      simp only [applyMasks_refiltered]
      rfl
  have ticked : ((maybeInfer (adapterEnv pointPolygonTest) b s hdr body).refiltered classFilter).trackerTicked =
      (maybeInfer (adapterEnv pointPolygonTest) b s hdr body).trackerTicked := rfl
  simp only [handleFrame, inferred, tick_refiltered, ticked]
  split
  · rfl
  · rfl

/-- Two configs that only differ in how they spell the classes. -/
structure SameButClasses (msg msg' : List (String × Json)) : Prop where
  others : ∀ key, key ≠ "classes" → Json.lookup key msg' = Json.lookup key msg
  classes : SameFilter (Worker.classFilter (Json.lookup "classes" msg)) (Worker.classFilter (Json.lookup "classes" msg'))

theorem SameButClasses.names {msg msg' : List (String × Json)} (same : SameButClasses msg msg') :
    configNames msg' = configNames msg := by
  have texts : ∀ key default, key ≠ "classes" → textOr msg' key default = textOr msg key default := by
    intro key default other
    rw [textOr, textOr, same.others key other]
  simp only [configNames, texts "runtime" _ (by decide), texts "device" _ (by decide), texts "model_path" _ (by decide)]

theorem handleConfig_refiltered {A : Type} {env : Env A} {b : Behaviour A} {s : ServeState A}
    {msg msg' : List (String × Json)} (same : SameButClasses msg msg') (classFilter : Option (List ℕ)) :
    handleConfig env b (s.refiltered classFilter) msg' = (handleConfig env b s msg).map
      fun next => next.refiltered (Worker.classFilter (Json.lookup "classes" msg')) := by
  have after : ∀ conf iou maxAge newRuntime newModel newDevice,
      loadModel env b (swapAdapter b ((s.refiltered classFilter).configure msg' conf iou maxAge) newRuntime) newModel
          newDevice =
        (loadModel env b (swapAdapter b (s.configure msg conf iou maxAge) newRuntime) newModel newDevice).refiltered
          (Worker.classFilter (Json.lookup "classes" msg')) := by
    intro conf iou maxAge newRuntime newModel newDevice
    rw [← loadModel_refiltered, ← swapAdapter_refiltered]
    simp only [ServeState.configure, ServeState.refiltered, same.others "roi" (by decide),
      same.others "inclusive_mask" (by decide), same.others "exclusive_mask" (by decide),
      same.others "track_class_match" (by decide)]
  have conf := same.others "conf" (by decide)
  have iou := same.others "iou" (by decide)
  have age := same.others "track_max_age" (by decide)
  apply Option.ext
  intro next
  rw [handleConfig_eq_some, Option.map_eq_some_iff, same.names, conf, iou, age]
  constructor
  · intro read
    obtain ⟨newRuntime, newDevice, newModel, conf, iou, maxAge, names, conf_read, iou_read, age_read, rfl⟩ := read
    exact ⟨_, handleConfig_eq_some.mpr ⟨newRuntime, newDevice, newModel, conf, iou, maxAge, names, conf_read, iou_read,
      age_read, rfl⟩, (after _ _ _ _ _ _).symm⟩
  · intro read
    obtain ⟨_, handled, rfl⟩ := read
    obtain ⟨newRuntime, newDevice, newModel, conf, iou, maxAge, names, conf_read, iou_read, age_read, rfl⟩ :=
      handleConfig_eq_some.mp handled
    exact ⟨newRuntime, newDevice, newModel, conf, iou, maxAge, names, conf_read, iou_read, age_read,
      (after _ _ _ _ _ _).symm⟩

/-! ## Runs -/

/-- Two states that differ in the class filter only, which passes the same classes. -/
structure SelectsSame (allowed : Layout → Prop) (s s' : ServeState Adapter) : Prop where
  filtered : ∃ classFilter, s' = s.refiltered classFilter ∧ SameFilter s.classFilterIds classFilter
  detects : ∀ adapter, s.adapter = some adapter → adapter.Detects allowed

/-- The same message, or two configs that only differ in how they spell the classes. -/
inductive Respelled : Incoming → Incoming → Prop where
  | config {m m' : Incoming} {msg msg' : List (String × Json)} : m.config? = some msg → m'.config? = some msg' →
      SameButClasses msg msg' → Respelled m m'
  | other {m : Incoming} : m.config? = none → Respelled m m

theorem selectsSame_start (allowed : Layout → Prop) : SelectsSame allowed {} {} :=
  ⟨⟨none, rfl, Iff.rfl, fun _ _ _ => rfl⟩, nofun⟩

theorem SelectsSame.frame (selects : SelectsSame allowed s s') (served : Served cv2 allowed b)
    (msg : List (String × Json)) :
    ∃ t t' out, handle (adapterEnv pointPolygonTest) b s (.frame msg hdr body) = some (t, out) ∧
      handle (adapterEnv pointPolygonTest) b s' (.frame msg hdr body) = some (t', out) ∧ SelectsSame allowed t t' := by
  obtain ⟨classFilter, rfl, same⟩ := selects.filtered
  generalize is_seen : ({ s with cam := (Json.lookup "camera_uuid" msg).getD s.cam } : ServeState Adapter) = seen
  have answered : handle (adapterEnv pointPolygonTest) b s (.frame msg hdr body) =
      some (handleFrame (adapterEnv pointPolygonTest) b seen hdr body) := by
    rw [handle, is_seen]
  have answered' : handle (adapterEnv pointPolygonTest) b (s.refiltered classFilter) (.frame msg hdr body) =
      some (handleFrame (adapterEnv pointPolygonTest) b (seen.refiltered classFilter) hdr body) := by
    rw [← is_seen]
    rfl
  have filter : (handleFrame (adapterEnv pointPolygonTest) b seen hdr body).1.classFilterIds = s.classFilterIds := by
    obtain ⟨cache, tracker, is, -, -⟩ := handleFrame_keeps (adapterEnv pointPolygonTest) b seen hdr body
    rw [is, ← is_seen]
  rw [@handleFrame_refiltered pointPolygonTest cv2 b seen hdr body allowed classFilter (is_seen ▸ same) served.infers
    (is_seen ▸ selects.detects)] at answered'
  exact ⟨_, _, _, answered, answered', ⟨classFilter, rfl, filter ▸ same⟩, served.detects selects.detects ⟨_, answered⟩⟩

theorem SelectsSame.config (selects : SelectsSame allowed s s') (served : Served cv2 allowed b) {m m' : Incoming}
    {msg msg' : List (String × Json)} (is_config : m.config? = some msg) (is_config' : m'.config? = some msg')
    (spelled : SameButClasses msg msg') :
    (handle (adapterEnv pointPolygonTest) b s m = none ∧ handle (adapterEnv pointPolygonTest) b s' m' = none) ∨
      ∃ t t', handle (adapterEnv pointPolygonTest) b s m = some (t, {}) ∧
        handle (adapterEnv pointPolygonTest) b s' m' = some (t', {}) ∧ SelectsSame allowed t t' := by
  obtain ⟨classFilter, rfl, same⟩ := selects.filtered
  generalize is_seen : ({ s with cam := (Json.lookup "camera_uuid" msg).getD s.cam } : ServeState Adapter) = seen
  have handled := @handle_config Adapter (adapterEnv pointPolygonTest) b s m msg is_config
  have handled' := @handle_config Adapter (adapterEnv pointPolygonTest) b (s.refiltered classFilter) m' msg' is_config'
  have seen' : ({ s.refiltered classFilter with
      cam := (Json.lookup "camera_uuid" msg').getD (s.refiltered classFilter).cam } : ServeState Adapter) =
        seen.refiltered classFilter := by
    rw [spelled.others "camera_uuid" (by decide), ← is_seen]
    rfl
  rw [is_seen] at handled
  rw [seen', handleConfig_refiltered spelled] at handled'
  cases configured : handleConfig (adapterEnv pointPolygonTest) b seen msg with
  | none =>
    rw [configured] at handled handled'
    exact .inl ⟨handled, handled'⟩
  | some next =>
    rw [configured] at handled handled'
    have filter : next.classFilterIds = Worker.classFilter (Json.lookup "classes" msg) := by
      obtain ⟨conf, iou, maxAge, adapter, runtime, device, model, -, -, -, rfl⟩ := handleConfig_state configured
      rfl
    exact .inr ⟨next, _, handled, handled', ⟨_, rfl, filter ▸ spelled.classes⟩,
      served.detects selects.detects ⟨_, handled⟩⟩

theorem SelectsSame.step (selects : SelectsSame allowed s s') (served : Served cv2 allowed b) {m m' : Incoming}
    (respelled : Respelled m m') :
    (handle (adapterEnv pointPolygonTest) b s m = none ∧ handle (adapterEnv pointPolygonTest) b s' m' = none) ∨
      ∃ t out t' out', handle (adapterEnv pointPolygonTest) b s m = some (t, out) ∧
        handle (adapterEnv pointPolygonTest) b s' m' = some (t', out') ∧ SelectsSame allowed t t' ∧ out = out' := by
  cases respelled with
  | config is_config is_config' spelled =>
    refine (selects.config served is_config is_config' spelled).imp id fun handled => ?_
    obtain ⟨t, t', handled, handled', next⟩ := handled
    exact ⟨t, {}, t', {}, handled, handled', next, rfl⟩
  | other no_config =>
    cases m with
    | frame msg hdr body =>
      obtain ⟨t, t', out, handled, handled', next⟩ := @SelectsSame.frame pointPolygonTest cv2 b s s' hdr body allowed
        selects served msg
      exact .inr ⟨t, out, t', out, handled, handled', next, rfl⟩
    | garbled => exact .inr ⟨s, {}, s', {}, rfl, rfl, selects, rfl⟩
    | message msg =>
      obtain ⟨classFilter, rfl, same⟩ := selects.filtered
      cases @handle_other Adapter (adapterEnv pointPolygonTest) b (.message msg) no_config rfl with
      | inl ends => exact .inl ⟨ends s, ends _⟩
      | inr goes_on =>
        obtain ⟨camOf, handled⟩ := goes_on
        exact .inr ⟨_, _, _, _, handled s, handled _, ⟨⟨classFilter, rfl, same⟩, selects.detects⟩, rfl⟩

end VisionNx.Worker
