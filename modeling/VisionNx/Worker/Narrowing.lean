import VisionNx.Worker.Detectors
import VisionNx.Worker.MaskFilter
import VisionNx.Worker.ModelBookkeeping

/-! # Tighter settings show less

Two connections get the same frames, the second one under settings that ask for less: a
higher confidence, fewer classes, masks where there were none.  If the model suppresses
duplicates itself, the second one shows nothing that the first one does not. -/

namespace VisionNx.Worker

open Tracker

/-! ## Two loops side by side -/

section

variable {A : Type} {env : Env A} {b : Behaviour A} {s s' : ServeState A}

theorem handle_config {m : Incoming} {msg : List (String × Json)} (is_config : m.config? = some msg) :
    handle env b s m = (handleConfig env b { s with cam := (Json.lookup "camera_uuid" msg).getD s.cam } msg).map
      fun next => (next, {}) := by
  cases m with
  | garbled | frame => cases is_config
  | message msg' =>
    simp only [Incoming.config?] at is_config
    split at is_config
    next typed =>
      cases is_config
      have untyped : ∀ t, t ≠ "config" → typeIs t msg = false := by
        intro t other
        by_contra is
        exact other (typeIs_unique (eq_true_of_ne_false is) typed)
      simp only [handle, untyped "attach" (by decide), untyped "detach" (by decide), typed, Bool.false_eq_true, if_false,
        if_true]
    next => cases is_config

/-- A message that is neither a frame nor a config tells the camera's id, or ends the loop. -/
theorem handle_other {m : Incoming} (no_config : m.config? = none) (no_frame : m.frameId? = none) :
    (∀ s : ServeState A, handle env b s m = none) ∨
      ∃ camOf : Json → Json, ∀ s : ServeState A, handle env b s m = some ({ s with cam := camOf s.cam }, {}) := by
  cases m with
  | garbled => exact .inr ⟨id, fun s => rfl⟩
  | frame => cases no_frame
  | message msg =>
    have not_config : typeIs "config" msg = false := by
      cases typed : typeIs "config" msg with
      | false => rfl
      | true => simp [Incoming.config?, typed] at no_config
    have keeps_on {s : ServeState A} (detach : typeIs "detach" msg = false) :
        handle env b s (.message msg) = some ({ s with cam := (Json.lookup "camera_uuid" msg).getD s.cam }, {}) := by
      simp [handle, detach, not_config]
    cases detach : typeIs "detach" msg with
    | false => exact .inr ⟨(Json.lookup "camera_uuid" msg).getD, fun s => keeps_on detach⟩
    | true =>
      have no_attach : typeIs "attach" msg = false := by
        by_contra attach
        exact absurd (typeIs_unique (eq_true_of_ne_false attach) detach) (by decide)
      exact .inl fun s => by simp [handle, no_attach, detach]

/-- Two loops that end together or go on together, whatever is preserved by one message. -/
theorem run_compared {Inv : ServeState A → ServeState A → Prop} {Out : Effects → Effects → Prop}
    {Rel : Incoming × Behaviour A → Incoming × Behaviour A → Prop}
    (step : ∀ s s' e e', Inv s s' → Rel e e' →
      (handle env e.2 s e.1 = none ∧ handle env e'.2 s' e'.1 = none) ∨
        ∃ t out t' out', handle env e.2 s e.1 = some (t, out) ∧ handle env e'.2 s' e'.1 = some (t', out') ∧
          Inv t t' ∧ Out out out')
    {events events' : List (Incoming × Behaviour A)} (related : List.Forall₂ Rel events events') (start : Inv s s') :
    List.Forall₂ Out (run env s events).2 (run env s' events').2 := by
  induction related generalizing s s' with
  | nil => exact .nil
  | @cons e e' events events' first _ ih =>
    cases step s s' e e' start first with
    | inl ends =>
      simp only [run, ends.1, ends.2]
      exact .nil
    | inr goes_on =>
      obtain ⟨t, out, t', out', handled, handled', next, outs⟩ := goes_on
      simp only [run, handled, handled']
      exact .cons outs (ih next)

/-- The boxes that are found, whether or not the adapter is called. -/
theorem maskedBoxes_eq {past : List Incoming} (inForce : InForce past s) (hdr : FrameHeader) (body : List UInt8) :
    maskedBoxes env b s hdr body =
      (((inferInput env s hdr body).bind (allBoxes b s hdr)).getD []).filter
        (passesMasks env (normalizeToPixelPolygon s.inclusiveNorm hdr.w hdr.h)
          (normalizeToPixelPolygon s.exclusiveNorm hdr.w hdr.h) hdr.w hdr.h) := by
  simp only [maskedBoxes]
  cases (inferInput env s hdr body).bind (allBoxes b s hdr) with
  | none => rfl
  | some boxes => exact applyMasks_boxes env s hdr.w hdr.h boxes (inForce.polyPx hdr.w hdr.h)

/-- A frame is answered with the boxes that are found, up to their track ids. -/
theorem reply_boxes {past : List Incoming} (inForce : InForce past s) (hdr : FrameHeader) (body : List UInt8) :
    ∃ reply updates, (handleFrame env b s hdr body).2 = { replies := [reply], updates } ∧ reply.id = hdr.id ∧
      reply.boxes.map Box.untracked = (maskedBoxes env b s hdr body).map Box.untracked := by
  cases tracked : s.tracker with
  | some t =>
    obtain ⟨ms, effects⟩ := @handleFrame_effects A env b s hdr body t tracked
    exact ⟨_, _, effects, rfl, t.untracked_update _⟩
  | none =>
    have absent : s.adapter = none := by
      by_contra present
      have := inForce.tracker_first (Option.isSome_iff_ne_none.mpr present)
      simp [tracked] at this
    have uncalled : inferInput env s hdr body = none := by
      simp only [inferInput, absent, ite_self]
    obtain ⟨reply, effects, id, nothing, -⟩ := handleFrame_untracked env b tracked absent hdr body
    exact ⟨reply, [], effects, id, by rw [nothing, maskedBoxes_of_uncalled uncalled]⟩

end

/-! ## Tighter settings -/

/-- A class filter that lets less through; an empty one lets nothing through, as `serve` then calls no adapter. -/
def NarrowsFilter (classFilter classFilter' : Option (List ℕ)) : Prop :=
  (classFilter = some [] → classFilter' = some []) ∧
    (classFilter' ≠ some [] → PassesFewer classFilter classFilter')

/-- The second config asks for the same model on the same region, and for less of what it finds. -/
structure Tightens (msg msg' : List (String × Json)) : Prop where
  names : ∃ names, configNames msg = some names ∧ configNames msg' = some names
  conf : ∃ x x', Json.lookup "conf" msg = some (.num x) ∧ Json.lookup "conf" msg' = some (.num x') ∧ x ≤ x'
  iou : ∃ y y', Json.lookup "iou" msg = some (.num y) ∧ Json.lookup "iou" msg' = some (.num y')
  age : (optInt (Json.lookup "track_max_age" msg)).isSome = true ∧
    (optInt (Json.lookup "track_max_age" msg')).isSome = true
  roi : coercePoly (Json.lookup "roi" msg') = coercePoly (Json.lookup "roi" msg)
  classes : NarrowsFilter (classFilter (Json.lookup "classes" msg)) (classFilter (Json.lookup "classes" msg'))
  inclusive : coercePoly (Json.lookup "inclusive_mask" msg) = none ∨
    coercePoly (Json.lookup "inclusive_mask" msg') = coercePoly (Json.lookup "inclusive_mask" msg)
  exclusive : coercePoly (Json.lookup "exclusive_mask" msg) = none ∨
    coercePoly (Json.lookup "exclusive_mask" msg') = coercePoly (Json.lookup "exclusive_mask" msg)

/-- The second state runs the same model on the same region, and lets through less of what it finds. -/
structure Narrows (s s' : ServeState Adapter) : Prop where
  same : SameAdapter s s'
  detects : ∀ adapter, s.adapter = some adapter → adapter.Detects (· = .yolo26)
  roi : s'.roiNorm = s.roiNorm
  conf : s.confThr ≤ s'.confThr
  classes : NarrowsFilter s.classFilterIds s'.classFilterIds
  inclusive : s.inclusiveNorm = none ∨ s'.inclusiveNorm = s.inclusiveNorm
  exclusive : s.exclusiveNorm = none ∨ s'.exclusiveNorm = s.exclusiveNorm
  past : ∃ past, InForce past s
  past' : ∃ past, InForce past s'

variable {pointPolygonTest : List (ℤ × ℤ) → ℚ × ℚ → Bool} {cv2 : Cv2} {b : Behaviour Adapter}
  {s s' : ServeState Adapter} {hdr : FrameHeader} {body : List UInt8}

theorem narrows_start : Narrows {} {} :=
  ⟨⟨rfl, rfl, rfl, rfl⟩, nofun, rfl, le_rfl, ⟨nofun, fun _ _ _ _ passes => passes⟩, .inl rfl, .inl rfl, ⟨[], inForce_start⟩,
    ⟨[], inForce_start⟩⟩

/-! ## One frame -/

theorem Narrows.found (narrows : Narrows s s') (infers : b.infer = Adapter.infer cv2) :
    (((inferInput (adapterEnv pointPolygonTest) s' hdr body).bind (allBoxes b s' hdr)).getD []).Sublist
      (((inferInput (adapterEnv pointPolygonTest) s hdr body).bind (allBoxes b s hdr)).getD []) := by
  by_cases nothing : s'.classFilterIds = some []
  · rw [inferInput_of_empty nothing]
    exact List.nil_sublist _
  · have called : inferInput (adapterEnv pointPolygonTest) s' hdr body =
        inferInput (adapterEnv pointPolygonTest) s hdr body := by
      have something : s.classFilterIds ≠ some [] := fun empty => nothing (narrows.classes.1 empty)
      simp only [inferInput, if_neg nothing, if_neg something, narrows.same.adapter, narrows.roi]
    rw [called]
    cases input : inferInput (adapterEnv pointPolygonTest) s hdr body with
    | none => exact .slnil
    | some given =>
      have fewer := @Adapter.infer_fewer s.confThr s'.confThr s.iouThr s'.iouThr s.classFilterIds s'.classFilterIds given.1 cv2
        given.2.img (narrows.detects _ (inferInput_adapter input)) narrows.conf (narrows.classes.2 nothing)
      have remapped : ∀ (c : Option (List Box)) (f : Box → Box), (c.map (List.map f)).getD [] = (c.getD []).map f := by
        intro c f
        cases c with
        | none => rfl
        | some boxes => rfl
      simp only [Option.bind_some, allBoxes, infers, remapped]
      exact fewer.map _

/-- A mask that is new or the same lets no more through. -/
theorem passesMasks_fewer {A : Type} {env : Env A} {inclusive inclusive' exclusive exclusive' : Option (List (ℤ × ℤ))} {w h : ℤ} {box : Box}
    (inclusive_same : inclusive = none ∨ inclusive' = inclusive) (exclusive_same : exclusive = none ∨ exclusive' = exclusive)
    (passes : passesMasks env inclusive' exclusive' w h box = true) : passesMasks env inclusive exclusive w h box = true := by
  obtain ⟨inside, outside⟩ := Bool.and_eq_true_iff.mp passes
  apply Bool.and_eq_true_iff.mpr
  constructor
  · obtain rfl | rfl := inclusive_same
    · rfl
    · exact inside
  · obtain rfl | rfl := exclusive_same
    · rfl
    · exact outside

theorem Narrows.masked (narrows : Narrows s s') (infers : b.infer = Adapter.infer cv2) :
    (maskedBoxes (adapterEnv pointPolygonTest) b s' hdr body).Sublist
      (maskedBoxes (adapterEnv pointPolygonTest) b s hdr body) := by
  obtain ⟨past, inForce⟩ := narrows.past
  obtain ⟨past', inForce'⟩ := narrows.past'
  rw [maskedBoxes_eq inForce, maskedBoxes_eq inForce']
  have scaled : ∀ {poly poly' : Option (List (List ℚ))}, poly = none ∨ poly' = poly →
      normalizeToPixelPolygon poly hdr.w hdr.h = none ∨
        normalizeToPixelPolygon poly' hdr.w hdr.h = normalizeToPixelPolygon poly hdr.w hdr.h := by
    rintro poly poly' (rfl | rfl)
    · exact .inl rfl
    · exact .inr rfl
  apply ((narrows.found infers).filter _).trans
  apply List.monotone_filter_right
  intro box passes
  exact passesMasks_fewer (scaled narrows.inclusive) (scaled narrows.exclusive) passes

/-! ## One message -/

/-- Replies to the same frames, of which the second show no other boxes. -/
def ShowsLess (effects effects' : Effects) : Prop :=
  List.Forall₂ (fun r r' : Reply => r'.id = r.id ∧ (r'.boxes.map Box.untracked).Sublist (r.boxes.map Box.untracked))
    effects.replies effects'.replies

theorem Narrows.cam (narrows : Narrows s s') (cam cam' : Json) :
    Narrows { s with cam := cam } { s' with cam := cam' } := by
  obtain ⟨past, inForce⟩ := narrows.past
  obtain ⟨past', inForce'⟩ := narrows.past'
  exact ⟨⟨narrows.same.adapter, narrows.same.runtime, narrows.same.device, narrows.same.model⟩, narrows.detects,
    narrows.roi, narrows.conf, narrows.classes, narrows.inclusive, narrows.exclusive, ⟨past, inForce.cam cam⟩,
    ⟨past', inForce'.cam cam'⟩⟩

theorem Narrows.frame (narrows : Narrows s s') (infers : b.infer = Adapter.infer cv2) :
    Narrows (handleFrame (adapterEnv pointPolygonTest) b s hdr body).1
        (handleFrame (adapterEnv pointPolygonTest) b s' hdr body).1 ∧
      ShowsLess (handleFrame (adapterEnv pointPolygonTest) b s hdr body).2
        (handleFrame (adapterEnv pointPolygonTest) b s' hdr body).2 := by
  obtain ⟨past, inForce⟩ := narrows.past
  obtain ⟨past', inForce'⟩ := narrows.past'
  have after := inForce.frame (adapterEnv pointPolygonTest) b hdr body
  have after' := inForce'.frame (adapterEnv pointPolygonTest) b hdr body
  constructor
  · obtain ⟨cache, tracker, is, -, -⟩ := handleFrame_keeps (adapterEnv pointPolygonTest) b s hdr body
    obtain ⟨cache', tracker', is', -, -⟩ := handleFrame_keeps (adapterEnv pointPolygonTest) b s' hdr body
    rw [is] at after ⊢
    rw [is'] at after' ⊢
    exact ⟨⟨narrows.same.adapter, narrows.same.runtime, narrows.same.device, narrows.same.model⟩, narrows.detects,
      narrows.roi, narrows.conf, narrows.classes, narrows.inclusive, narrows.exclusive, ⟨past, after⟩, ⟨past', after'⟩⟩
  · obtain ⟨reply, updates, effects, id, boxes⟩ := @reply_boxes Adapter (adapterEnv pointPolygonTest) b s past inForce hdr body
    obtain ⟨reply', updates', effects', id', boxes'⟩ :=
      @reply_boxes Adapter (adapterEnv pointPolygonTest) b s' past' inForce' hdr body
    rw [effects, effects']
    refine .cons ⟨id'.trans id.symm, ?_⟩ .nil
    rw [boxes, boxes']
    exact (narrows.masked infers).map _

/-- What a config leaves in force, whatever becomes of the adapter. -/
theorem reloaded_keeps {A : Type} (env : Env A) (b : Behaviour A) (s : ServeState A) (newRuntime newModel newDevice : String) :
    (loadModel env b (swapAdapter b s newRuntime) newModel newDevice).roiNorm = s.roiNorm ∧
      (loadModel env b (swapAdapter b s newRuntime) newModel newDevice).confThr = s.confThr ∧
      (loadModel env b (swapAdapter b s newRuntime) newModel newDevice).classFilterIds = s.classFilterIds ∧
      (loadModel env b (swapAdapter b s newRuntime) newModel newDevice).inclusiveNorm = s.inclusiveNorm ∧
      (loadModel env b (swapAdapter b s newRuntime) newModel newDevice).exclusiveNorm = s.exclusiveNorm := by
  obtain ⟨_, _, _, _, swapped⟩ := swapAdapter_keeps b s newRuntime
  obtain ⟨_, _, _, loaded⟩ := loadModel_keeps env b (swapAdapter b s newRuntime) newModel newDevice
  rw [loaded, swapped]
  exact ⟨rfl, rfl, rfl, rfl, rfl⟩

/-- Third-party code that serves models of the allowed layouts only. -/
def Served (cv2 : Cv2) (allowed : Layout → Prop) (b : Behaviour Adapter) : Prop :=
  ∃ r inferMs, Runtimes.Detects allowed r ∧ b = r.behaviour (Adapter.infer cv2) inferMs

/-- The adapter in use serves such a model, too. -/
theorem Served.detects {allowed : Layout → Prop} (served : Served cv2 allowed b) {env : Env Adapter} {m : Incoming}
    (detects : ∀ adapter, s.adapter = some adapter → adapter.Detects allowed) (handles : Handles env s (m, b) s') :
    ∀ adapter, s'.adapter = some adapter → adapter.Detects allowed := by
  obtain ⟨r, inferMs, all, rfl⟩ := served
  refine adapter_step ?_ ?_ detects handles
  · intro key adapter constructed
    exact Adapter.detects_make (construct_some constructed)
  · intro adapter path device detected
    exact Adapter.Detects.load all detected

theorem Served.infers {allowed : Layout → Prop} (served : Served cv2 allowed b) : b.infer = Adapter.infer cv2 := by
  obtain ⟨r, inferMs, -, rfl⟩ := served
  rfl

theorem Narrows.config (narrows : Narrows s s') (served : Served cv2 (· = .yolo26) b) {m m' : Incoming}
    {msg msg' : List (String × Json)} (is_config : m.config? = some msg) (is_config' : m'.config? = some msg')
    (tightens : Tightens msg msg') :
    ∃ t t', handle (adapterEnv pointPolygonTest) b s m = some (t, {}) ∧
      handle (adapterEnv pointPolygonTest) b s' m' = some (t', {}) ∧ Narrows t t' := by
  obtain ⟨⟨newRuntime, newDevice, newModel⟩, names, names'⟩ := tightens.names
  obtain ⟨x, x', conf, conf', higher⟩ := tightens.conf
  obtain ⟨y, y', iou, iou'⟩ := tightens.iou
  obtain ⟨age, read_age⟩ := Option.isSome_iff_exists.mp tightens.age.1
  obtain ⟨age', read_age'⟩ := Option.isSome_iff_exists.mp tightens.age.2
  obtain ⟨past, inForce⟩ := narrows.past
  obtain ⟨past', inForce'⟩ := narrows.past'
  generalize is_seen : ({ s with cam := (Json.lookup "camera_uuid" msg).getD s.cam } : ServeState Adapter) = seen
  generalize is_seen' : ({ s' with cam := (Json.lookup "camera_uuid" msg').getD s'.cam } : ServeState Adapter) = seen'
  have handled : handleConfig (adapterEnv pointPolygonTest) b seen msg = some _ :=
    handleConfig_eq_some.mpr ⟨newRuntime, newDevice, newModel, x, y, age, names, by rw [conf]; rfl, by rw [iou]; rfl, read_age, rfl⟩
  have handled' : handleConfig (adapterEnv pointPolygonTest) b seen' msg' = some _ :=
    handleConfig_eq_some.mpr ⟨newRuntime, newDevice, newModel, x', y', age', names', by rw [conf']; rfl, by rw [iou']; rfl, read_age', rfl⟩
  have at_config := (@handle_config Adapter (adapterEnv pointPolygonTest) b s m msg is_config).trans
    (by rw [is_seen, handled, Option.map_some])
  have at_config' := (@handle_config Adapter (adapterEnv pointPolygonTest) b s' m' msg' is_config').trans
    (by rw [is_seen', handled', Option.map_some])
  refine ⟨_, _, at_config, at_config', ?_⟩
  have same : SameAdapter (seen.configure msg x y age) (seen'.configure msg' x' y' age') := by
    subst is_seen is_seen'
    exact ⟨narrows.same.adapter, narrows.same.runtime, narrows.same.device, narrows.same.model⟩
  obtain ⟨roi, threshold, classes, inclusive, exclusive⟩ :=
    reloaded_keeps (adapterEnv pointPolygonTest) b (seen.configure msg x y age) newRuntime newModel newDevice
  obtain ⟨roi', threshold', classes', inclusive', exclusive'⟩ :=
    reloaded_keeps (adapterEnv pointPolygonTest) b (seen'.configure msg' x' y' age') newRuntime newModel newDevice
  refine ⟨(same.swap newRuntime).load newModel newDevice, ?_, ?_, ?_, ?_, ?_, ?_, ⟨past ++ [m], inForce_config is_config handled⟩,
    ⟨past' ++ [m'], inForce_config is_config' handled'⟩⟩
  · exact served.detects narrows.detects ⟨_, at_config⟩
  · rw [roi, roi']
    exact tightens.roi
  · rw [threshold, threshold']
    exact higher
  · rw [classes, classes']
    exact tightens.classes
  · rw [inclusive, inclusive']
    exact tightens.inclusive
  · rw [exclusive, exclusive']
    exact tightens.exclusive

/-! ## Runs -/

/-- The same message, or two configs of which the second asks for less. -/
inductive Tightened : Incoming → Incoming → Prop where
  | config {m m' : Incoming} {msg msg' : List (String × Json)} : m.config? = some msg → m'.config? = some msg' →
      Tightens msg msg' → Tightened m m'
  | other {m : Incoming} : m.config? = none → Tightened m m

theorem Narrows.step (narrows : Narrows s s') (served : Served cv2 (· = .yolo26) b) {m m' : Incoming}
    (tightened : Tightened m m') :
    (handle (adapterEnv pointPolygonTest) b s m = none ∧ handle (adapterEnv pointPolygonTest) b s' m' = none) ∨
      ∃ t out t' out', handle (adapterEnv pointPolygonTest) b s m = some (t, out) ∧
        handle (adapterEnv pointPolygonTest) b s' m' = some (t', out') ∧ Narrows t t' ∧ ShowsLess out out' := by
  cases tightened with
  | config is_config is_config' tightens =>
    obtain ⟨t, t', handled, handled', next⟩ := narrows.config served is_config is_config' tightens
    exact .inr ⟨t, {}, t', {}, handled, handled', next, .nil⟩
  | other no_config =>
    cases m with
    | frame msg hdr body =>
      have framed := (narrows.cam ((Json.lookup "camera_uuid" msg).getD s.cam) ((Json.lookup "camera_uuid" msg).getD s'.cam))
      obtain ⟨next, less⟩ := @Narrows.frame pointPolygonTest cv2 b _ _ hdr body framed served.infers
      exact .inr ⟨_, _, _, _, rfl, rfl, next, less⟩
    | garbled => exact .inr ⟨s, {}, s', {}, rfl, rfl, narrows, .nil⟩
    | message msg =>
      cases @handle_other Adapter (adapterEnv pointPolygonTest) b (.message msg) no_config rfl with
      | inl ends => exact .inl ⟨ends s, ends s'⟩
      | inr goes_on =>
        obtain ⟨camOf, handled⟩ := goes_on
        exact .inr ⟨_, _, _, _, handled s, handled s', narrows.cam (camOf s.cam) (camOf s'.cam), .nil⟩

end VisionNx.Worker
