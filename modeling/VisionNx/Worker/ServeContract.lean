import VisionNx.Tracker.Ids
import VisionNx.Worker.Serve

/-! # One reply and one tick per frame

Whatever the adapter does, a frame is answered once and ticks the tracker once: the
`try` block either ends with the tick or leaves the tracker alone, and then the
fallback ticks it.  An adapter is only made after the tracker, so every box that is
sent carries an id. -/

namespace VisionNx.Worker

open Tracker ByteTrackLite

variable {A : Type}

/-! ## Messages -/

def Incoming.frameId? : Incoming → Option ℤ
  | frame _ hdr _ => some hdr.id
  | _ => none

def Incoming.isConfig : Incoming → Bool
  | message msg => typeIs "config" msg
  | _ => false

/-- The fields of a `config` message have the types that `serve` converts. -/
structure ValidConfig (msg : List (String × Json)) : Prop where
  texts : ∀ key ∈ ["runtime", "device", "model_path"], ∀ v, Json.lookup key msg = some v →
    v = .null ∨ ∃ s, v = .str s
  thresholds : ∀ key ∈ ["conf", "iou"], ∀ v, Json.lookup key msg = some v → ∃ x, v = .num x
  max_age : ∀ v, Json.lookup "track_max_age" msg = some v → v = .null ∨ ∃ x, v = .num x

/-- A message that `serve` handles without ending the loop. -/
def Incoming.Valid : Incoming → Prop
  | garbled => True
  | message msg => typeIs "detach" msg = false ∧ (typeIs "config" msg = true → ValidConfig msg)
  | frame _ _ _ => True

theorem typeIs_unique {t t' : String} {msg : List (String × Json)} (is : typeIs t msg = true)
    (is' : typeIs t' msg = true) : t = t' := by
  unfold typeIs at is is'
  split at is
  · rename_i s found
    rw [found] at is'
    exact (beq_iff_eq.mp is).symm.trans (beq_iff_eq.mp is')
  · cases is

/-! ## Configuration -/

@[simp] theorem swapAdapter_tracker (b : Behaviour A) (s : ServeState A) (newRuntime : String) :
    (swapAdapter b s newRuntime).tracker = s.tracker := by
  unfold swapAdapter
  split
  · split <;> rfl
  · rfl

@[simp] theorem loadModel_tracker (env : Env A) (b : Behaviour A) (s : ServeState A)
    (newModel newDevice : String) : (loadModel env b s newModel newDevice).tracker = s.tracker := by
  unfold loadModel
  split
  · rfl
  split
  · split
    split <;> rfl
  · rfl

theorem handleConfig_tracker {env : Env A} {b : Behaviour A} {s s' : ServeState A}
    {msg : List (String × Json)} (handled : handleConfig env b s msg = some s') :
    ∃ maxAge matchMode, s'.tracker = some (configTracker s.tracker maxAge matchMode) := by
  simp only [handleConfig, Option.bind_eq_bind, Option.bind_eq_some_iff, Option.pure_def,
    Option.some.injEq] at handled
  obtain ⟨_, _, _, _, _, _, _, _, _, _, maxAge, _, done⟩ := handled
  refine ⟨maxAge, optStr (Json.lookup "track_class_match" msg), ?_⟩
  rw [← done, loadModel_tracker, swapAdapter_tracker]

theorem textOr_returns {msg : List (String × Json)} {key : String} (default : String)
    (typed : ∀ v, Json.lookup key msg = some v → v = .null ∨ ∃ s, v = .str s) :
    ∃ text, textOr msg key default = some text := by
  unfold textOr
  cases found : Json.lookup key msg with
  | none => exact ⟨_, rfl⟩
  | some v =>
    obtain rfl | ⟨s, rfl⟩ := typed v found
    · exact ⟨_, rfl⟩
    · exact ⟨_, rfl⟩

theorem threshold_returns {msg : List (String × Json)} {key : String} (old : ℚ)
    (typed : ∀ v, Json.lookup key msg = some v → ∃ x, v = .num x) :
    ∃ x, ((Json.lookup key msg).getD (.num old)).toFloat? = some x := by
  cases found : Json.lookup key msg with
  | none => exact ⟨old, rfl⟩
  | some v =>
    obtain ⟨x, rfl⟩ := typed v found
    exact ⟨x, rfl⟩

theorem optInt_returns {msg : List (String × Json)} {key : String}
    (typed : ∀ v, Json.lookup key msg = some v → v = .null ∨ ∃ x, v = .num x) :
    ∃ n, optInt (Json.lookup key msg) = some n := by
  cases found : Json.lookup key msg with
  | none => exact ⟨none, rfl⟩
  | some v =>
    obtain rfl | ⟨x, rfl⟩ := typed v found
    · exact ⟨none, rfl⟩
    · exact ⟨some (Python.toInt x), rfl⟩

theorem handleConfig_returns (env : Env A) (b : Behaviour A) (s : ServeState A)
    {msg : List (String × Json)} (valid : ValidConfig msg) :
    ∃ s', handleConfig env b s msg = some s' := by
  obtain ⟨runtime, h₁⟩ := textOr_returns "onnx" (valid.texts "runtime" (by simp))
  obtain ⟨device, h₂⟩ := textOr_returns "cpu" (valid.texts "device" (by simp))
  obtain ⟨model, h₃⟩ := textOr_returns "" (valid.texts "model_path" (by simp))
  obtain ⟨conf, h₄⟩ := threshold_returns s.confThr (valid.thresholds "conf" (by simp))
  obtain ⟨iou, h₅⟩ := threshold_returns s.iouThr (valid.thresholds "iou" (by simp))
  obtain ⟨maxAge, h₆⟩ := optInt_returns valid.max_age
  simp only [handleConfig, h₁, h₂, h₃, h₄, h₅, h₆, Option.bind_eq_bind, Option.bind_some]
  exact ⟨_, rfl⟩

/-! ## Frames -/

theorem applyMasks_state (env : Env A) (s : ServeState A) (w h : ℤ) (boxes : List Box) :
    (applyMasks env s w h boxes).2.tracker = s.tracker ∧
      (applyMasks env s w h boxes).2.adapter = s.adapter := by
  cases masked : s.inclusiveNorm.isSome || s.exclusiveNorm.isSome <;> simp [applyMasks, masked]

theorem tick_none {p : FrameProgress A} (untracked : p.state.tracker = none) : p.tick = p := by
  simp only [FrameProgress.tick, untracked]

theorem tick_some {p : FrameProgress A} {t : ByteTrackLite} (tracked : p.state.tracker = some t) :
    p.tick = { p with
      state := { p.state with tracker := some (t.update p.boxes).1 }
      boxes := (t.update p.boxes).2
      trackerTicked := true
      updates := p.updates ++ [p.boxes] } := by
  simp only [FrameProgress.tick, tracked]

theorem maybeInfer_cases (env : Env A) (b : Behaviour A) (s : ServeState A) (hdr : FrameHeader)
    (body : List UInt8) :
    maybeInfer env b s hdr body = { state := s } ∨
    ∃ adapter s' boxes inferMs, s.adapter = some adapter ∧ s'.tracker = s.tracker ∧
      s'.adapter = s.adapter ∧
      maybeInfer env b s hdr body = FrameProgress.tick { state := s', boxes, inferMs } := by
  unfold maybeInfer
  split
  · exact .inl rfl
  cases present : s.adapter with
  | none => exact .inl rfl
  | some adapter =>
    simp only
    split
    · unfold tryInfer
      cases decodeRgbBody body hdr.w hdr.h hdr.stride with
      | none => exact .inl rfl
      | some img =>
        simp only
        cases b.infer adapter (cropToRoi img s.roiNorm hdr.w hdr.h).img s.confThr s.iouThr
          s.classFilterIds with
        | none => exact .inl rfl
        | some allBoxes =>
          obtain ⟨tracker, kept⟩ := applyMasks_state env s hdr.w hdr.h (allBoxes.map fun box =>
            { box with xyxy := (cropToRoi img s.roiNorm hdr.w hdr.h).remap hdr.w hdr.h box.xyxy })
          exact .inr ⟨adapter, _, _, _, rfl, tracker, kept.trans present, rfl⟩
    · exact .inl rfl

/-- With a tracker, a frame ticks it exactly once and sends the boxes it stamped. -/
theorem handleFrame_tracked (env : Env A) (b : Behaviour A) {s : ServeState A} {t : ByteTrackLite}
    (tracked : s.tracker = some t) (hdr : FrameHeader) (body : List UInt8) :
    ∃ boxes r, (handleFrame env b s hdr body).2 = { replies := [r], updates := [boxes] } ∧
      r.id = hdr.id ∧ r.boxes = (t.update boxes).2 ∧
      (handleFrame env b s hdr body).1.tracker = some (t.update boxes).1 ∧
      (handleFrame env b s hdr body).1.adapter = s.adapter := by
  unfold handleFrame
  obtain untouched | ⟨_, s', boxes, inferMs, _, tracker, adapter, ticked⟩ := maybeInfer_cases env b s hdr body
  · -- The fallback ticks.
    rw [untouched]
    simp only [tick_some (p := { state := s }) tracked, Bool.false_eq_true, if_false]
    exact ⟨[], _, rfl, rfl, rfl, rfl, trivial⟩
  · rw [ticked, tick_some (p := { state := s', boxes, inferMs }) (tracker.trans tracked)]
    exact ⟨boxes, _, rfl, rfl, rfl, rfl, adapter⟩

/-- Without a tracker there is no adapter, and nothing to send. -/
theorem handleFrame_untracked (env : Env A) (b : Behaviour A) {s : ServeState A}
    (untracked : s.tracker = none) (absent : s.adapter = none) (hdr : FrameHeader) (body : List UInt8) :
    ∃ r, (handleFrame env b s hdr body).2 = { replies := [r], updates := [] } ∧
      r.id = hdr.id ∧ r.boxes = [] ∧
      (handleFrame env b s hdr body).1.tracker = none ∧
      (handleFrame env b s hdr body).1.adapter = none := by
  have untouched : maybeInfer env b s hdr body = { state := s } := by
    obtain untouched | ⟨adapter, _, _, _, present, _⟩ := maybeInfer_cases env b s hdr body
    · exact untouched
    · rw [absent] at present
      cases present
  unfold handleFrame
  rw [untouched]
  simp only [tick_none (p := { state := s }) untracked, Bool.false_eq_true, if_false]
  exact ⟨_, rfl, rfl, rfl, untracked, absent⟩

/-! ## One message -/

/-- The invariant of the loop: an adapter comes after the tracker, and the tracker's ids
    are in order. -/
structure Ready (s : ServeState A) : Prop where
  tracker_first : s.adapter.isSome = true → s.tracker.isSome = true
  ids : ∀ t, s.tracker = some t → t.IdsOk

/-- What handling message `m` in state `s` may do. -/
structure StepContract (s : ServeState A) (m : Incoming) (s' : ServeState A) (effects : Effects) :
    Prop where
  replies : effects.replies.map (·.id) = m.frameId?.toList
  stamped : ∀ r ∈ effects.replies, ∀ box ∈ r.boxes, ∃ id, box.trackId = some id ∧ 1 ≤ id
  ticks : effects.updates.length = if m.frameId?.isSome ∧ s.tracker.isSome then 1 else 0
  frame_tracker : m.frameId?.isSome = true → s'.tracker = s.tracker.map fun t =>
    effects.updates.foldl (fun t boxes => (t.update boxes).1) t
  other_tracker : m.frameId? = none → ∀ t, s.tracker = some t →
    ∃ t', s'.tracker = some t' ∧ t'.tracks = t.tracks ∧ t'.nextId = t.nextId
  tracked : s'.tracker.isSome = (s.tracker.isSome || m.isConfig)

theorem stamped_update {t : ByteTrackLite} (ok : t.IdsOk) (boxes : List Box) :
    ∀ box ∈ (t.update boxes).2, ∃ id, box.trackId = some id ∧ 1 ≤ id := by
  intro box mem
  rw [update_eq_settle, settle, List.mem_iff_getElem?] at mem
  obtain ⟨i, at_i⟩ := mem
  obtain ⟨b, id, _, at_id, rfl⟩ := List.getElem?_zipWith_eq_some.mp at_i
  refine ⟨id, rfl, ?_⟩
  cases stampIds_cases (List.mem_of_getElem? at_id) with
  | inl live => exact (ok.range id live).1
  | inr fresh => exact ok.next_pos.trans fresh.1

theorem handle_frame (env : Env A) (b : Behaviour A) {s : ServeState A} (ready : Ready s)
    (msg : List (String × Json)) (hdr : FrameHeader) (body : List UInt8) :
    ∃ s' effects, handle env b s (.frame msg hdr body) = some (s', effects) ∧ Ready s' ∧
      StepContract s (.frame msg hdr body) s' effects := by
  -- Taking over the camera's id changes neither the tracker nor the adapter.
  generalize seen : ({ s with cam := (Json.lookup "camera_uuid" msg).getD s.cam } : ServeState A) = s₁
  have same_tracker : s₁.tracker = s.tracker := by rw [← seen]
  have same_adapter : s₁.adapter = s.adapter := by rw [← seen]
  refine ⟨(handleFrame env b s₁ hdr body).1, (handleFrame env b s₁ hdr body).2, by rw [handle, seen], ?_⟩
  cases tracked : s.tracker with
  | some t =>
    have ok := ready.ids t tracked
    obtain ⟨boxes, r, effects, id, stamped, tracker, adapter⟩ :=
      handleFrame_tracked env b (same_tracker.trans tracked) hdr body
    refine ⟨⟨fun _ => by simp [tracker], fun t' is_t' => ?_⟩, ?_⟩
    · rw [tracker, Option.some.injEq] at is_t'
      exact is_t' ▸ ok.update boxes
    · rw [effects]
      refine ⟨by simp [Incoming.frameId?, id], ?_, by simp [Incoming.frameId?, tracked],
        fun _ => by simp [tracker, tracked], nofun, by simp [tracker, tracked]⟩
      intro r' mem
      obtain rfl := List.mem_singleton.mp mem
      rw [stamped]
      exact stamped_update ok boxes
  | none =>
    -- Without a config there is no adapter either.
    have absent : s.adapter = none := by
      by_contra present
      have := ready.tracker_first (Option.isSome_iff_ne_none.mpr present)
      simp [tracked] at this
    obtain ⟨r, effects, id, nothing, tracker, adapter⟩ :=
      handleFrame_untracked env b (same_tracker.trans tracked) (same_adapter.trans absent) hdr body
    refine ⟨⟨by simp [adapter], by simp [tracker]⟩, ?_⟩
    rw [effects]
    exact ⟨by simp [Incoming.frameId?, id], by simp [nothing], by simp [tracked],
      fun _ => by simp [tracker, tracked], nofun, by simp [tracker, tracked, Incoming.isConfig]⟩

theorem StepContract.idle {s s' : ServeState A} {m : Incoming} (no_frame : m.frameId? = none)
    (no_config : m.isConfig = false) (same : s'.tracker = s.tracker) : StepContract s m s' {} where
  replies := by simp [no_frame]
  stamped := by simp
  ticks := by simp [no_frame]
  frame_tracker := by simp [no_frame]
  other_tracker := fun _ t tracked => ⟨t, same.trans tracked, rfl, rfl⟩
  tracked := by simp [same, no_config]

/-- A valid message is handled, keeps the invariant and does what it may. -/
theorem handle_step (env : Env A) (b : Behaviour A) {s : ServeState A} (ready : Ready s) {m : Incoming}
    (valid : m.Valid) :
    ∃ s' effects, handle env b s m = some (s', effects) ∧ Ready s' ∧ StepContract s m s' effects := by
  cases m with
  | garbled => exact ⟨s, {}, rfl, ready, .idle rfl rfl rfl⟩
  | frame msg hdr body => exact handle_frame env b ready msg hdr body
  | message msg =>
    obtain ⟨no_detach, config⟩ := valid
    generalize seen : ({ s with cam := (Json.lookup "camera_uuid" msg).getD s.cam } : ServeState A) = s₁
    have same_tracker : s₁.tracker = s.tracker := by rw [← seen]
    have same_adapter : s₁.adapter = s.adapter := by rw [← seen]
    have ready₁ : Ready s₁ := ⟨same_tracker ▸ same_adapter ▸ ready.tracker_first, same_tracker ▸ ready.ids⟩
    simp only [handle, seen, no_detach]
    cases is_config : typeIs "config" msg with
    | false =>
      have idle := @StepContract.idle _ s s₁ (.message msg) rfl is_config same_tracker
      cases typeIs "attach" msg <;> exact ⟨s₁, {}, rfl, ready₁, idle⟩
    | true =>
      have no_attach : typeIs "attach" msg = false := by
        by_contra is_attach
        have := typeIs_unique is_config (Bool.not_eq_false _ ▸ is_attach)
        simp at this
      obtain ⟨s', handled⟩ := handleConfig_returns env b s₁ (config is_config)
      obtain ⟨maxAge, matchMode, tracker⟩ := handleConfig_tracker handled
      rw [same_tracker] at tracker
      refine ⟨s', {}, by simp [no_attach, handled], ⟨fun _ => by simp [tracker], ?_⟩, ?_⟩
      · intro t is_t
        rw [tracker, Option.some.injEq] at is_t
        subst is_t
        -- The first config makes a tracker, later ones set its parameters.
        cases tracked : s.tracker with
        | none => exact idsOk_init _ _ _
        | some t =>
          have ok := ready.ids t tracked
          exact ⟨ok.next_pos, ok.distinct, ok.range⟩
      · refine ⟨rfl, nofun, rfl, nofun, fun _ t tracked => ?_, by simp [tracker, Incoming.isConfig, is_config]⟩
        exact ⟨_, tracker, by rw [tracked]; rfl, by rw [tracked]; rfl⟩

/-! ## Whole runs -/

theorem run_valid (env : Env A) {s : ServeState A} (ready : Ready s) {events : List (Incoming × Behaviour A)}
    (valid : ∀ e ∈ events, e.1.Valid) :
    Ready (run env s events).1 ∧ (run env s events).2.length = events.length ∧
      (run env s events).1.tracker.isSome = (s.tracker.isSome || events.any (·.1.isConfig)) ∧
      ((run env s events).2.flatMap (·.replies)).map (·.id) = events.filterMap (·.1.frameId?) := by
  induction events generalizing s with
  | nil => exact ⟨ready, rfl, by simp [run], rfl⟩
  | cons e events ih =>
    obtain ⟨m, b⟩ := e
    obtain ⟨s', effects, handled, ready', contract⟩ := handle_step env b ready (valid (m, b) List.mem_cons_self)
    obtain ⟨last, all, tracked, replies⟩ := ih ready' fun e mem => valid e (List.mem_cons_of_mem _ mem)
    simp only [run, handled]
    refine ⟨last, by simp [all], ?_, ?_⟩
    · rw [tracked, contract.tracked, List.any_cons, Bool.or_assoc]
    · rw [List.flatMap_cons, List.map_append, replies, contract.replies, List.filterMap_cons]
      cases m.frameId? <;> rfl

theorem run_append (env : Env A) {s : ServeState A} (ready : Ready s)
    {events : List (Incoming × Behaviour A)} (valid : ∀ e ∈ events, e.1.Valid)
    (more : List (Incoming × Behaviour A)) :
    run env s (events ++ more) =
      ((run env (run env s events).1 more).1,
        (run env s events).2 ++ (run env (run env s events).1 more).2) := by
  induction events generalizing s with
  | nil => rfl
  | cons e events ih =>
    obtain ⟨m, b⟩ := e
    obtain ⟨s', effects, handled, ready', _⟩ := handle_step env b ready (valid (m, b) List.mem_cons_self)
    simp only [List.cons_append, run, handled, ih ready' fun e mem => valid e (List.mem_cons_of_mem _ mem)]

/-- The contract of `serve` over a connection, whatever the adapter does: frames are
    answered once each and in order, nothing else is answered, and each message does what
    `StepContract` says: from the first config on a frame ticks the tracker once, a config
    leaves its tracks and counter alone, and every box sent has an id; and there is no
    adapter before the tracker. -/
theorem serve_contract (env : Env A) (events : List (Incoming × Behaviour A))
    (valid : ∀ e ∈ events, e.1.Valid) :
    ((run env {} events).2.flatMap (·.replies)).map (·.id) = events.filterMap (·.1.frameId?) ∧
    ∀ pre m b post, events = pre ++ (m, b) :: post →
      let s := (run env {} pre).1
      let s' := (run env {} (pre ++ [(m, b)])).1
      ∃ effects, handle env b s m = some (s', effects) ∧
        (run env {} events).2[pre.length]? = some effects ∧ StepContract s m s' effects ∧
        (s.tracker.isSome = true ↔ ∃ e ∈ pre, e.1.isConfig = true) ∧
        (s'.adapter.isSome = true → s'.tracker.isSome = true) := by
  have start : Ready ({} : ServeState A) := ⟨by simp, by simp⟩
  refine ⟨(run_valid env start valid).2.2.2, ?_⟩
  rintro pre m b post rfl s s'
  have valid_pre : ∀ e ∈ pre, e.1.Valid := fun e mem => valid e (List.mem_append_left _ mem)
  obtain ⟨ready, all, tracked, _⟩ := run_valid env start valid_pre
  obtain ⟨s₁, effects, handled, ready', contract⟩ :=
    handle_step env b ready (valid (m, b) (List.mem_append_right _ List.mem_cons_self))
  have same : s' = s₁ := by
    simp only [s', run_append env start valid_pre, run, handled]
  refine ⟨effects, same ▸ handled, ?_, same ▸ contract, ?_, same ▸ ready'.tracker_first⟩
  · rw [run_append env start valid_pre, List.getElem?_append_right all.le, all, Nat.sub_self]
    simp only [run, handled, List.getElem?_cons_zero]
  · rw [tracked]
    simp

/-- An adapter that finds one car, or raises. -/
def carOrRaise (finds : Bool) : Behaviour Unit where
  construct _ := some ()
  load _ _ _ := ((), true)
  infer _ _ _ _ _ := if finds then some [{ xyxy := ⟨0, 0, 1 / 2, 1⟩, score := 9 / 10, cls := some 2 }] else none
  inferMs := 12

def loadedEnv : Env Unit := ⟨fun _ => true, fun _ _ => true⟩

def configMsg : List (String × Json) := [("model_path", .str "yolo26n.onnx"), ("type", .str "config")]

/-- A frame before the config, one that finds a car and one on which inference raises. -/
theorem serve_contract_three_frames :
    ((run loadedEnv {} [(.frame [] ⟨1, 1, 3, 7⟩ [1, 2, 3], carOrRaise true),
      (.message configMsg, carOrRaise true), (.frame [] ⟨1, 1, 3, 8⟩ [1, 2, 3], carOrRaise true),
      (.frame [] ⟨1, 1, 3, 9⟩ [1, 2, 3], carOrRaise false)]).2.flatMap (·.replies)).map (·.id) =
      [7, 8, 9] := by
  refine (serve_contract loadedEnv _ ?_).1
  have config : ValidConfig configMsg := by
    refine ⟨?_, ?_, ?_⟩
    · intro key mem v found
      simp only [List.mem_cons, List.not_mem_nil, or_false] at mem
      rcases mem with rfl | rfl | rfl <;> simp [configMsg, Json.lookup] at found
      exact .inr ⟨_, found.symm⟩
    · intro key mem v found
      simp only [List.mem_cons, List.not_mem_nil, or_false] at mem
      rcases mem with rfl | rfl <;> simp [configMsg, Json.lookup] at found
    · intro v found
      simp [configMsg, Json.lookup] at found
  simp only [List.mem_cons, List.not_mem_nil, or_false, forall_eq_or_imp, forall_eq, Incoming.Valid,
    true_and, and_true]
  exact ⟨by decide, fun _ => config⟩

end VisionNx.Worker
