import VisionNx.Tracker.LiveCount
import VisionNx.Worker.LastConfig

/-! # The tracker behind a connection

`serve` talks to its tracker through `update` and `set_params` only.  What it replies on a
connection is therefore a run of the tracker: the first config makes it, the later ones set its
parameters, and every frame updates it with the boxes that were found. -/

namespace VisionNx.Worker

open Tracker

variable {A : Type} {env : Env A} {b : Behaviour A} {s s' : ServeState A} {m : Incoming} {effects : Effects}

/-! ## The calls of the tracker -/

/-- The call of the tracker that a message leads to.  Read as a call, the config that makes the
    tracker sets the parameters of none. -/
def trackerOp (env : Env A) (b : Behaviour A) (s : ServeState A) : Incoming → Option Op
  | .garbled => none
  | .message msg =>
    if typeIs "config" msg then
      some (.setParams ((optInt (Json.lookup "track_max_age" msg)).getD none)
        (optStr (Json.lookup "track_class_match" msg)))
    else none
  | .frame _ hdr body => some (.update (maskedBoxes env b s hdr body))

/-- The calls of the messages that are handled. -/
def trackerOps (env : Env A) (s : ServeState A) : List (Incoming × Behaviour A) → List Op
  | [] => []
  | (m, b) :: events =>
    match handle env b s m with
    | none => []
    | some (s', _) => (trackerOp env b s m).toList ++ trackerOps env s' events

/-- A tracker that need not be there yet, the boxes of the replies, and those that it was
    updated with. -/
structure Tracked where
  tracker : Option ByteTrackLite
  replied : List (List Box) := []
  updates : List (List Box) := []

def track (tracker : Option ByteTrackLite) : Op → Tracked
  | .setParams maxAge matchMode => { tracker := some (configTracker tracker maxAge matchMode) }
  | .update boxes =>
    match tracker with
    | none => { tracker := none, replied := [[]] }
    | some t => { tracker := some (t.update boxes).1, replied := [(t.update boxes).2], updates := [boxes] }

def trackAll (tracker : Option ByteTrackLite) : List Op → Tracked
  | [] => { tracker }
  | op :: ops =>
    let first := track tracker op
    let rest := trackAll first.tracker ops
    { tracker := rest.tracker, replied := first.replied ++ rest.replied, updates := first.updates ++ rest.updates }

/-- What messages have left behind and caused. -/
def trackedBy (result : ServeState A × List Effects) : Tracked where
  tracker := result.1.tracker
  replied := (result.2.flatMap (·.replies)).map (·.boxes)
  updates := result.2.flatMap (·.updates)

/-- The boxes that the updates of a run return. -/
def updateOutputs (t : ByteTrackLite) : List Op → List (List Box)
  | [] => []
  | .update boxes :: ops => (t.update boxes).2 :: updateOutputs (t.update boxes).1 ops
  | .setParams maxAge matchMode :: ops => updateOutputs (t.setParams none maxAge matchMode) ops

/-! ## One message -/

/-- An adapter comes after the tracker. -/
def TrackerFirst (s : ServeState A) : Prop := s.adapter.isSome = true → s.tracker.isSome = true

theorem TrackerFirst.absent (first : TrackerFirst s) (untracked : s.tracker = none) : s.adapter = none := by
  cases present : s.adapter with
  | none => rfl
  | some adapter =>
    have tracked : s.tracker.isSome = true := first (by rw [present, Option.isSome_some])
    rw [untracked] at tracked
    cases tracked

theorem maskedBoxes_cam (cam : Json) (hdr : FrameHeader) (body : List UInt8) :
    maskedBoxes env b { s with cam := cam } hdr body = maskedBoxes env b s hdr body := by
  have input : inferInput env { s with cam := cam } hdr body = inferInput env s hdr body := rfl
  have found : allBoxes b { s with cam := cam } hdr = allBoxes b s hdr := rfl
  simp only [maskedBoxes, input, found, applyMasks, polyPx]
  cases (inferInput env s hdr body).bind (allBoxes b s hdr) with
  | none => rfl
  | some boxes =>
    simp only
    split
    next => rfl
    next => rfl

/-- A frame updates the tracker with the boxes that it finds and is answered with what that returns. -/
theorem track_frame (first : TrackerFirst s) (env : Env A) (b : Behaviour A) (hdr : FrameHeader) (body : List UInt8) :
    TrackerFirst (handleFrame env b s hdr body).1 ∧
      trackedBy ((handleFrame env b s hdr body).1, [(handleFrame env b s hdr body).2]) =
        track s.tracker (.update (maskedBoxes env b s hdr body)) := by
  cases tracked : s.tracker with
  | none =>
    obtain ⟨r, effects, -, nothing, tracker, adapter⟩ :=
      handleFrame_untracked env b tracked (first.absent tracked) hdr body
    refine ⟨fun present => ?_, ?_⟩
    · rw [adapter] at present
      cases present
    · simp [trackedBy, track, effects, tracker, nothing]
  | some t =>
    obtain ⟨inferMs, effects⟩ := @handleFrame_effects A env b s hdr body t tracked
    obtain ⟨boxes, r, effects', -, -, tracker, -⟩ := handleFrame_tracked env b tracked hdr body
    obtain rfl : maskedBoxes env b s hdr body = boxes :=
      List.singleton_inj.mp ((congrArg Effects.updates effects).symm.trans (congrArg Effects.updates effects'))
    refine ⟨fun _ => by rw [tracker, Option.isSome_some], ?_⟩
    simp [trackedBy, track, effects, tracker]

/-- A message is for the tracker what `trackerOp` says, and is answered with what that returns. -/
theorem track_step (first : TrackerFirst s) (handled : handle env b s m = some (s', effects)) :
    TrackerFirst s' ∧ trackedBy (s', [effects]) =
      match trackerOp env b s m with
      | none => { tracker := s.tracker }
      | some op => track s.tracker op := by
  cases m with
  | garbled =>
    cases handled
    exact ⟨first, rfl⟩
  | frame msg hdr body =>
    rw [handle, Option.some.injEq] at handled
    have frame := @track_frame A { s with cam := (Json.lookup "camera_uuid" msg).getD s.cam } first env b hdr body
    rw [handled, maskedBoxes_cam] at frame
    exact frame
  | message msg =>
    simp only [handle] at handled
    split at handled
    next is_attach =>
      cases handled
      have no_config : typeIs "config" msg = false := by
        cases is_config : typeIs "config" msg with
        | false => rfl
        | true => exact absurd (typeIs_unique is_attach is_config) (by decide)
      simp only [trackerOp, no_config]
      exact ⟨first, rfl⟩
    next =>
      split at handled
      · cases handled
      split at handled
      next is_config =>
        obtain ⟨s'', configured, same⟩ := Option.map_eq_some_iff.mp handled
        obtain ⟨rfl, rfl⟩ := Prod.mk.inj same
        obtain ⟨conf, iou, maxAge, adapter, runtime, device, model, -, -, age_read, rfl⟩ :=
          handleConfig_state configured
        simp only [trackerOp, is_config, if_true, age_read, Option.getD_some]
        exact ⟨fun _ => rfl, rfl⟩
      next no_config =>
        cases handled
        simp only [trackerOp, no_config]
        exact ⟨first, rfl⟩

/-! ## Runs -/

theorem track_run (first : TrackerFirst s) (events : List (Incoming × Behaviour A)) :
    trackedBy (run env s events) = trackAll s.tracker (trackerOps env s events) := by
  induction events generalizing s with
  | nil => rfl
  | cons e events ih =>
    obtain ⟨m, b⟩ := e
    simp only [run, trackerOps]
    cases handled : handle env b s m with
    | none => rfl
    | some result =>
      obtain ⟨s', effects⟩ := result
      obtain ⟨first', step⟩ := track_step first handled
      have split : trackedBy ((run env s' events).1, effects :: (run env s' events).2) =
          { tracker := (trackedBy (run env s' events)).tracker
            replied := (trackedBy (s', [effects])).replied ++ (trackedBy (run env s' events)).replied
            updates := (trackedBy (s', [effects])).updates ++ (trackedBy (run env s' events)).updates } := by
        simp [trackedBy]
      have left : s'.tracker = (trackedBy (s', [effects])).tracker := rfl
      simp only [split, ih first', left, step]
      cases trackerOp env b s m with
      | none => rfl
      | some op => rfl

/-- A config that is handled has been read. -/
theorem trackerOp_config {maxAge : Option ℤ} {matchMode : Option String}
    (handled : handle env b s m = some (s', effects))
    (is_op : trackerOp env b s m = some (.setParams maxAge matchMode)) :
    ∃ msg, m.config? = some msg ∧ optInt (Json.lookup "track_max_age" msg) = some maxAge ∧
      optStr (Json.lookup "track_class_match" msg) = matchMode := by
  cases m with
  | garbled | frame => cases is_op
  | message msg =>
    simp only [trackerOp] at is_op
    split at is_op
    next is_config =>
      have config : (Incoming.message msg).config? = some msg := by simp [Incoming.config?, is_config]
      obtain ⟨cam, configured⟩ := @config_handled A env s s' (.message msg, b) msg ⟨effects, handled⟩ config
      obtain ⟨conf, iou, read, adapter, runtime, device, model, -, -, age_read, -⟩ := handleConfig_state configured
      rw [age_read, Option.getD_some] at is_op
      cases is_op
      exact ⟨msg, config, age_read, rfl⟩
    next => cases is_op

/-- The parameters that are set are those of a config. -/
theorem trackerOps_config {events : List (Incoming × Behaviour A)} {maxAge : Option ℤ} {matchMode : Option String}
    (mem : .setParams maxAge matchMode ∈ trackerOps env s events) :
    ∃ e ∈ events, ∃ msg, e.1.config? = some msg ∧ optInt (Json.lookup "track_max_age" msg) = some maxAge ∧
      optStr (Json.lookup "track_class_match" msg) = matchMode := by
  induction events generalizing s with
  | nil => cases mem
  | cons e events ih =>
    obtain ⟨m, b⟩ := e
    simp only [trackerOps] at mem
    split at mem
    · cases mem
    next s' effects handled =>
      cases List.mem_append.mp mem with
      | inl now => exact ⟨(m, b), List.mem_cons_self, trackerOp_config handled (Option.mem_toList.mp now)⟩
      | inr later =>
        obtain ⟨e, behind, config⟩ := ih later
        exact ⟨e, List.mem_cons_of_mem _ behind, config⟩

/-- Once there is a tracker, the calls are its own. -/
theorem trackAll_some (t : ByteTrackLite) (ops : List Op) :
    trackAll (some t) ops =
      { tracker := some (exec t ops), replied := updateOutputs t ops, updates := updatesOf ops } := by
  induction ops generalizing t with
  | nil => rfl
  | cons op ops ih =>
    cases op with
    | update boxes => simp [trackAll, track, exec, Op.apply, updateOutputs, updatesOf, ih]
    | setParams maxAge matchMode =>
      simp [trackAll, track, configTracker, exec, Op.apply, updateOutputs, updatesOf, ih]

/-- Before there is one, frames are answered with no boxes. -/
theorem trackAll_none (frames : List (List Box)) (ops : List Op) :
    trackAll none (frames.map .update ++ ops) =
      { trackAll none ops with replied := List.replicate frames.length [] ++ (trackAll none ops).replied } := by
  induction frames with
  | nil => rfl
  | cons boxes frames ih => simp [trackAll, track, ih, List.replicate_succ]

/-- Calls are updates only, or there is a first one that sets parameters. -/
theorem updates_or_setParams (ops : List Op) :
    (∃ frames : List (List Box), ops = frames.map .update) ∨
      ∃ (frames : List (List Box)) (maxAge : Option ℤ) (matchMode : Option String) (later : List Op),
        ops = frames.map .update ++ .setParams maxAge matchMode :: later := by
  induction ops with
  | nil => exact .inl ⟨[], rfl⟩
  | cons op ops ih =>
    cases op with
    | setParams maxAge matchMode => exact .inr ⟨[], maxAge, matchMode, ops, rfl⟩
    | update boxes =>
      obtain ⟨frames, rfl⟩ | ⟨frames, maxAge, matchMode, later, rfl⟩ := ih
      · exact .inl ⟨boxes :: frames, rfl⟩
      · exact .inr ⟨boxes :: frames, maxAge, matchMode, later, rfl⟩

/-- A connection before and after its first config. -/
theorem trackedBy_run (env : Env A) (events : List (Incoming × Behaviour A)) :
    (∃ frames : List (List Box), trackerOps env {} events = frames.map .update ∧
      trackedBy (run env {} events) = { tracker := none, replied := List.replicate frames.length [] }) ∨
    ∃ (frames : List (List Box)) (maxAge : Option ℤ) (matchMode : Option String) (later : List Op),
      trackerOps env {} events = frames.map .update ++ .setParams maxAge matchMode :: later ∧
      trackedBy (run env {} events) = {
        tracker := some (exec (configTracker none maxAge matchMode) later)
        replied := List.replicate frames.length [] ++ updateOutputs (configTracker none maxAge matchMode) later
        updates := updatesOf later } := by
  rw [@track_run A env {} (fun present => by cases present)]
  obtain ⟨frames, is_ops⟩ | ⟨frames, maxAge, matchMode, later, is_ops⟩ := updates_or_setParams
    (trackerOps env {} events)
  · refine .inl ⟨frames, is_ops, ?_⟩
    have only := trackAll_none frames []
    simp only [List.append_nil, trackAll] at only
    rw [is_ops, only]
  · refine .inr ⟨frames, maxAge, matchMode, later, is_ops, ?_⟩
    rw [is_ops, trackAll_none]
    simp only [trackAll, track, trackAll_some, List.nil_append]

/-- What a connection replies is what a tracker returns.  Before the first config every frame is
    answered with no boxes and nothing is tracked.  The first config makes a tracker with the parameters
    that it gives, and from then on the calls of this tracker are one `update` for each frame, with the
    boxes that the masks let through, and one `set_params` for each later config. -/
theorem serve_refines_tracker (env : Env A) (events : List (Incoming × Behaviour A)) :
    let ops := trackerOps env {} events
    let result := run env {} events
    let replied := (result.2.flatMap (·.replies)).map (·.boxes)
    let updates := result.2.flatMap (·.updates)
    (∃ frames : List (List Box), ops = frames.map .update ∧ result.1.tracker = none ∧ updates = [] ∧
      replied = List.replicate frames.length []) ∨
    ∃ (frames : List (List Box)) (maxAge : Option ℤ) (matchMode : Option String) (later : List Op),
      ops = frames.map .update ++ .setParams maxAge matchMode :: later ∧
      let t := configTracker none maxAge matchMode
      result.1.tracker = some (exec t later) ∧ updates = updatesOf later ∧
        replied = List.replicate frames.length [] ++ updateOutputs t later := by
  intro ops result replied updates
  obtain ⟨frames, is_ops, only⟩ | ⟨frames, maxAge, matchMode, later, is_ops, both⟩ := trackedBy_run env events
  · exact .inl ⟨frames, is_ops, congrArg Tracked.tracker only, congrArg Tracked.updates only,
      congrArg Tracked.replied only⟩
  · exact .inr ⟨frames, maxAge, matchMode, later, is_ops, congrArg Tracked.tracker both,
      congrArg Tracked.updates both, congrArg Tracked.replied both⟩

/-! ## How many tracks a connection holds -/

/-- The configs set `max_age` to `limit` at most, or leave it to a default that is. -/
def AgesAtMost (limit : ℕ) (events : List (Incoming × Behaviour A)) : Prop :=
  ∀ e ∈ events, ∀ msg, e.1.config? = some msg →
    ∀ maxAge, optInt (Json.lookup "track_max_age" msg) = some maxAge → maxAge.getD 90 ≤ limit

/-- However long a connection lives, its tracker holds no more tracks than there were boxes in the
    last `limit + 1` updates, if no config sets `max_age` above `limit`. -/
theorem connection_tracks_bounded (env : Env A) (events : List (Incoming × Behaviour A)) (limit : ℕ)
    (ages : AgesAtMost limit events) :
    let result := run env {} events
    ∀ t, result.1.tracker = some t →
      t.liveCount ≤ (((result.2.flatMap (·.updates)).reverse.take (limit + 1)).map List.length).sum := by
  intro result t tracked
  obtain ⟨frames, -, only⟩ | ⟨frames, maxAge, matchMode, later, is_ops, both⟩ := trackedBy_run env events
  · cases tracked.symm.trans (congrArg Tracked.tracker only)
  have le : ∀ (maxAge : Option ℤ) (matchMode : Option String),
      .setParams maxAge matchMode ∈ trackerOps env {} events → maxAge.getD 90 ≤ (limit : ℤ) := by
    intro maxAge matchMode mem
    obtain ⟨e, e_mem, msg, is_config, read, -⟩ := trackerOps_config mem
    exact ages e e_mem msg is_config maxAge read
  rw [is_ops] at le
  have made : Counted limit (configTracker none maxAge matchMode) [] :=
    counted_init _ (le maxAge matchMode (List.mem_append_right _ List.mem_cons_self)) _
  have rest : ∀ op ∈ later, op.AgeAtMost limit := by
    intro op mem
    cases op with
    | update boxes => trivial
    | setParams maxAge matchMode =>
      rintro age rfl
      exact le (some age) matchMode (List.mem_append_right _ (List.mem_cons_of_mem _ mem))
  have counted := (made.run rest).liveCount_le
  obtain rfl : exec (configTracker none maxAge matchMode) later = t :=
    Option.some.inj ((congrArg Tracked.tracker both).symm.trans tracked)
  have updates : result.2.flatMap (·.updates) = updatesOf later := congrArg Tracked.updates both
  rwa [updates, ← List.append_nil (updatesOf later).reverse]

/-- A car on two frames leaves one track. -/
theorem connection_tracks_bounded_car :
    let result := run loadedEnv {} [(.message configMsg, carOrRaise true),
        (.frame [] ⟨1, 1, 3, 8⟩ [1, 2, 3], carOrRaise true),
      (.frame [] ⟨1, 1, 3, 9⟩ [1, 2, 3], carOrRaise false)]
    ∃ t, result.1.tracker = some t ∧ t.liveCount ≤ 1 := by
  intro result
  have tracked : result.1.tracker.isSome = true := by decide +kernel
  obtain ⟨t, is⟩ := Option.isSome_iff_exists.mp tracked
  have ages : AgesAtMost 90 [((.message configMsg, carOrRaise true) : Incoming × Behaviour Unit),
      (.frame [] ⟨1, 1, 3, 8⟩ [1, 2, 3], carOrRaise true), (.frame [] ⟨1, 1, 3, 9⟩ [1, 2, 3], carOrRaise false)] := by
    intro e mem msg is_config maxAge read
    simp only [List.mem_cons, List.not_mem_nil, or_false] at mem
    obtain rfl | rfl | rfl := mem
    · obtain rfl : configMsg = msg := Option.some.inj is_config
      obtain rfl : none = maxAge := Option.some.inj read
      exact le_rfl
    · cases is_config
    · cases is_config
  have le := connection_tracks_bounded loadedEnv _ 90 ages t is
  have boxes : (((result.2.flatMap (·.updates)).reverse.take 91).map List.length).sum = 1 := by decide +kernel
  exact ⟨t, is, le.trans_eq boxes⟩

end VisionNx.Worker
