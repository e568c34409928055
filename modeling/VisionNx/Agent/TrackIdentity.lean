import VisionNx.Agent.DeviceAgent
import VisionNx.Agent.TrackUuidLru
import VisionNx.Client.Pairing

/-! # One UUID, one track

The worker numbers its tracks from 1 on every connection, but the agent keeps its cache of
UUIDs across connections.  Two objects share a UUID only if one track of one connection
has both, exactly as long as no track id of an earlier connection comes again while the
cache still holds it. -/

namespace VisionNx.Agent

open Client LruHistory TransitionRuns

variable {U : Type} {ctx : Context} {random : ℕ → U}

/-! ## Track ids -/

/-- The track id that a box is resolved for, unless it is skipped or has no valid one. -/
def resolvedTrackId (box : Json) : Option ℤ :=
  match box.get "xyxy" with
  | .arr [_, _, _, _] => boxTrackId box
  | _ => none

/-- The track id that the worker has stamped on a box is the one it is resolved for. -/
theorem resolvedTrackId_json {b : Tracker.Box} {tid : ℕ} (stamped : b.trackId = some tid) (pos : 0 < tid)
    (small : tid < 2 ^ 31) : resolvedTrackId b.json = some (tid : ℤ) := by
  have get_xyxy : b.json.get "xyxy" = b.xyxy.json := rfl
  have get_track_id : b.json.get "track_id" = .num tid := by
    cases cls : b.cls <;> simp [Tracker.Box.json, Json.get, Json.lookup, stamped, cls]
  have cast : castInt (tid : ℚ) = tid := by
    have whole : Python.toInt (tid : ℚ) = tid := Python.toInt_intCast tid
    rw [castInt, whole, if_pos (by omega)]
  have is_tid : boxTrackId b.json = some (tid : ℤ) := by
    simp only [boxTrackId, get_track_id, cast, if_pos (Int.natCast_pos.mpr pos)]
  simp only [resolvedTrackId, get_xyxy, Xyxy.json, is_tid]

/-- The ids that UUIDs have been resolved for, each with the connection of its box. -/
def resolvedIds (shown : List (Shown U)) : List (ℤ × Option ℕ) :=
  shown.filterMap fun e => e.tid.map fun tid => (tid, e.connection)

/-! ## The cache and what has been shown -/

def SameTrack (e e' : Shown U) : Prop :=
  e.uuid = e'.uuid → ∃ tid, e.tid = some tid ∧ e'.tid = some tid ∧ e.connection = e'.connection

/-- The resolutions, each with the connection of its box. -/
def resolutions (shown : List (Shown U)) : List ((ℤ × U) × Option ℕ) :=
  shown.filterMap fun e => e.tid.map fun tid => ((tid, e.uuid), e.connection)

/-- The cache is what the resolutions call for, and objects without an id have UUIDs of their own. -/
structure Accounts (random : ℕ → U) (shown : List (Shown U)) (c : TrackUuids U) : Prop where
  follows : Follows trackUuidCap random c ((resolutions shown).map Prod.fst).reverse
  drawn : ∀ e ∈ shown, ∃ k < c.drawn, e.uuid = random k
  one_tid : ∀ e ∈ shown, ∀ e' ∈ shown, e.uuid = e'.uuid → e.tid = e'.tid
  single : shown.Pairwise fun e e' => e.uuid = e'.uuid → e.tid.isSome

variable {shown : List (Shown U)} {c c' : TrackUuids U} {e : Shown U} {k : Option ℕ} {box : Json}
  {boxes : List Json}

/-- A UUID that is drawn now has not been shown. -/
theorem Accounts.not_shown (accounts : Accounts random shown c) (distinct : Function.Injective random) :
    ∀ e ∈ shown, e.uuid ≠ random c.drawn := by
  intro e mem same
  obtain ⟨k, before, is⟩ := accounts.drawn e mem
  exact before.ne (distinct (is.symm.trans same))

/-- One more object, whose UUID is new or has been shown for the same id. -/
theorem Accounts.concat (accounts : Accounts random shown c)
    (follows : Follows trackUuidCap random c' ((resolutions (shown ++ [e])).map Prod.fst).reverse)
    (more : c.drawn ≤ c'.drawn) (drawn : ∃ k < c'.drawn, e.uuid = random k)
    (known : ∀ e' ∈ shown, e'.uuid = e.uuid → e'.tid = e.tid ∧ e'.tid.isSome) : Accounts random (shown ++ [e]) c' where
  follows := follows
  drawn := by
    intro e' mem
    cases List.mem_append.mp mem with
    | inl old =>
      obtain ⟨k, before, is⟩ := accounts.drawn e' old
      exact ⟨k, before.trans_le more, is⟩
    | inr new => exact List.mem_singleton.mp new ▸ drawn
  one_tid := by
    intro e₁ mem₁ e₂ mem₂ same
    rcases List.mem_append.mp mem₁ with old₁ | new₁ <;> rcases List.mem_append.mp mem₂ with old₂ | new₂
    · exact accounts.one_tid e₁ old₁ e₂ old₂ same
    · obtain rfl := List.mem_singleton.mp new₂
      exact (known e₁ old₁ same).1
    · obtain rfl := List.mem_singleton.mp new₁
      exact (known e₂ old₂ same.symm).1.symm
    · rw [List.mem_singleton.mp new₁, List.mem_singleton.mp new₂]
  single := by
    refine List.pairwise_append.mpr ⟨accounts.single, List.pairwise_singleton _ _, fun e₁ old e₂ new same => ?_⟩
    obtain rfl := List.mem_singleton.mp new
    exact (known e₁ old same).2

/-- An object without a valid id. -/
theorem Accounts.unresolved (accounts : Accounts random shown c) (distinct : Function.Injective random)
    (no_id : e.tid = none) (uuid : e.uuid = random c.drawn) :
    Accounts random (shown ++ [e]) { c with drawn := c.drawn + 1 } := by
  have same : resolutions (shown ++ [e]) = resolutions shown := by simp [resolutions, no_id]
  refine accounts.concat ?_ (Nat.le_succ _) ⟨_, Nat.lt_succ_self _, uuid⟩ fun e' mem same => ?_
  · rw [same]
    exact accounts.follows.draw
  · exact absurd (same.trans uuid) (accounts.not_shown distinct e' mem)

/-- An object whose id is resolved. -/
theorem Accounts.resolved (accounts : Accounts random shown c) (distinct : Function.Injective random) {tid : ℤ}
    {isNew : Bool} (is_tid : e.tid = some tid)
    (resolved : resolveTrackUuid trackUuidCap random tid c = ((e.uuid, isNew), c')) :
    Accounts random (shown ++ [e]) c' := by
  have positive : 0 < trackUuidCap := by decide
  have follows := accounts.follows.resolve positive distinct resolved
  have history : (resolutions (shown ++ [e])).map Prod.fst = (resolutions shown).map Prod.fst ++ [(tid, e.uuid)] := by
    simp [resolutions, is_tid]
  rw [← List.reverse_concat, ← history] at follows
  obtain ⟨-, ⟨drawn, held, -⟩ | ⟨drawn, uuid, -, -⟩⟩ := resolve_entries trackUuidCap random accounts.follows.indexed resolved
  · -- The UUID has been resolved for the id before.
    rw [accounts.follows.entries] at held
    have before := List.mem_reverse.mp (mem_of_mem_latest (List.mem_of_mem_take held))
    obtain ⟨resolution, mem, is⟩ := List.mem_map.mp before
    obtain ⟨e₀, shown_before, is_resolution⟩ := List.mem_filterMap.mp mem
    obtain ⟨tid₀, is_tid₀, rfl⟩ := Option.map_eq_some_iff.mp is_resolution
    obtain ⟨rfl, same_uuid⟩ := Prod.mk.inj is
    refine accounts.concat follows drawn.ge ?_ fun e' mem' same => ?_
    · rw [drawn, ← same_uuid]
      exact accounts.drawn e₀ shown_before
    · rw [accounts.one_tid e' mem' e₀ shown_before (same.trans same_uuid.symm), is_tid₀, is_tid]
      exact ⟨rfl, rfl⟩
  · refine accounts.concat follows (by omega) ⟨_, by omega, uuid⟩ fun e' mem' same => ?_
    exact absurd (same.trans uuid) (accounts.not_shown distinct e' mem')

theorem mem_resolutions {resolution : (ℤ × U) × Option ℕ} : resolution ∈ resolutions shown ↔
    ∃ e ∈ shown, e.tid = some resolution.1.1 ∧ e.uuid = resolution.1.2 ∧ e.connection = resolution.2 := by
  obtain ⟨⟨tid, uuid⟩, k⟩ := resolution
  simp only [resolutions, List.mem_filterMap, Option.map_eq_some_iff, Prod.mk.injEq]
  refine exists_congr fun e => and_congr_right fun _ => ⟨?_, fun ⟨is_tid, rest⟩ => ⟨tid, is_tid, ⟨rfl, rest.1⟩, rest.2⟩⟩
  rintro ⟨_, is_tid, ⟨rfl, uuid⟩, connection⟩
  exact ⟨is_tid, uuid, connection⟩

/-- Whether the objects of a UUID are of one track is a matter of their ids and connections. -/
theorem Accounts.sameTrack_iff (accounts : Accounts random shown c) :
    shown.Pairwise SameTrack ↔ FarApart trackUuidCap (resolvedIds shown) := by
  have ids : resolvedIds shown = (resolutions shown).map fun e => (e.1.1, e.2) := by
    rw [resolvedIds, resolutions, List.map_filterMap]
    refine List.filterMap_congr fun e _ => ?_
    cases e.tid <;> rfl
  have used := accounts.follows.used
  rw [← List.map_reverse] at used
  rw [ids, ← farApart_reverse, ← List.map_reverse, ← used.one_tag_iff]
  constructor
  · intro tracks x mem x' mem' same
    have later : shown.Pairwise fun e e' => e.uuid = e'.uuid → e.connection = e'.connection :=
      tracks.imp fun {e e'} one same => by
        obtain ⟨_, -, -, connection⟩ := one same
        exact connection
    have earlier := later.imp fun {e e'} agree (same : e'.uuid = e.uuid) => (agree same.symm).symm
    have one_connection := List.Pairwise.forall_of_forall_of_flip (fun _ _ _ => rfl) later earlier
    obtain ⟨r, in_r, rfl⟩ := List.mem_map.mp mem
    obtain ⟨r', in_r', rfl⟩ := List.mem_map.mp mem'
    obtain ⟨e, in_shown, -, uuid, connection⟩ := mem_resolutions.mp (List.mem_reverse.mp in_r)
    obtain ⟨e', in_shown', -, uuid', connection'⟩ := mem_resolutions.mp (List.mem_reverse.mp in_r')
    exact connection.symm.trans ((one_connection in_shown in_shown' (uuid.trans (same.trans uuid'.symm))).trans
      connection')
  · intro constant
    refine accounts.single.imp_of_mem fun {e e'} mem mem' resolved same => ?_
    obtain ⟨tid, is_tid⟩ := Option.isSome_iff_exists.mp (resolved same)
    have is_tid' := (accounts.one_tid e mem e' mem' same).symm.trans is_tid
    have tagged : ∀ e ∈ shown, e.tid = some tid →
        (e.uuid, e.connection) ∈ (resolutions shown).reverse.map fun r => (r.1.2, r.2) := fun e mem is_tid =>
      List.mem_map.mpr ⟨((tid, e.uuid), e.connection),
        List.mem_reverse.mpr (mem_resolutions.mpr ⟨e, mem, is_tid, rfl, rfl⟩), rfl⟩
    exact ⟨tid, is_tid, is_tid', constant _ (tagged e mem is_tid) _ (tagged e' mem' is_tid') same⟩

/-! ## The loop over the boxes -/

theorem emitBox_cases {box : Json} {object : Option (ObjectMetadata U × Option ℤ)}
    (result : emitBox random box c = (object, c')) :
    (object = none ∧ resolvedTrackId box = none ∧ c' = c) ∨ ∃ o, object = some (o, resolvedTrackId box) ∧
      ((resolvedTrackId box = none ∧ c.randomUuid random = (o.trackId, c')) ∨
        ∃ tid isNew, resolvedTrackId box = some tid ∧
          resolveTrackUuid trackUuidCap random tid c = ((o.trackId, isNew), c')) := by
  unfold emitBox at result
  split at result
  next x1 x2 x3 x4 corners =>
    have resolved : resolvedTrackId box = boxTrackId box := by simp only [resolvedTrackId, corners]
    rw [resolved]
    cases is : boxTrackId box with
    | none =>
      simp only [is] at result
      cases result
      exact .inr ⟨⟨boxClsId box, random c.drawn, _⟩, rfl, .inl ⟨rfl, rfl⟩⟩
    | some tid =>
      simp only [is] at result
      cases result
      exact .inr ⟨⟨boxClsId box, (resolveTrackUuid trackUuidCap random tid c).1.1, _⟩, rfl,
        .inr ⟨tid, (resolveTrackUuid trackUuidCap random tid c).1.2, rfl, rfl⟩⟩
  next other =>
    cases result
    refine .inl ⟨rfl, ?_, rfl⟩
    unfold resolvedTrackId
    split
    next corners => exact absurd corners (other _ _ _ _)
    next => rfl

/-- The record of objects that are shown on a connection. -/
def record (k : Option ℕ) (objects : List (ObjectMetadata U × Option ℤ)) : List (Shown U) :=
  objects.map fun object => ⟨object.1.trackId, object.2, k⟩

theorem emitBox_accounts (distinct : Function.Injective random) (accounts : Accounts random shown c)
    {object : Option (ObjectMetadata U × Option ℤ)} (result : emitBox random box c = (object, c')) :
    Accounts random (shown ++ record k object.toList) c' := by
  obtain ⟨rfl, -, rfl⟩ | ⟨o, rfl, ⟨no_id, drawn⟩ | ⟨tid, isNew, is_tid, resolved⟩⟩ := emitBox_cases result
  · simpa [record] using accounts
  · -- The box has no valid track id.
    obtain ⟨uuid, rfl⟩ : random c.drawn = o.trackId ∧ { c with drawn := c.drawn + 1 } = c' :=
      Prod.mk.inj drawn
    exact accounts.unresolved distinct no_id uuid.symm
  · exact accounts.resolved distinct is_tid resolved

theorem record_append (k : Option ℕ) (objects objects' : List (ObjectMetadata U × Option ℤ)) :
    record k (objects ++ objects') = record k objects ++ record k objects' :=
  List.map_append

theorem emitBoxes_accounts (distinct : Function.Injective random) (accounts : Accounts random shown c) :
    Accounts random (shown ++ record k (emitBoxes random boxes c).1) (emitBoxes random boxes c).2 := by
  induction boxes generalizing shown c with
  | nil => simpa [emitBoxes, record] using accounts
  | cons box boxes ih =>
    have first := emitBox_accounts (k := k) distinct accounts (Prod.eta (emitBox random box c)).symm
    have rest := ih first
    simpa only [emitBoxes, record_append, List.append_assoc] using rest

/-! ## Calls and runs -/

section

variable {w w' : World} {s : Socket} {n : ℕ} {m : ClientMessage} {r : Option Json}

theorem connection_of_open (is_open : w.Open s n) : connection w = some n := by
  simp [connection, is_open.fd, is_open.find, is_open.connection]

/-- A reply leaves the connection open on which it came. -/
theorem connection_of_reply (sound : w.Sound) (result : perform ctx m w = (r, w')) (replied : r ≠ none) :
    ∃ n, connection w' = some n := by
  cases perform_cases sound.settled result with
  | unsent | long | lost | sent => exact absurd rfl replied
  | answered _ _ _ _ _ _ _ is_open => exact ⟨_, connection_of_open is_open⟩

end

def DeviceAgent.items (a : DeviceAgent U) : List (ObjectMetadata U) := a.packets.flatMap (·.items)

/-- A call shows nothing, or the objects of one list of boxes. -/
theorem call_cases (ctx : Context) (random : ℕ → U) (a : DeviceAgent U) (call : Call) :
    ((a.call ctx random call).shown = a.shown ∧ (a.call ctx random call).trackUuids = a.trackUuids ∧
      (a.call ctx random call).items = a.items) ∨
    ∃ k boxes, (a.world.Sound → ∃ n, k = some n) ∧
      (a.call ctx random call).shown = a.shown ++ record k (emitBoxes random boxes a.trackUuids).1 ∧
      (a.call ctx random call).trackUuids = (emitBoxes random boxes a.trackUuids).2 ∧
      (a.call ctx random call).items = a.items ++ (emitBoxes random boxes a.trackUuids).1.map Prod.fst := by
  cases call with
  | settingsReceived | onEngineConfigChanged => exact .inl ⟨rfl, rfl, rfl⟩
  | engineSettingsReceived newRuntime newDevice newWorkerCount =>
    refine .inl ?_
    simp only [DeviceAgent.call, engineSettingsReceived]
    split <;> exact ⟨rfl, rfl, rfl⟩
  | pushUncompressedVideoFrame frame =>
    simp only [DeviceAgent.call, pushUncompressedVideoFrame]
    cases is : DeviceAgent.frameMessage { a with frameCount := a.frameCount + 1 } frame with
    | none => exact .inl ⟨rfl, rfl, rfl⟩
    | some m =>
      simp only [pushMetadata]
      split
      next boxes reply =>
        have replied : (perform ctx m a.world).1 ≠ none := by
          intro nothing
          rw [nothing] at reply
          cases reply
        refine .inr ⟨connection (perform ctx m a.world).2, boxes,
          fun sound => connection_of_reply sound rfl replied, ?_⟩
        split
        next empty =>
          rw [List.isEmpty_iff] at empty
          simp [empty, record, DeviceAgent.items]
        next => simp [record, DeviceAgent.items]
      next => exact .inl ⟨rfl, rfl, rfl⟩

theorem accounts_step (distinct : Function.Injective random) {a a' : DeviceAgent U} {call : Call}
    (accounts : Accounts random a.shown a.trackUuids) (step : Calls ctx random a call a') :
    Accounts random a'.shown a'.trackUuids := by
  obtain rfl := step
  obtain ⟨shown, cache, -⟩ | ⟨k, boxes, -, shown, cache, -⟩ := call_cases ctx random a call
  · rw [shown, cache]
    exact accounts
  · rw [shown, cache]
    exact emitBoxes_accounts distinct accounts

/-- `shown` tells the UUIDs of the objects that have been pushed, each with the number of a
    connection. -/
structure Recorded (a : DeviceAgent U) : Prop where
  sound : a.world.Sound
  uuids : a.shown.map (·.uuid) = a.items.map (·.trackId)
  connections : ∀ e ∈ a.shown, ∃ n, e.connection = some n

theorem recorded_step {a a' : DeviceAgent U} {call : Call} (recorded : Recorded a)
    (step : Calls ctx random a call a') : Recorded a' := by
  obtain rfl := step
  have sound := @sound_call U ctx random a recorded.sound call
  obtain ⟨shown, -, items⟩ | ⟨k, boxes, numbered, shown, -, items⟩ := call_cases ctx random a call
  · exact ⟨sound, by rw [shown, items, recorded.uuids], shown ▸ recorded.connections⟩
  · refine ⟨sound, by simp [shown, items, recorded.uuids, record], fun e mem => ?_⟩
    rw [shown] at mem
    cases List.mem_append.mp mem with
    | inl old => exact recorded.connections e old
    | inr new =>
      obtain ⟨_, _, rfl⟩ := List.mem_map.mp new
      exact numbered recorded.sound

theorem recorded_run {engine : EngineSettings} {clock : ℕ} {script : List (ℕ × Outcome)} {calls : List Call}
    {a : DeviceAgent U} (run : Run (Calls ctx random) (DeviceAgent.create ctx engine { clock, script }) calls a) :
    Recorded a :=
  run.invariant (fun _ _ _ recorded step => recorded_step recorded step)
    ⟨sound_create engine clock script, rfl, fun _ mem => absurd mem List.not_mem_nil⟩

theorem accounts_run (distinct : Function.Injective random) {engine : EngineSettings} {w : World} {calls : List Call}
    {a : DeviceAgent U} (run : Run (Calls ctx random) (DeviceAgent.create ctx engine w) calls a) :
    Accounts random a.shown a.trackUuids :=
  run.invariant (fun _ _ _ accounts step => accounts_step distinct accounts step)
    ⟨follows_empty trackUuidCap random, nofun, nofun, List.Pairwise.nil⟩

/-- `shown` tells the UUIDs of all objects that have been pushed and the connections of
    their boxes.  Any two with one UUID are of one track id of one connection exactly if, whenever
    an id is resolved on another connection than the last time, as many other ids as the cache has
    room for have been resolved in between. -/
theorem one_track_per_uuid (ctx : Context) (random : ℕ → U) (distinct : Function.Injective random)
    (engine : EngineSettings) (clock : ℕ) (script : List (ℕ × Outcome)) {calls : List Call} {a : DeviceAgent U}
    (run : Run (Calls ctx random) (DeviceAgent.create ctx engine { clock, script }) calls a) :
    a.shown.map (·.uuid) = a.items.map (·.trackId) ∧ (∀ e ∈ a.shown, ∃ n, e.connection = some n) ∧
    (a.shown.Pairwise SameTrack ↔ FarApart trackUuidCap (resolvedIds a.shown)) :=
  ⟨(recorded_run run).uuids, (recorded_run run).connections, (accounts_run distinct run).sameTrack_iff⟩

/-! ## An example -/

def carEngine : EngineSettings := ⟨"onnx", "cpu", 1⟩

def carSettings : CameraSettings := { modelPath := "yolo26n.onnx" }

def carMessages : List ClientMessage :=
  [.attach, .config (configExtra carSettings carEngine)] ++
    [1, 2, 3].map fun k => .frame k 0 2 1 6 [10, 20, 30, 40, 50, 60]

def carReply (k : ℤ) : Worker.Reply where
  cameraUuid := .str "cam"
  id := k
  boxes := [{ xyxy := ⟨0, 0, 1 / 2, 1⟩, score := 9 / 10, cls := some 2, trackId := some 1 }]
  inferMs := 12
  runtime := "onnx"
  device := "cpu"

/-- A worker that finds a car in every frame. -/
def carDeployment : Deployment Unit where
  dump := dumpText
  parse bytes := (([1, 2, 3].map fun k => (carReply k).json).find? fun j => dumpText j == bytes)
  socketPath := []
  cameraUuid := "cam"
  server := {
    loads := fun bytes => (carMessages.find? fun m => m.text dumpText "cam" == bytes).map
      fun m => .obj (m.fields "cam")
    dumps := dumpText
    env := Worker.loadedEnv
    behaviour := fun _ _ => Worker.carOrRaise true }

/-- The system calls for the settings and a frame on each of two connections.  Each goes
    through but the thirteenth, which is the first send of a frame between them. -/
def restartScript : List (ℕ × Outcome) :=
  List.replicate 12 (1, .done 999) ++ [(1, .fail)] ++ List.replicate 10 (1, .done 999)

def carStart : DeviceAgent ℕ :=
  DeviceAgent.create carDeployment.context carEngine { clock := 0, script := restartScript }

def carCalls : List Call :=
  [.settingsReceived carSettings, .pushUncompressedVideoFrame smallVideoFrame, .pushUncompressedVideoFrame smallVideoFrame,
    .settingsReceived carSettings, .pushUncompressedVideoFrame smallVideoFrame]

def afterCalls (calls : List Call) : DeviceAgent ℕ :=
  calls.foldl (DeviceAgent.call carDeployment.context id) carStart

theorem run_afterCalls (calls : List Call) :
    Run (Calls carDeployment.context id) carStart calls (afterCalls calls) := by
  unfold afterCalls
  generalize carStart = a
  induction calls generalizing a with
  | nil => exact .nil a
  | cons call calls ih => exact .cons rfl (ih (a.call carDeployment.context id call))

/-- Up to the second settings there is one connection; behind it, the first id comes again at once. -/
theorem one_track_per_uuid_car :
    ((afterCalls (carCalls.take 4)).shown.Pairwise SameTrack ∧
      FarApart trackUuidCap (resolvedIds (afterCalls (carCalls.take 4)).shown)) ∧
    (resolvedIds (afterCalls carCalls).shown = [(1, some 0), (1, some 1)] ∧
      ¬(afterCalls carCalls).shown.Pairwise SameTrack) := by
  have apart := (one_track_per_uuid carDeployment.context id Function.injective_id carEngine 0 restartScript
    (run_afterCalls (carCalls.take 4))).2.2
  have same := (one_track_per_uuid carDeployment.context id Function.injective_id carEngine 0 restartScript
    (run_afterCalls carCalls)).2.2
  have one : (afterCalls (carCalls.take 4)).shown = [⟨0, some 1, some 0⟩] := by decide +kernel
  have two : resolvedIds (afterCalls carCalls).shown = [(1, some 0), (1, some 1)] := by decide +kernel
  have tracks : (afterCalls (carCalls.take 4)).shown.Pairwise SameTrack := by
    rw [one]
    exact List.pairwise_singleton _ _
  refine ⟨⟨tracks, apart.mp tracks⟩, two, fun tracks => ?_⟩
  have far := same.mp tracks [] 1 (some 0) [] (some 1) [] two List.not_mem_nil (by decide)
  exact absurd far (by decide)

/-- The first track of the second connection is shown under the UUID of the first track of
    the first connection. -/
theorem two_tracks_under_one_uuid : ∃ a, Run (Calls carDeployment.context id) carStart carCalls a ∧
    a.items.map (·.trackId) = [0, 0] ∧ a.shown = [⟨0, some 1, some 0⟩, ⟨0, some 1, some 1⟩] ∧
    ¬a.shown.Pairwise SameTrack := by
  have shown : (afterCalls carCalls).shown = [⟨0, some 1, some 0⟩, ⟨0, some 1, some 1⟩] := by
    decide +kernel
  have items : (afterCalls carCalls).items.map (·.trackId) = [0, 0] := by
    rw [← (recorded_run (run_afterCalls carCalls)).uuids, shown]
    rfl
  refine ⟨afterCalls carCalls, run_afterCalls carCalls, items, shown, fun tracks => ?_⟩
  rw [shown] at tracks
  obtain ⟨_, _, _, one_connection⟩ := List.rel_of_pairwise_cons tracks List.mem_cons_self rfl
  exact absurd one_connection (by decide)

end VisionNx.Agent
