import VisionNx.Agent.ClassSelection
import VisionNx.Agent.ConfigFreshness
import VisionNx.Agent.Packets
import VisionNx.Worker.ReportedBoxes

/-! # From the settings to the screen

Whatever happens to the connections, an object that the agent pushes meets the settings of
the last config that the worker had got on the connection of its frame: it lies in the
region, its class was selected, and the masks let it through. -/

namespace VisionNx.Agent

open BinaryFloats Client Python TransitionRuns Worker

variable {U : Type} {random : ℕ → U}

/-! ## What the settings ask for -/

/-- What the worker makes of a figure of the settings. -/
def heldFigure (pts : List (Floating × Floating)) : Option (List (List ℚ)) :=
  coercePoly (if pts.isEmpty then none else some (polygonToJsonArray pts))

def Rect.corners (r : Rect) : Xyxy := ⟨r.x, r.y, r.x + r.width, r.y + r.height⟩

/-- The centre of an object in the pixels of its frame. -/
def Rect.centre (r : Rect) (frame : VideoFrame) : ℚ × ℚ :=
  ((r.corners.x1 + r.corners.x2) * (1 / 2) * frame.width.toInt, (r.corners.y1 + r.corners.y2) * (1 / 2) * frame.height.toInt)

/-- An object that the settings of a camera ask for. -/
structure Wanted (pointPolygonTest : List (ℤ × ℤ) → ℚ × ℚ → Bool) (camera : CameraSettings) (frame : VideoFrame)
    (o : ObjectMetadata U) : Prop where
  normalized : o.boundingBox.corners.Normalized
  in_roi : o.boundingBox.corners.Within
    (cropRect (heldFigure camera.roi) ⟨frame.width.toInt, frame.height.toInt, frame.lineSize.toInt, 0⟩)
  inclusive : ∀ poly ∈ normalizeToPixelPolygon (heldFigure camera.inclusiveMask) frame.width.toInt frame.height.toInt,
    pointPolygonTest poly (o.boundingBox.centre frame) = true
  exclusive : ∀ poly ∈ normalizeToPixelPolygon (heldFigure camera.exclusiveMask) frame.width.toInt frame.height.toInt,
    pointPolygonTest poly (o.boundingBox.centre frame) = false
  selected : camera.classesSet = true →
    ∃ name ∈ camera.classes, clsName (Int32.ofInt o.clsId) = some (lower (strip name))

/-! ## The configs that an agent sends -/

/-- The settings that an agent has had, before it was given any and by the calls. -/
def Given (calls : List Call) (camera : CameraSettings) : Prop := camera = {} ∨ .settingsReceived camera ∈ calls

/-- A config on its way holds settings that the agent was given. -/
structure SendsGiven (calls : List Call) (a : DeviceAgent U) : Prop where
  sound : a.world.Sound
  camera : Given calls a.camera
  configs : ∀ e ∈ a.world.log, ∀ extra, e.2 = .config extra →
    ∃ camera engine, extra = configExtra camera engine ∧ Given calls camera

theorem Given.later {calls : List Call} {camera : CameraSettings} (given : Given calls camera) (call : Call) :
    Given (calls ++ [call]) camera :=
  given.imp_right fun mem => List.mem_append_left _ mem

theorem call_camera {ctx : Context} {calls : List Call} {a : DeviceAgent U} (given : Given calls a.camera) (call : Call) :
    Given (calls ++ [call]) (a.call ctx random call).camera := by
  cases call with
  | settingsReceived parsed => exact .inr (List.mem_append_right _ List.mem_cons_self)
  | onEngineConfigChanged => exact given.later _
  | engineSettingsReceived newRuntime newDevice newWorkerCount =>
    simp only [DeviceAgent.call, engineSettingsReceived]
    split
    · exact given.later _
    · exact given.later _
  | pushUncompressedVideoFrame frame =>
    have same : (pushUncompressedVideoFrame ctx random frame a).camera = a.camera := by
      simp only [pushUncompressedVideoFrame]
      cases DeviceAgent.frameMessage { a with frameCount := a.frameCount + 1 } frame with
      | none => rfl
      | some m =>
        simp only [pushMetadata]
        split
        · split
          · rfl
          · rfl
        · rfl
    exact same.symm ▸ given.later _

theorem messageOf_config {calls : List Call} {a : DeviceAgent U} (given : Given calls a.camera) {call : Call}
    {extra : List (String × Json)} (sent : a.messageOf call = some (.config extra)) :
    ∃ camera engine, extra = configExtra camera engine ∧ Given (calls ++ [call]) camera := by
  cases call with
  | settingsReceived parsed =>
    cases sent
    exact ⟨parsed, a.engine, rfl, .inr (List.mem_append_right _ List.mem_cons_self)⟩
  | onEngineConfigChanged =>
    cases sent
    exact ⟨a.camera, a.engine, rfl, given.later _⟩
  | engineSettingsReceived newRuntime newDevice newWorkerCount =>
    simp only [DeviceAgent.messageOf] at sent
    split at sent
    · cases sent
      exact ⟨a.camera, _, rfl, given.later _⟩
    · cases sent
  | pushUncompressedVideoFrame frame =>
    obtain ⟨bytes, -, is_frame, -⟩ := passed_of_sent sent
    cases is_frame

theorem sendsGiven_step {ctx : Context} {calls : List Call} {a : DeviceAgent U} (sends : SendsGiven calls a) (call : Call) :
    SendsGiven (calls ++ [call]) (a.call ctx random call) := by
  refine ⟨sound_call sends.sound call, call_camera sends.camera call, ?_⟩
  have before : ∀ e ∈ a.world.log, ∀ extra, e.2 = .config extra →
      ∃ camera engine, extra = configExtra camera engine ∧ Given (calls ++ [call]) camera := by
    intro e mem extra is_config
    obtain ⟨camera, engine, is_extra, given⟩ := sends.configs e mem extra is_config
    exact ⟨camera, engine, is_extra, given.later call⟩
  rw [call_world]
  cases sent : a.messageOf call with
  | none => exact before
  | some m =>
    obtain same | ⟨n, more⟩ := perform_log sends.sound.settled (Prod.eta (perform ctx m a.world)).symm
    · simp only [same]
      exact before
    · simp only [more]
      intro e mem extra is_config
      cases List.mem_append.mp mem with
      | inl old => exact before e old extra is_config
      | inr new =>
        obtain rfl := List.mem_singleton.mp new
        obtain rfl : m = .config extra := is_config
        exact messageOf_config sends.camera sent

theorem sendsGiven_run {ctx : Context} {past calls : List Call} {a a' : DeviceAgent U} (sends : SendsGiven past a)
    (run : Run (Calls ctx random) a calls a') : SendsGiven (past ++ calls) a' := by
  induction run generalizing past with
  | nil => simpa using sends
  | cons step _ ih =>
    obtain rfl := step
    have rest := ih (sendsGiven_step sends _)
    rwa [List.append_assoc] at rest

theorem sendsGiven_create (ctx : Context) (engine : EngineSettings) (clock : ℕ) (script : List (ℕ × Outcome)) :
    SendsGiven [] (DeviceAgent.create ctx engine { clock, script } : DeviceAgent U) := by
  refine ⟨sound_create engine clock script, .inl rfl, ?_⟩
  intro e mem extra is_config
  -- Only the `attach` may have been written.
  have attached : perform ctx .attach { clock, script } =
    (none, (DeviceAgent.create ctx engine { clock, script } : DeviceAgent U).world) := rfl
  obtain same | ⟨n, more⟩ := perform_log (sound_start clock script).settled attached
  · rw [same] at mem
    cases mem
  · rw [more] at mem
    obtain rfl := List.mem_singleton.mp mem
    cases is_config

/-! ## The worker behind them -/

variable {d : Deployment Adapter} {n : ℕ}

/-- The effects of a message are those of handling it behind the earlier ones. -/
theorem handles_at {A : Type} {env : Env A} {s : ServeState A} {events : List (Incoming × Behaviour A)} {i : ℕ}
    {effects : Effects} (at_i : (Worker.run env s events).2[i]? = some effects) :
    ∃ s₁ s₂ e, events[i]? = some e ∧ Run (Handles env) s (events.take i) s₁ ∧
      handle env e.2 s₁ e.1 = some (s₂, effects) := by
  induction events generalizing s i with
  | nil => cases at_i
  | cons e events ih =>
    obtain ⟨m, b⟩ := e
    simp only [Worker.run] at at_i
    cases handled : handle env b s m with
    | none =>
      simp only [handled] at at_i
      cases at_i
    | some result =>
      obtain ⟨s', first⟩ := result
      simp only [handled] at at_i
      cases i with
      | zero =>
        cases at_i
        exact ⟨s, s', (m, b), rfl, .nil s, handled⟩
      | succ i =>
        obtain ⟨s₁, s₂, e, at_e, run, later⟩ := ih at_i
        exact ⟨s₁, s₂, e, at_e, .cons ⟨first, handled⟩ run, later⟩

theorem events_fst (server : Server Adapter) (n : ℕ) (msgs : List Incoming) :
    (server.events n msgs).map Prod.fst = msgs := by
  refine List.ext_getElem? fun i => ?_
  rw [Server.events, List.getElem?_map, List.getElem?_mapIdx]
  cases msgs[i]? with
  | none => rfl
  | some m => rfl

theorem events_behaviour {server : Server Adapter} {n : ℕ} {msgs : List Incoming} {e : Incoming × Behaviour Adapter}
    (mem : e ∈ server.events n msgs) : ∃ i, e.2 = server.behaviour n i := by
  obtain ⟨i, inside, rfl⟩ := List.mem_mapIdx.mp mem
  exact ⟨i, rfl⟩

theorem lastConfig_incoming (cameraUuid : String) (msgs : List ClientMessage) :
    Worker.lastConfig (msgs.map (incoming cameraUuid)) =
      (lastConfig msgs).map fun extra => ClientMessage.fields cameraUuid (.config extra) := by
  have config (m : ClientMessage) : (incoming cameraUuid m).config? =
      (configOf m).map fun extra => ClientMessage.fields cameraUuid (.config extra) := by
    cases m with
    | attach | detach | config extra => simp [incoming, Incoming.config?, typeIs_fields, configOf]
    | frame => rfl
  have configs : (msgs.map (incoming cameraUuid)).filterMap Incoming.config? =
      (msgs.filterMap configOf).map fun extra => ClientMessage.fields cameraUuid (.config extra) := by
    rw [List.filterMap_map, List.map_filterMap]
    exact List.filterMap_congr fun m _ => config m
  rw [Worker.lastConfig, configs, List.getLast?_map, lastConfig]

/-- The worker reads the settings of the last config in its keys. -/
theorem configured_settings {cameraUuid : String} {msgs : List ClientMessage} {camera : CameraSettings}
    {engine : EngineSettings} (last : lastConfig msgs = some (configExtra camera engine)) (key : String) :
    configured (msgs.map (incoming cameraUuid)) key = Json.lookup key (configFields cameraUuid camera engine) := by
  rw [configured, lastConfig_incoming, last]
  rfl

/-- The worker's third-party code runs models that keep to their arguments. -/
structure RunsModels (server : Server Adapter) (pointPolygonTest : List (ℤ × ℤ) → ℚ × ℚ → Bool) (cv2 : Cv2) : Prop where
  env : server.env = adapterEnv pointPolygonTest
  behaviour : ∀ n i, ∃ r inferMs, Runtimes.KeepsArguments r ∧ server.behaviour n i = r.behaviour (Adapter.infer cv2) inferMs

/-- What a frame is answered with: nothing on a connection without a config, else what that lets
    through. -/
theorem answers_permitted {pointPolygonTest : List (ℤ × ℤ) → ℚ × ℚ → Bool} {cv2 : Cv2}
    (models : RunsModels d.server pointPolygonTest cv2) {earlier : List ClientMessage} {k ts w h stride : ℤ}
    {bytes : List UInt8} (wide : 0 < w) {r : Reply}
    (answers : Answers d.dump d.cameraUuid d.server n earlier (.frame k ts w h stride bytes) r) :
    (lastConfig earlier = none → r.boxes = []) ∧
    ∀ box ∈ r.boxes, Permitted (adapterEnv pointPolygonTest) (earlier.map (incoming d.cameraUuid))
      ⟨w, h, stride, Python.toInt (toDouble k)⟩ box := by
  obtain ⟨effects, replies, at_frame⟩ := answers.replies
  rw [Server.effects, answers.read, List.map_append] at at_frame
  obtain ⟨s₁, s₂, e, at_e, run, handled⟩ := handles_at at_frame
  have split : d.server.events n (earlier.map (incoming d.cameraUuid) ++
      [incoming d.cameraUuid (.frame k ts w h stride bytes)]) =
      d.server.events n (earlier.map (incoming d.cameraUuid)) ++
        [(incoming d.cameraUuid (.frame k ts w h stride bytes), d.server.behaviour n earlier.length)] := by
    simp [Server.events, List.mapIdx_append]
  have before : (d.server.events n (earlier.map (incoming d.cameraUuid))).length = earlier.length := by
    simp [Server.events]
  rw [List.map_cons, List.map_nil, split] at at_e run
  rw [List.take_left' before] at run
  rw [List.getElem?_append_right before.le, before, Nat.sub_self] at at_e
  obtain rfl := Option.some.inj at_e
  have keeping : ∀ e ∈ d.server.events n (earlier.map (incoming d.cameraUuid)), Keeping e.2 := by
    intro e mem
    obtain ⟨i, behaviour⟩ := events_behaviour mem
    obtain ⟨r, inferMs, keeps, is⟩ := models.behaviour n i
    exact ⟨r, _, inferMs, keeps, behaviour.trans is⟩
  obtain ⟨r', inferMs, keeps, is⟩ := models.behaviour n earlier.length
  have past := Past.of_run run keeping
  rw [events_fst] at past
  obtain ⟨s', reply, updates, answered, permitted⟩ := @Past.frame (adapterEnv pointPolygonTest) s₁ _ past
    (d.server.behaviour n earlier.length) cv2 (by rw [is]; rfl) (ClientMessage.fields d.cameraUuid (.frame k ts w h stride bytes))
    ⟨w, h, stride, Python.toInt (toDouble k)⟩ wide bytes
  rw [models.env] at run handled
  obtain ⟨rfl, rfl⟩ := Prod.mk.inj (Option.some.inj (handled.symm.trans answered))
  obtain rfl : reply = r := List.singleton_inj.mp replies
  refine ⟨fun no_config => ?_, fun box mem => (permitted box mem).1⟩
  have others : ∀ e ∈ d.server.events n (earlier.map (incoming d.cameraUuid)), e.1.config? = none := by
    intro e mem
    have no_config' : Worker.lastConfig (earlier.map (incoming d.cameraUuid)) = none := by
      rw [lastConfig_incoming, no_config, Option.map_none]
    have none_there := List.filterMap_eq_nil_iff.mp (List.getLast?_eq_none_iff.mp no_config')
    have is_message := List.mem_map_of_mem (f := Prod.fst) mem
    rw [events_fst] at is_message
    exact none_there e.1 is_message
  obtain ⟨cache, tracker, cam, rfl, untracked⟩ := run_keeps run others
  cases tracker with
  | some t => cases untracked
  | none =>
    have frame := congrArg Prod.snd (Option.some.inj handled)
    let uuid := Json.lookup "camera_uuid" (ClientMessage.fields d.cameraUuid (.frame k ts w h stride bytes))
    let idle : ServeState Adapter := { polyPxCache := cache, tracker := none, cam := uuid.getD cam }
    obtain ⟨reply', effects, -, nothing, -⟩ := @handleFrame_untracked Adapter (adapterEnv pointPolygonTest)
      (d.server.behaviour n earlier.length) idle rfl rfl ⟨w, h, stride, Python.toInt (toDouble k)⟩ bytes
    have same := Effects.mk.inj (effects.symm.trans frame)
    rw [← List.singleton_inj.mp same.1]
    exact nothing

/-! ## Objects -/

theorem corners_look {o : ObjectMetadata U} {box : Tracker.Box} (look : o.look = lookOf box) :
    o.boundingBox.corners = box.xyxy ∧ Int32.ofInt o.clsId = box.cls.getD 0 := by
  obtain ⟨clsId, uuid, rect⟩ := o
  obtain ⟨cls, rect'⟩ := Prod.mk.inj look
  simp only at cls rect'
  rw [rect', cls, Int32.ofInt_toInt]
  exact ⟨by simp [Rect.corners], rfl⟩

/-- What the last config lets through is wanted by its settings. -/
theorem wanted_of_permitted {pointPolygonTest : List (ℤ × ℤ) → ℚ × ℚ → Bool} {cameraUuid : String}
    {earlier : List ClientMessage} {camera : CameraSettings} {engine : EngineSettings}
    (last : lastConfig earlier = some (configExtra camera engine)) {frame : VideoFrame} {id : ℤ} {box : Tracker.Box}
    (permitted : Permitted (adapterEnv pointPolygonTest) (earlier.map (incoming cameraUuid))
      ⟨frame.width.toInt, frame.height.toInt, frame.lineSize.toInt, id⟩ box)
    {o : ObjectMetadata U} (look : o.look = lookOf box) : Wanted pointPolygonTest camera frame o := by
  obtain ⟨corners, cls⟩ := corners_look look
  obtain ⟨classes, roi, inclusive, exclusive⟩ := @lookup_optional cameraUuid camera engine
  have key := @configured_settings cameraUuid earlier camera engine last
  have masks := permitted.masks
  rw [pixelPolygon, pixelPolygon, key, key, inclusive, exclusive, passesMasks, Bool.and_eq_true, Option.all_eq_true,
    Option.all_eq_true] at masks
  have centre : o.boundingBox.centre frame = Worker.centre frame.width.toInt frame.height.toInt box := by
    rw [Rect.centre, corners, Worker.centre]
  refine ⟨corners ▸ permitted.normalized, ?_, ?_, ?_, fun set => ?_⟩
  · have within := permitted.in_roi
    rw [visibleRect, key, roi] at within
    exact corners ▸ within
  · intro poly mem
    rw [centre]
    exact masks.1 poly mem
  · intro poly mem
    have outside := masks.2 poly mem
    rw [Bool.not_eq_true'] at outside
    rw [centre]
    exact outside
  · have some_id := permitted.some_class
    have passes := permitted.cls
    rw [key, classFilter_configFields, if_pos set] at some_id passes
    obtain ⟨cls', is_cls, named⟩ := BoxPasses.named (fun empty => some_id (congrArg some empty)) passes
    rw [cls, is_cls]
    exact named

theorem mem_paired {α β : Type} {R : α → β → Prop} {xs : List α} {ys : List β} (pairs : List.Forall₂ R xs ys) {y : β}
    (mem : y ∈ ys) : ∃ x ∈ xs, R x y := by
  induction pairs with
  | nil => cases mem
  | cons related _ ih =>
    cases mem with
    | head => exact ⟨_, List.mem_cons_self, related⟩
    | tail _ behind =>
      obtain ⟨x, x_mem, related'⟩ := ih behind
      exact ⟨x, List.mem_cons_of_mem _ x_mem, related'⟩

theorem config_mem_of_last {msgs : List ClientMessage} {extra : List (String × Json)} (last : lastConfig msgs = some extra) :
    .config extra ∈ msgs := by
  obtain ⟨m, mem, is_config⟩ := List.mem_filterMap.mp (List.mem_of_getLast? last)
  cases m with
  | config extra' =>
    obtain rfl := Option.some.inj is_config
    exact mem
  | attach | detach | frame => cases is_config

/-- Whatever becomes of the connections, the objects of a packet are those of the reply to one of the frames,
    behind a config of settings that the agent was given, which permits the boxes of the reply. -/
theorem packets_permitted (d : Deployment Adapter) (pointPolygonTest : List (ℤ × ℤ) → ℚ × ℚ → Bool) (cv2 : Cv2)
    (models : RunsModels d.server pointPolygonTest cv2) (random : ℕ → U) (engine : EngineSettings) (clock : ℕ)
    (script : List (ℕ × Outcome)) (attaches : d.WellFormed .attach) {calls : List Call} {a : DeviceAgent U}
    (run : Run (Guarded (SendsWell d) (Calls d.context random))
      (DeviceAgent.create d.context engine { clock, script }) calls a) :
    ∀ packet ∈ a.packets, ∃ frame ∈ calls.filterMap Call.frame?, packet.timestampUs = frame.timestampUs.toInt ∧
      ∃ (k : ℤ) (n : ℕ) (bytes : List UInt8) (earlier : List ClientMessage) (r : Reply), frame.data = some bytes ∧
        earlier ++ [.frame k frame.timestampUs.toInt frame.width.toInt frame.height.toInt frame.lineSize.toInt bytes] <+: a.world.on n ∧
        Answers d.dump d.cameraUuid d.server n earlier
          (.frame k frame.timestampUs.toInt frame.width.toInt frame.height.toInt frame.lineSize.toInt bytes) r ∧
        (d.parse (d.server.dumps r.json) = some r.json →
          ∃ camera engine, lastConfig earlier = some (configExtra camera engine) ∧ Given calls camera ∧
            ∀ o ∈ packet.items, ∃ box ∈ r.boxes, o.look = lookOf box ∧
              Permitted (adapterEnv pointPolygonTest) (earlier.map (incoming d.cameraUuid))
                ⟨frame.width.toInt, frame.height.toInt, frame.lineSize.toInt, Python.toInt (toDouble k)⟩ box) := by
  have created : Shows d [] (DeviceAgent.create d.context engine { clock, script } : DeviceAgent U) :=
    shows_create engine clock script attaches
  obtain ⟨shown, some_frames, pairs⟩ := (shows_run created run).packets
  have sends := sendsGiven_run (sendsGiven_create d.context engine clock script) run.of_guarded
  rw [List.nil_append] at some_frames sends
  intro packet mem
  obtain ⟨⟨frame, k⟩, e_mem, shows_reply⟩ := mem_paired pairs mem
  have frame_mem : frame ∈ calls.filterMap Call.frame? := by
    have inside := List.mem_map_of_mem (f := Prod.fst) (some_frames.subset e_mem)
    rwa [List.zipIdx_map_fst] at inside
  obtain ⟨bytes, n, earlier, r, data, written, answers, items⟩ := shows_reply.reply
  refine ⟨frame, frame_mem, shows_reply.timestamp, k, n, bytes, earlier, r, data, written, answers, fun reads_back => ?_⟩
  obtain ⟨filled, looks⟩ := items reads_back
  obtain ⟨unconfigured, permitted⟩ := answers_permitted models shows_reply.wide answers
  cases last : lastConfig earlier with
  | none =>
    rw [unconfigured last] at looks
    exact absurd (List.map_eq_nil_iff.mp looks) filled
  | some extra =>
    have on_connection := written.subset (List.mem_append_left _ (config_mem_of_last last))
    obtain ⟨e, e_mem, is_config⟩ := List.mem_map.mp on_connection
    obtain ⟨camera, engine', rfl, given⟩ := sends.configs e (List.mem_filter.mp e_mem).1 extra is_config
    refine ⟨camera, engine', rfl, given, fun o o_mem => ?_⟩
    have look : o.look ∈ r.boxes.map lookOf := looks ▸ List.mem_map_of_mem o_mem
    obtain ⟨box, box_mem, same⟩ := List.mem_map.mp look
    exact ⟨box, box_mem, same.symm, permitted box box_mem⟩

/-- Whatever becomes of the connections, the objects of a packet are those of the reply to one of
    the frames, and they meet the settings of the last config that the worker had got on its connection, which
    the agent was given. -/
theorem shown_objects_wanted (d : Deployment Adapter) (pointPolygonTest : List (ℤ × ℤ) → ℚ × ℚ → Bool) (cv2 : Cv2)
    (models : RunsModels d.server pointPolygonTest cv2) (random : ℕ → U) (engine : EngineSettings) (clock : ℕ)
    (script : List (ℕ × Outcome)) (attaches : d.WellFormed .attach) {calls : List Call} {a : DeviceAgent U}
    (run : Run (Guarded (SendsWell d) (Calls d.context random))
      (DeviceAgent.create d.context engine { clock, script }) calls a) :
    ∀ packet ∈ a.packets, ∃ frame ∈ calls.filterMap Call.frame?, packet.timestampUs = frame.timestampUs.toInt ∧
      ∃ (k : ℤ) (n : ℕ) (bytes : List UInt8) (earlier : List ClientMessage) (r : Reply), frame.data = some bytes ∧
        earlier ++ [.frame k frame.timestampUs.toInt frame.width.toInt frame.height.toInt frame.lineSize.toInt bytes] <+: a.world.on n ∧
        Answers d.dump d.cameraUuid d.server n earlier
          (.frame k frame.timestampUs.toInt frame.width.toInt frame.height.toInt frame.lineSize.toInt bytes) r ∧
        -- if the client's JSON library reads the reply as it was written
        (d.parse (d.server.dumps r.json) = some r.json →
          ∃ camera engine, lastConfig earlier = some (configExtra camera engine) ∧ Given calls camera ∧
            ∀ o ∈ packet.items, Wanted pointPolygonTest camera frame o) := by
  intro packet mem
  obtain ⟨frame, frame_mem, timestamp, k, n, bytes, earlier, r, data, written, answers, permitted⟩ :=
    packets_permitted d pointPolygonTest cv2 models random engine clock script attaches run packet mem
  refine ⟨frame, frame_mem, timestamp, k, n, bytes, earlier, r, data, written, answers, fun reads_back => ?_⟩
  obtain ⟨camera, engine', last, given, boxes⟩ := permitted reads_back
  refine ⟨camera, engine', last, given, fun o o_mem => ?_⟩
  obtain ⟨box, -, look, permits⟩ := boxes o o_mem
  exact wanted_of_permitted last permits look

/-! ## An example -/

/-- Cars in the right half of the picture. -/
def streetSettings : CameraSettings where
  modelPath := "street.onnx"
  classes := ["Car"]
  classesSet := true
  roi := [(.finite (1 / 2), .finite 0), (.finite 1, .finite 0), (.finite 1, .finite 1), (.finite (1 / 2), .finite 1)]

def streetFrame : VideoFrame where
  width := 16
  height := 8
  lineSize := 48
  dataSize := 384
  timestampUs := 5
  data := some (List.replicate 384 90)
  readable := by
    rintro _ ⟨⟩
    exact List.length_replicate.trans (by decide)

def streetMessages : List ClientMessage :=
  [.attach, .config (configExtra streetSettings carEngine), .frame 1 5 16 8 48 (List.replicate 384 90)]

/-- What the worker answers to these messages. -/
def streetReplies : List Reply :=
  (Worker.run smallEnv {} (streetMessages.map fun m => (incoming "cam" m, carBehaviour))).2.flatMap (·.replies)

def streetDeployment : Deployment Adapter where
  dump := dumpText
  parse bytes := (streetReplies.map Reply.json).find? fun j => dumpText j == bytes
  socketPath := []
  cameraUuid := "cam"
  server := {
    loads := fun bytes => (streetMessages.find? fun m => m.text dumpText "cam" == bytes).map
      fun m => .obj (m.fields "cam")
    dumps := dumpText
    env := smallEnv
    behaviour := fun _ _ => carBehaviour }

def streetStart : DeviceAgent ℕ :=
  DeviceAgent.create streetDeployment.context carEngine { clock := 0, script := List.replicate 20 (1, .done 9999) }

def afterStreet : DeviceAgent ℕ :=
  pushUncompressedVideoFrame streetDeployment.context id streetFrame
    (settingsReceived streetDeployment.context streetSettings streetStart)

theorem streetDeployment_wellFormed {m : ClientMessage} (mem : m ∈ streetMessages) : streetDeployment.WellFormed m := by
  refine wellFormed_of_lookup (d := streetDeployment) ?_ (fun _ => rfl) ?_ ?_ mem
  · show (streetMessages.map fun m => m.text dumpText "cam").Nodup
    decide +kernel
  · show ∀ text ∈ streetMessages.map fun m => m.text dumpText "cam", 1 ≤ text.length
    decide +kernel
  · intro frameId tsUs w h stride body is_frame
    simp only [streetMessages, List.mem_cons, reduceCtorEq, ClientMessage.frame.injEq, List.not_mem_nil, or_false,
      false_or] at is_frame
    obtain ⟨-, -, -, rfl, rfl, rfl⟩ := is_frame
    rw [List.length_replicate]
    rfl

theorem run_street : Run (Guarded (SendsWell streetDeployment) (Calls streetDeployment.context id)) streetStart
    [.settingsReceived streetSettings, .pushUncompressedVideoFrame streetFrame] afterStreet := by
  refine .cons ⟨fun m sent => ?_, rfl⟩ (.cons ⟨fun m sent => ?_, rfl⟩ (.nil _))
  · obtain rfl := Option.some.inj sent
    exact streetDeployment_wellFormed (.tail _ (.head _))
  · obtain rfl := Option.some.inj sent
    exact streetDeployment_wellFormed (.tail _ (.tail _ (.head _)))

theorem street_models : RunsModels streetDeployment.server (fun _ _ => true) carCv2 :=
  ⟨rfl, fun _ _ => ⟨carRuntimes, 0, carRuntimes_keepsArguments, rfl⟩⟩

/-- The car that is found in the right half of the frame is pushed, as the settings ask for it. -/
theorem shown_objects_wanted_street : ∃ packet : ObjectMetadataPacket ℕ, afterStreet.packets = [packet] ∧
    ∃ (k : ℤ) (n : ℕ) (earlier : List ClientMessage) (r : Reply),
      Answers dumpText "cam" streetDeployment.server n earlier (.frame k 5 16 8 48 (List.replicate 384 90)) r ∧
      (streetDeployment.parse (dumpText r.json) = some r.json → ∃ camera engine,
        lastConfig earlier = some (configExtra camera engine) ∧ ∀ o ∈ packet.items, Wanted (fun _ _ => true) camera streetFrame o) := by
  have one : afterStreet.packets.length = 1 := by decide +kernel
  obtain ⟨packet, is⟩ := List.length_eq_one_iff.mp one
  obtain ⟨frame, frame_mem, -, k, n, bytes, earlier, r, data, written, answers, wanted⟩ :=
    shown_objects_wanted streetDeployment (fun _ _ => true) carCv2 street_models id carEngine 0 _
      (streetDeployment_wellFormed (.head _)) run_street packet (by rw [is]; exact List.mem_cons_self)
  obtain rfl : frame = streetFrame := List.mem_singleton.mp frame_mem
  obtain rfl : List.replicate 384 90 = bytes := Option.some.inj data
  refine ⟨packet, is, k, n, earlier, r, answers, fun reads_back => ?_⟩
  obtain ⟨camera, engine, last, -, all⟩ := wanted reads_back
  exact ⟨camera, engine, last, all⟩

end VisionNx.Agent
