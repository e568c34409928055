import VisionNx.Agent.TrackIdentity

/-! # Packets are the replies to their frames

The agent pushes a packet for some of the frames it is given, in their order.  A packet
has the time of its frame and shows the boxes that the worker has found in this very
frame, whatever became of the connections in between. -/

namespace VisionNx.Agent

open BinaryFloats Client TransitionRuns Worker

variable {A U : Type} {d : Deployment A} {random : ℕ → U}

/-! ## The message of a call -/

def Call.frame? : Call → Option VideoFrame
  | .pushUncompressedVideoFrame frame => some frame
  | _ => none

/-- The message that a call hands to the client, if any. -/
def DeviceAgent.messageOf (a : DeviceAgent U) : Call → Option ClientMessage
  | .settingsReceived parsed => some (.config (configExtra parsed a.engine))
  | .engineSettingsReceived newRuntime newDevice newWorkerCount =>
    let (engine, changed) := a.engine.receive newRuntime newDevice newWorkerCount
    if changed then some (.config (configExtra a.camera engine)) else none
  | .onEngineConfigChanged => some (.config a.extra)
  | .pushUncompressedVideoFrame frame => DeviceAgent.frameMessage { a with frameCount := a.frameCount + 1 } frame

/-- The calls whose messages the worker can parse. -/
def SendsWell (d : Deployment A) (a : DeviceAgent U) (call : Call) : Prop :=
  ∀ m, a.messageOf call = some m → d.WellFormed m

theorem call_world (ctx : Context) (random : ℕ → U) (a : DeviceAgent U) (call : Call) :
    (a.call ctx random call).world =
      match a.messageOf call with
      | none => a.world
      | some m => (perform ctx m a.world).2 := by
  cases call with
  | settingsReceived parsed => rfl
  | onEngineConfigChanged => rfl
  | engineSettingsReceived newRuntime newDevice newWorkerCount =>
    simp only [DeviceAgent.call, engineSettingsReceived, DeviceAgent.messageOf]
    split
    · rfl
    · rfl
  | pushUncompressedVideoFrame frame =>
    simp only [DeviceAgent.call, pushUncompressedVideoFrame, DeviceAgent.messageOf]
    cases DeviceAgent.frameMessage { a with frameCount := a.frameCount + 1 } frame with
    | none => rfl
    | some m => exact pushMetadata_world _ _ _

theorem call_frameCount (ctx : Context) (random : ℕ → U) (a : DeviceAgent U) (call : Call) :
    (a.call ctx random call).frameCount = a.frameCount + call.frame?.toList.length := by
  cases call with
  | settingsReceived parsed => exact (Int.add_zero _).symm
  | onEngineConfigChanged => exact (Int.add_zero _).symm
  | engineSettingsReceived newRuntime newDevice newWorkerCount =>
    simp only [DeviceAgent.call, engineSettingsReceived]
    split
    · exact (Int.add_zero _).symm
    · exact (Int.add_zero _).symm
  | pushUncompressedVideoFrame frame =>
    simp only [DeviceAgent.call, pushUncompressedVideoFrame]
    cases DeviceAgent.frameMessage { a with frameCount := a.frameCount + 1 } frame with
    | none => rfl
    | some m =>
      simp only [pushMetadata]
      split
      · split
        · rfl
        · rfl
      · rfl

/-! ## What a packet shows -/

/-- The class and the rectangle of an object. -/
def ObjectMetadata.look (o : ObjectMetadata U) : ℤ × Rect := (o.clsId, o.boundingBox)

/-- The class and the rectangle that a box of the worker is shown with. -/
def lookOf (box : Tracker.Box) : ℤ × Rect :=
  ((box.cls.getD 0).toInt, ⟨box.xyxy.x1, box.xyxy.y1, box.xyxy.x2 - box.xyxy.x1, box.xyxy.y2 - box.xyxy.y1⟩)

theorem boxClsId_json (box : Tracker.Box) : boxClsId box.json = (box.cls.getD 0).toInt := by
  have get_cls : box.json.get "cls" = (box.cls.map fun cls => Json.num cls.toInt).getD .null := by
    cases is_cls : box.cls <;> cases tid : box.trackId <;>
      simp [Tracker.Box.json, Json.get, Json.lookup, is_cls, tid]
  cases is_cls : box.cls with
  | none => simp [boxClsId, get_cls, is_cls]
  | some cls =>
    have whole : Python.toInt (cls.toInt : ℚ) = cls.toInt := Python.toInt_intCast _
    have low := cls.le_toInt
    have high := cls.toInt_lt
    simp only [boxClsId, get_cls, is_cls, Option.map_some, Option.getD_some, castInt, whole]
    exact if_pos ⟨low, high⟩

/-- The loop over the boxes of a reply shows every one of them. -/
theorem emitBoxes_look (boxes : List Tracker.Box) (c : TrackUuids U) :
    ((emitBoxes random (boxes.map Tracker.Box.json) c).1.map fun object => object.1.look) = boxes.map lookOf := by
  induction boxes generalizing c with
  | nil => rfl
  | cons box boxes ih =>
    have get_xyxy : box.json.get "xyxy" = box.xyxy.json := rfl
    have first : ∃ o tid c', emitBox random box.json c = (some (o, tid), c') ∧ o.look = lookOf box := by
      simp only [emitBox, get_xyxy, Xyxy.json]
      exact ⟨_, _, _, rfl, by rw [ObjectMetadata.look, boxClsId_json]; rfl⟩
    obtain ⟨o, tid, c', emitted, look⟩ := first
    simp only [List.map_cons, emitBoxes, emitted, Option.toList_some, List.singleton_append, look, ih]

/-- What `packet` shows is the reply to frame number `k` of the agent, behind all that had been written
    on its connection. -/
structure ShowsReply (d : Deployment A) (w : World) (frame : VideoFrame) (k : ℕ) (packet : ObjectMetadataPacket U) :
    Prop where
  timestamp : packet.timestampUs = frame.timestampUs.toInt
  wide : 0 < frame.width.toInt
  reply : ∃ bytes n earlier r, frame.data = some bytes ∧
    earlier ++ [.frame k frame.timestampUs.toInt frame.width.toInt frame.height.toInt frame.lineSize.toInt bytes] <+: w.on n ∧
    Answers d.dump d.cameraUuid d.server n earlier
      (.frame k frame.timestampUs.toInt frame.width.toInt frame.height.toInt frame.lineSize.toInt bytes) r ∧
    -- if the client's JSON library reads the reply as it was written
    (d.parse (d.server.dumps r.json) = some r.json →
      packet.items ≠ [] ∧ packet.items.map ObjectMetadata.look = r.boxes.map lookOf)

/-! ## One call -/

theorem on_mono {w w' : World} (log : w.log <+: w'.log) (n : ℕ) : w.on n <+: w'.on n := by
  obtain ⟨more, log⟩ := log
  rw [World.on, World.on, ← log, List.filter_append, List.map_append]
  exact List.prefix_append _ _

theorem ShowsReply.later {w w' : World} {frame : VideoFrame} {k : ℕ} {packet : ObjectMetadataPacket U}
    (shows_reply : ShowsReply d w frame k packet) (log : w.log <+: w'.log) : ShowsReply d w' frame k packet := by
  obtain ⟨bytes, n, earlier, r, data, written, answers, items⟩ := shows_reply.reply
  exact ⟨shows_reply.timestamp, shows_reply.wide, bytes, n, earlier, r, data, written.trans (on_mono log n), answers, items⟩

/-- A call that returns a value has written its message. -/
theorem perform_on {ctx : Context} {w w' : World} {m : ClientMessage} {j : Json} (settled : w.Settled)
    (result : perform ctx m w = (some j, w')) : ∃ s n, w'.Open s n ∧ w'.on n = w.on n ++ [m] := by
  generalize is : some j = r at result
  cases perform_cases settled result with
  | unsent | long | lost | sent => cases is
  | answered connects delivered _ _ _ _ _ is_open =>
    exact ⟨_, _, is_open, delivered.on.trans (by rw [on_congr connects.log])⟩

theorem perform_log_prefix {ctx : Context} {w w' : World} {m : ClientMessage} {r : Option Json} (settled : w.Settled)
    (result : perform ctx m w = (r, w')) : w.log <+: w'.log := by
  obtain same | ⟨n, more⟩ := perform_log settled result
  · rw [same]
  · rw [more]
    exact List.prefix_append _ _

/-- The packets of the agent show replies to the frames it has been given, some of them and in order. -/
structure Shows (d : Deployment A) (frames : List VideoFrame) (a : DeviceAgent U) : Prop where
  tidy : d.Tidy a.world
  frameCount : a.frameCount = frames.length
  packets : ∃ shown : List (VideoFrame × ℕ), shown.Sublist (frames.zipIdx 1) ∧
    List.Forall₂ (fun e packet => ShowsReply d a.world e.1 e.2 packet) shown a.packets

/-- A frame call pushes nothing, or what the loop makes of the boxes in the reply to its frame. -/
theorem push_packets (ctx : Context) (random : ℕ → U) (a : DeviceAgent U) (frame : VideoFrame) :
    (pushUncompressedVideoFrame ctx random frame a).packets = a.packets ∨
    ∃ bytes j boxes, frame.data = some bytes ∧ 0 < frame.width.toInt ∧
      (perform ctx (.frame (a.frameCount + 1) frame.timestampUs.toInt frame.width.toInt frame.height.toInt frame.lineSize.toInt bytes)
        a.world).1 = some j ∧
      j.get "boxes" = .arr boxes ∧ (emitBoxes random boxes a.trackUuids).1 ≠ [] ∧
      (pushUncompressedVideoFrame ctx random frame a).packets =
        a.packets ++ [⟨frame.timestampUs.toInt, (emitBoxes random boxes a.trackUuids).1.map Prod.fst⟩] := by
  simp only [pushUncompressedVideoFrame]
  cases is : DeviceAgent.frameMessage { a with frameCount := a.frameCount + 1 } frame with
  | none => exact .inl rfl
  | some m =>
    obtain ⟨bytes, data, rfl, -, -, wide, -⟩ := passed_of_sent is
    simp only [pushMetadata]
    split
    next boxes reply =>
      obtain ⟨j, replied, has_boxes⟩ := Option.map_eq_some_iff.mp reply
      split
      next => exact .inl rfl
      next filled =>
        rw [List.isEmpty_iff] at filled
        exact .inr ⟨bytes, j, boxes, data, wide, replied, has_boxes, filled, rfl⟩
    next => exact .inl rfl

theorem call_tidy {a : DeviceAgent U} {call : Call} (tidy : d.Tidy a.world) (well : SendsWell d a call) :
    d.Tidy (a.call d.context random call).world ∧ a.world.log <+: (a.call d.context random call).world.log := by
  rw [call_world]
  cases sent : a.messageOf call with
  | none => exact ⟨tidy, List.prefix_rfl⟩
  | some m =>
    have performed := (Prod.eta (perform d.context m a.world)).symm
    exact ⟨(tidy_perform tidy (well m sent) performed).1, perform_log_prefix tidy.sound.settled performed⟩

/-- What a frame call pushes shows the reply to its frame. -/
theorem push_shows {a : DeviceAgent U} {frame : VideoFrame} {k : ℕ} (tidy : d.Tidy a.world)
    (well : SendsWell d a (.pushUncompressedVideoFrame frame)) (number : a.frameCount + 1 = k) :
    (pushUncompressedVideoFrame d.context random frame a).packets = a.packets ∨
    ∃ packet, (pushUncompressedVideoFrame d.context random frame a).packets = a.packets ++ [packet] ∧
      ShowsReply d (pushUncompressedVideoFrame d.context random frame a).world frame k packet := by
  obtain same | ⟨bytes, j, boxes, data, wide, replied, has_boxes, filled, pushed⟩ :=
    push_packets d.context random a frame
  · exact .inl same
  refine .inr ⟨_, pushed, rfl, wide, ?_⟩
  rw [number] at replied
  -- A call that returns a value has sent the frame.
  have sent : a.messageOf (.pushUncompressedVideoFrame frame) =
      some (.frame k frame.timestampUs.toInt frame.width.toInt frame.height.toInt frame.lineSize.toInt bytes) := by
    cases is : a.messageOf (.pushUncompressedVideoFrame frame) with
    | none =>
      have quiet : (pushUncompressedVideoFrame d.context random frame a).packets = a.packets := by
        have none_sent : DeviceAgent.frameMessage { a with frameCount := a.frameCount + 1 } frame = none := is
        simp only [pushUncompressedVideoFrame, none_sent]
      rw [quiet] at pushed
      simp at pushed
    | some m =>
      obtain ⟨bytes', data', rfl, -⟩ := passed_of_sent is
      obtain rfl : bytes = bytes' := Option.some.inj (data.symm.trans data')
      rw [← number]
  have world : (pushUncompressedVideoFrame d.context random frame a).world = _ :=
    (call_world d.context random a (.pushUncompressedVideoFrame frame)).trans (by rw [sent])
  obtain ⟨-, answered⟩ := tidy_perform tidy (well _ sent) (Prod.ext replied rfl)
  obtain ⟨s, n, r, is_open, -, answers, parsed⟩ := answered j rfl
  obtain ⟨s', n', is_open', on⟩ := perform_on tidy.sound.settled (Prod.ext replied rfl)
  obtain ⟨rfl, rfl⟩ := is_open.unique is_open'
  refine ⟨bytes, n', a.world.on n', r, data, ?_, answers, fun reads_back => ⟨?_, ?_⟩⟩
  · rw [world, ← on]
  · simpa using filled
  · obtain rfl : r.json = j := Option.some.inj (reads_back.symm.trans parsed)
    obtain rfl : r.boxes.map Tracker.Box.json = boxes := Json.arr.inj has_boxes
    rw [List.map_map]
    exact emitBoxes_look r.boxes a.trackUuids

/-- Any other call pushes nothing. -/
theorem call_packets {a : DeviceAgent U} {call : Call} (no_frame : call.frame? = none) (ctx : Context) :
    (a.call ctx random call).packets = a.packets := by
  cases call with
  | settingsReceived parsed => rfl
  | onEngineConfigChanged => rfl
  | engineSettingsReceived newRuntime newDevice newWorkerCount =>
    simp only [DeviceAgent.call, engineSettingsReceived]
    split
    · rfl
    · rfl
  | pushUncompressedVideoFrame frame => cases no_frame

theorem shows_step {frames : List VideoFrame} {a a' : DeviceAgent U} {call : Call} (shows_all : Shows d frames a)
    (step : Guarded (SendsWell d) (Calls d.context random) a call a') :
    Shows d (frames ++ call.frame?.toList) a' := by
  obtain ⟨well, rfl⟩ := step
  obtain ⟨tidy, log⟩ := @call_tidy A U d random a call shows_all.tidy well
  obtain ⟨shown, some_frames, pairs⟩ := shows_all.packets
  have later := pairs.imp fun e packet shows_reply => ShowsReply.later shows_reply log
  have more := some_frames.trans (List.sublist_append_left _ (call.frame?.toList.zipIdx (1 + frames.length)))
  rw [← List.zipIdx_append] at more
  refine ⟨tidy, by simp [call_frameCount, shows_all.frameCount], ?_⟩
  cases is : call.frame? with
  | none => exact ⟨shown, is ▸ more, (@call_packets U random a call is d.context).symm ▸ later⟩
  | some frame =>
    cases call with
    | settingsReceived | onEngineConfigChanged | engineSettingsReceived => cases is
    | pushUncompressedVideoFrame frame' =>
      obtain rfl := Option.some.inj is
      have number : a.frameCount + 1 = ((frames.length + 1 : ℕ) : ℤ) := by
        rw [shows_all.frameCount, Int.natCast_succ]
      obtain same | ⟨packet, pushed, shows_reply⟩ := push_shows shows_all.tidy well number
      · exact ⟨shown, more, same.symm ▸ later⟩
      · refine ⟨shown ++ [(frame', frames.length + 1)], ?_, ?_⟩
        · rw [List.zipIdx_append, Nat.add_comm 1]
          exact some_frames.append (List.Sublist.refl _)
        · exact pushed.symm ▸ List.rel_append later (.cons shows_reply .nil)

theorem shows_run {frames : List VideoFrame} {a a' : DeviceAgent U} {calls : List Call} (shows_all : Shows d frames a)
    (run : Run (Guarded (SendsWell d) (Calls d.context random)) a calls a') :
    Shows d (frames ++ calls.filterMap Call.frame?) a' := by
  induction run generalizing frames with
  | nil => simpa using shows_all
  | @cons a call a' calls a'' step _ ih =>
    have rest := ih (shows_step shows_all step)
    have split : (call :: calls).filterMap Call.frame? = call.frame?.toList ++ calls.filterMap Call.frame? := by
      cases is : call.frame? <;> simp [is]
    rwa [split, ← List.append_assoc]

theorem shows_create (engine : EngineSettings) (clock : ℕ) (script : List (ℕ × Outcome))
    (attaches : d.WellFormed .attach) : Shows d [] (DeviceAgent.create d.context engine { clock, script } : DeviceAgent U) :=
  ⟨(tidy_perform (tidy_start clock script) attaches rfl).1, rfl, [], List.Sublist.refl _, .nil⟩

/-- The packets that the agent has pushed show the replies to frames it was given, some of them
    and in order: each has the time of its frame, and the boxes that the worker has found in
    that very frame, behind what had been written on the connection before. -/
theorem packets_show_replies (d : Deployment A) (random : ℕ → U) (engine : EngineSettings) (clock : ℕ)
    (script : List (ℕ × Outcome)) (attaches : d.WellFormed .attach) {calls : List Call} {a : DeviceAgent U}
    (run : Run (Guarded (SendsWell d) (Calls d.context random))
      (DeviceAgent.create d.context engine { clock, script }) calls a) :
    ∃ shown : List (VideoFrame × ℕ), shown.Sublist ((calls.filterMap Call.frame?).zipIdx 1) ∧
      List.Forall₂ (fun e packet => ShowsReply d a.world e.1 e.2 packet) shown a.packets :=
  (shows_run (shows_create engine clock script attaches) run).packets

/-! ## The example -/

theorem find_same {α β : Type} [BEq β] [LawfulBEq β] {f : α → β} {l : List α} {x : α} (distinct : (l.map f).Nodup)
    (mem : x ∈ l) : l.find? (fun y => f y == f x) = some x := by
  induction l with
  | nil => cases mem
  | cons y l ih =>
    rw [List.map_cons, List.nodup_cons] at distinct
    cases mem with
    | head => simp
    | tail _ behind =>
      have other : f y ≠ f x := fun same => distinct.1 (same ▸ List.mem_map_of_mem behind)
      rw [List.find?_cons_of_neg (by simpa using other)]
      exact ih distinct.2 behind

/-- Messages with different texts are parsed back by looking them up. -/
theorem wellFormed_of_lookup {msgs : List ClientMessage}
    (distinct : (msgs.map fun m => m.text d.dump d.cameraUuid).Nodup)
    (loads : ∀ bytes, d.server.loads bytes = (msgs.find? fun m => m.text d.dump d.cameraUuid == bytes).map
      fun m => .obj (m.fields d.cameraUuid))
    (nonempty : ∀ text ∈ msgs.map fun m => m.text d.dump d.cameraUuid, 1 ≤ text.length)
    (sized : ∀ frameId tsUs w h stride body, .frame frameId tsUs w h stride body ∈ msgs → (body.length : ℤ) = h * stride)
    {m : ClientMessage} (mem : m ∈ msgs) : d.WellFormed m := by
  refine ⟨nonempty _ (List.mem_map_of_mem mem), ?_, ?_⟩
  · rw [loads, find_same distinct mem]
    rfl
  · intro frameId tsUs w h stride body is_frame
    exact sized frameId tsUs w h stride body (is_frame ▸ mem)

theorem carDeployment_wellFormed {m : ClientMessage} (mem : m ∈ carMessages) : carDeployment.WellFormed m := by
  refine wellFormed_of_lookup (d := carDeployment) ?_ (fun _ => rfl) ?_ ?_ mem
  · show (carMessages.map fun m => m.text dumpText "cam").Nodup
    decide +kernel
  · show ∀ text ∈ carMessages.map fun m => m.text dumpText "cam", 1 ≤ text.length
    decide +kernel
  · intro frameId tsUs w h stride body is_frame
    simp only [carMessages, List.cons_append, List.nil_append, List.map_cons, List.map_nil, List.mem_cons,
      reduceCtorEq, ClientMessage.frame.injEq, List.not_mem_nil, or_false, false_or] at is_frame
    obtain ⟨-, -, -, rfl, rfl, rfl⟩ | ⟨-, -, -, rfl, rfl, rfl⟩ | ⟨-, -, -, rfl, rfl, rfl⟩ := is_frame
    all_goals rfl

/-- The packet for the first frame. -/
theorem packets_show_replies_car : ∃ (shown : List (VideoFrame × ℕ)) (packet : ObjectMetadataPacket ℕ),
    shown.Sublist [(smallVideoFrame, 1)] ∧ (afterCalls (carCalls.take 2)).packets = [packet] ∧
    List.Forall₂ (fun e packet => ShowsReply carDeployment (afterCalls (carCalls.take 2)).world e.1 e.2 packet)
      shown [packet] := by
  have run : Run (Guarded (SendsWell carDeployment) (Calls carDeployment.context id)) carStart (carCalls.take 2)
      (afterCalls (carCalls.take 2)) := by
    refine .cons ⟨fun m sent => ?_, rfl⟩ (.cons ⟨fun m sent => ?_, rfl⟩ (.nil _))
    · obtain rfl := Option.some.inj sent
      exact carDeployment_wellFormed (.tail _ (.head _))
    · obtain rfl := Option.some.inj sent
      exact carDeployment_wellFormed (.tail _ (.tail _ (.head _)))
  have one : (afterCalls (carCalls.take 2)).packets.length = 1 := by decide +kernel
  obtain ⟨packet, is⟩ := List.length_eq_one_iff.mp one
  obtain ⟨shown, some_frames, pairs⟩ := packets_show_replies carDeployment id carEngine 0 restartScript
    (carDeployment_wellFormed (.head _)) run
  exact ⟨shown, packet, some_frames, is, is ▸ pairs⟩

end VisionNx.Agent
