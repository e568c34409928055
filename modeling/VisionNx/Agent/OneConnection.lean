import VisionNx.Agent.ObjectIdentity
import VisionNx.Agent.ShownObjects
import VisionNx.Client.Recovery
import VisionNx.Worker.TrackerRuns

/-! # One object, one UUID, from the camera to the screen

As long as the agent stays on one connection, what it pushes are the replies on it, all of them
and in order; only the reply to the last frame may be lost.  So what is true of the tracker
of a connection is true of the screen. -/

namespace VisionNx.Agent

open Client Tracker TransitionRuns Worker

variable {A U : Type} {d : Deployment A} {random : ℕ → U} {n : ℕ} {msgs : List ClientMessage} {m : ClientMessage}

/-! ## What the worker has replied -/

/-- The boxes of the replies on a connection. -/
def replied (d : Deployment A) (n : ℕ) (msgs : List ClientMessage) : List (List Box) :=
  ((d.server.effects n (d.wire msgs)).flatMap (·.replies)).map (·.boxes)

/-- The boxes that the tracker of a connection was updated with. -/
def found (d : Deployment A) (n : ℕ) (msgs : List ClientMessage) : List (List Box) :=
  (d.server.effects n (d.wire msgs)).flatMap (·.updates)

/-- One more message is handled behind the others, or nothing is handled any more. -/
theorem effects_concat (n : ℕ) (consistent : ∀ m' ∈ msgs ++ [m], Consistent d.dump d.server.loads d.cameraUuid m')
    (attached : ∀ m' ∈ msgs ++ [m], m' ≠ .detach) :
    d.server.effects n (d.wire (msgs ++ [m])) = d.server.effects n (d.wire msgs) ∨
      ∃ s₁ s₂ effects, handle d.server.env (d.server.behaviour n msgs.length) s₁ (incoming d.cameraUuid m) =
          some (s₂, effects) ∧
        (d.server.effects n (d.wire msgs)).length = msgs.length ∧
        d.server.effects n (d.wire (msgs ++ [m])) = d.server.effects n (d.wire msgs) ++ [effects] := by
  obtain same | ⟨before, after⟩ := Server.messages_concat consistent attached
  · left
    simp only [Server.effects]
    exact congrArg (fun messages => (Worker.run d.server.env {} (d.server.events n messages)).2) same
  have before' : d.server.effects n (d.wire msgs) =
      (Worker.run d.server.env {} (d.server.events n (msgs.map (incoming d.cameraUuid)))).2 :=
    congrArg (fun messages => (Worker.run d.server.env {} (d.server.events n messages)).2) before
  have after' : d.server.effects n (d.wire (msgs ++ [m])) =
      (Worker.run d.server.env {} (d.server.events n ((msgs ++ [m]).map (incoming d.cameraUuid)))).2 := by
    rw [List.map_append]
    exact congrArg (fun messages => (Worker.run d.server.env {} (d.server.events n messages)).2) after
  rw [before', after', events_concat]
  cases run_concat d.server.env {} (d.server.events n (msgs.map (incoming d.cameraUuid))) _ _ with
  | inl same => exact .inl same
  | inr more =>
    obtain ⟨s₁, s₂, effects, handled, all, more⟩ := more
    exact .inr ⟨s₁, s₂, effects, handled, all.trans (by simp [Server.events]), more⟩

/-- A frame adds a reply or none, any other message none. -/
theorem replied_concat (n : ℕ) (consistent : ∀ m' ∈ msgs ++ [m], Consistent d.dump d.server.loads d.cameraUuid m')
    (attached : ∀ m' ∈ msgs ++ [m], m' ≠ .detach) :
    replied d n (msgs ++ [m]) = replied d n msgs ∨
      (incoming d.cameraUuid m).frameId?.isSome = true ∧ ∃ out, replied d n (msgs ++ [m]) =
        replied d n msgs ++ [out] := by
  obtain same | ⟨s₁, s₂, effects, handled, -, more⟩ := effects_concat n consistent attached
  · exact .inl (by rw [replied, replied, same])
  · obtain ⟨silent, answered⟩ := handle_replies handled
    simp only [replied, more, List.flatMap_append, List.flatMap_singleton, List.map_append]
    cases is_frame : (incoming d.cameraUuid m).frameId? with
    | none =>
      left
      rw [silent is_frame, List.map_nil, List.append_nil]
    | some id =>
      obtain ⟨r, replies, -⟩ := answered id is_frame
      exact .inr ⟨rfl, r.boxes, by rw [replies, List.map_singleton]⟩

theorem replied_answers {r : Reply} (consistent : ∀ m' ∈ msgs ++ [m], Consistent d.dump d.server.loads d.cameraUuid m')
    (attached : ∀ m' ∈ msgs ++ [m], m' ≠ .detach) (answers : Answers d.dump d.cameraUuid d.server n msgs m r) :
    replied d n (msgs ++ [m]) = replied d n msgs ++ [r.boxes] := by
  obtain ⟨answer, replies, at_end⟩ := answers.replies
  have alive := (alive_of_handled consistent attached answers.read at_end).handled
  obtain same | ⟨-, -, effects, -, -, more⟩ := effects_concat n consistent attached
  · have inside := (List.getElem?_eq_some_iff.mp at_end).1
    have bound : (d.server.effects n (Worker.wire d.dump d.cameraUuid (msgs ++ [m]))).length = msgs.length :=
      (congrArg List.length same).trans alive
    omega
  · have is_answer : some effects = some answer := by
      rw [← at_end]
      show _ = (d.server.effects n (d.wire (msgs ++ [m])))[msgs.length]?
      rw [more, List.getElem?_append_right alive.le, alive, Nat.sub_self]
      rfl
    obtain rfl := Option.some.inj is_answer
    simp only [replied, more, List.flatMap_append, List.flatMap_singleton, List.map_append, replies, List.map_singleton]

/-- Only a text of an allowed length is written. -/
theorem fits_of_logged {ctx : Context} {w w' : World} {r : Option Json} (settled : w.Settled) (not_detach : m ≠ .detach)
    (result : perform ctx m w = (r, w')) (more : w'.log = w.log ++ [(n, m)]) :
    (m.text ctx.dump ctx.cameraUuid).length ≤ maxFrameBytes := by
  by_contra! long
  have unwritten (w : World) : writeFramed (m.text ctx.dump ctx.cameraUuid) w = (false, w) := by
    simp only [writeFramed, long, or_true, if_true]
  have same : (perform ctx m w).2.log = w.log := by
    rcases connected : ensureConnected ctx w with ⟨_ | _, w₁⟩
    · rw [perform_not_connected connected not_detach]
      obtain ⟨-, -, -, same⟩ | ⟨yes, -⟩ := ensureConnected_cases settled connected
      · exact same.log
      · cases yes
    · obtain ⟨s, n', connects⟩ := connects_of_connected settled connected
      cases m with
      | detach => exact absurd rfl not_detach
      | attach | config extra =>
        simp only [perform, sendAttach, sendConfig, sendJsonNoReply, connected, unwritten, logged]
        exact connects.log
      | frame =>
        simp only [perform, sendFrameAndRecv, connected, writeFrame, unwritten, logged]
        exact connects.log
  rw [result, more] at same
  simp at same

/-! ## What the agent has made of the replies -/

/-- The objects of a result, if it has boxes. -/
def emitted (random : ℕ → U) (result : Option Json) (c : TrackUuids U) :
    List (ObjectMetadata U × Option ℤ) × TrackUuids U :=
  match result.map (Json.get "boxes") with
  | some (.arr boxes) => emitBoxes random boxes c
  | _ => ([], c)

/-- What is pushed of the objects of some replies. -/
def pushed (objects : List (List (ObjectMetadata U × Option ℤ))) : List (List (ObjectMetadata U)) :=
  (objects.map (List.map Prod.fst)).filter fun items => !items.isEmpty

theorem emitted_boxes {result : Option Json} {boxes : List Json}
    (has_boxes : result.map (Json.get "boxes") = some (.arr boxes)) (c : TrackUuids U) :
    emitted random result c = emitBoxes random boxes c := by
  simp only [emitted, has_boxes]

theorem emitted_other {result : Option Json} (other : ∀ boxes, result.map (Json.get "boxes") ≠ some (.arr boxes))
    (c : TrackUuids U) : emitted random result c = ([], c) := by
  simp only [emitted]

theorem pushMetadata_emits (timestampUs : ℤ) (result : Option Json) (a : DeviceAgent U) :
    (pushMetadata random timestampUs result a).trackUuids = (emitted random result a.trackUuids).2 ∧
      (pushMetadata random timestampUs result a).packets.map (·.items) =
        a.packets.map (·.items) ++ pushed [(emitted random result a.trackUuids).1] := by
  simp only [pushMetadata]
  split
  next boxes has_boxes =>
    rw [emitted_boxes has_boxes]
    split
    next empty =>
      rw [List.isEmpty_iff] at empty
      simp [empty, pushed]
    next filled =>
      have kept : pushed [(emitBoxes random boxes a.trackUuids).1] =
          [(emitBoxes random boxes a.trackUuids).1.map Prod.fst] := by
        simpa [pushed] using filled
      exact ⟨rfl, by rw [kept, List.map_append, List.map_singleton]⟩
  next other =>
    rw [emitted_other other]
    exact ⟨rfl, by simp [pushed]⟩

/-- A call pushes what its message is answered with. -/
theorem call_emits (ctx : Context) (random : ℕ → U) (a : DeviceAgent U) (call : Call) :
    let result := (a.messageOf call).bind fun m => (perform ctx m a.world).1
    (a.call ctx random call).trackUuids = (emitted random result a.trackUuids).2 ∧
      (a.call ctx random call).packets.map (·.items) =
        a.packets.map (·.items) ++ pushed [(emitted random result a.trackUuids).1] := by
  have nothing : a.packets.map (·.items) = a.packets.map (·.items) ++
      pushed [(emitted random none a.trackUuids).1] := by
    simp [emitted, pushed]
  cases call with
  | settingsReceived parsed => exact ⟨rfl, nothing⟩
  | onEngineConfigChanged => exact ⟨rfl, nothing⟩
  | engineSettingsReceived newRuntime newDevice newWorkerCount =>
    simp only [DeviceAgent.call, engineSettingsReceived, DeviceAgent.messageOf]
    split
    · exact ⟨rfl, nothing⟩
    · exact ⟨rfl, nothing⟩
  | pushUncompressedVideoFrame frame =>
    simp only [DeviceAgent.call, pushUncompressedVideoFrame, DeviceAgent.messageOf]
    cases DeviceAgent.frameMessage { a with frameCount := a.frameCount + 1 } frame with
    | none => exact ⟨rfl, nothing⟩
    | some m => exact pushMetadata_emits _ _ _

/-- The agent has got these replies, and has shown what they say. -/
structure Emitted (random : ℕ → U) (a : DeviceAgent U) (outs : List (List Box)) : Prop where
  cache : (emitReplies random outs {}).2 = a.trackUuids
  packets : a.packets.map (·.items) = pushed (emitReplies random outs {}).1

variable {ctx : Context} {a : DeviceAgent U} {outs : List (List Box)} {call : Call}

theorem Emitted.silent (shown : Emitted random a outs)
    (nothing : ((a.messageOf call).bind fun m => (perform ctx m a.world).1) = none) :
    Emitted random (a.call ctx random call) outs := by
  obtain ⟨cache, packets⟩ := call_emits ctx random a call
  rw [nothing] at cache packets
  refine ⟨shown.cache.trans cache.symm, ?_⟩
  rw [packets, shown.packets]
  simp [emitted, pushed]

theorem Emitted.reply (shown : Emitted random a outs) {r : Reply}
    (replied : ((a.messageOf call).bind fun m => (perform ctx m a.world).1) = some r.json) :
    Emitted random (a.call ctx random call) (outs ++ [r.boxes]) := by
  obtain ⟨cache, packets⟩ := call_emits ctx random a call
  rw [replied] at cache packets
  have boxes : emitted random (some r.json) a.trackUuids = emitBoxes random (r.boxes.map Box.json) a.trackUuids := rfl
  rw [boxes] at cache packets
  constructor
  · rw [emitReplies_append, cache, shown.cache]
    rfl
  · rw [emitReplies_append, packets, shown.packets, shown.cache]
    simp [pushed, emitReplies]

/-! ## One call on the connection -/

section

variable {w w' w₁ : World} {s : Socket} {n' : ℕ} {r : Option Json}

/-- The reply to the last frame was lost with the connection. -/
structure LostLast (d : Deployment A) (n : ℕ) (w : World) (outs : List (List Box)) : Prop where
  gone : ∀ s, ¬ w.Open s n
  used : w.on n ≠ []
  last : ∃ out, replied d n (w.on n) = outs ++ [out]

theorem LostLast.elsewhere (lost : LostLast d n w outs) (sound : w.Sound) (connects : Connects ctx w w₁ s n') :
    n' ≠ n := by
  rintro rfl
  obtain ⟨is_open, -⟩ | ⟨-, accepts⟩ := connects.source
  · exact lost.gone s is_open
  · apply lost.used
    rw [accepts.number]
    exact sound.on_fresh

/-- A connection that is lost is not used again. -/
theorem LostLast.perform (lost : LostLast d n w outs) (sound : w.Sound) (result : perform ctx m w = (r, w'))
    (only : ∀ e ∈ w'.log, e.1 = n) : r = none ∧ LostLast d n w' outs := by
  have later (log : w'.log = w.log) (gone : ∀ s, ¬ w'.Open s n) : LostLast d n w' outs := by
    obtain ⟨-, used, last⟩ := lost
    rw [← on_congr log] at used last
    exact ⟨gone, used, last⟩
  cases perform_cases sound.settled result with
  | unsent closed log => exact ⟨rfl, later log fun s => closed.not_open⟩
  | long connects =>
    refine ⟨rfl, later connects.log fun s' is_open => ?_⟩
    exact lost.elsewhere sound connects (connects.is_open.unique is_open).2.symm
  | lost connects delivered | sent connects delivered | answered connects delivered =>
    have here := only _ (delivered.log ▸ List.mem_append_right _ List.mem_cons_self)
    exact absurd here (lost.elsewhere sound connects)

/-- A call on the connection returns nothing, and its reply, if there is one, is lost with the connection; or
    it returns the reply to its message. -/
theorem perform_replied (tidy : d.Tidy w) (well : d.WellFormed m) (not_detach : m ≠ .detach)
    (result : perform d.context m w = (r, w')) (only : ∀ e ∈ w'.log, e.1 = n)
    (reads_back : ∀ reply, w'.on n = w.on n ++ [m] → Answers d.dump d.cameraUuid d.server n (w.on n) m reply →
      d.parse (d.server.dumps reply.json) = some reply.json) :
    (r = none ∧ (replied d n (w'.on n) = replied d n (w.on n) ∨ LostLast d n w' (replied d n (w.on n)))) ∨
      ∃ reply : Reply, r = some reply.json ∧ replied d n (w'.on n) = replied d n (w.on n) ++ [reply.boxes] := by
  have settled := tidy.sound.settled
  cases perform_cases settled result with
  | unsent closed log => exact .inl ⟨rfl, .inl (by rw [on_congr log])⟩
  | long connects => exact .inl ⟨rfl, .inl (by rw [on_congr connects.log])⟩
  | lost connects delivered closed =>
    obtain rfl := only _ (delivered.log ▸ List.mem_append_right _ List.mem_cons_self)
    have boundary := tidy.connects connects
    have on := delivered.on.trans (by rw [on_congr connects.log])
    have fits := fits_of_logged settled not_detach result (delivered.log.trans (by rw [connects.log]))
    obtain ⟨consistent, attached⟩ := boundary.messages_concat well fits not_detach
    rw [on]
    refine .inl ⟨rfl, (replied_concat _ consistent attached).imp id fun ⟨_, out, more⟩ => ?_⟩
    exact ⟨fun s => closed.not_open, by simp [on], out, on ▸ more⟩
  | sent connects delivered fits is_open no_reply =>
    obtain rfl := only _ (delivered.log ▸ List.mem_append_right _ List.mem_cons_self)
    have boundary := tidy.connects connects
    have on := delivered.on.trans (by rw [on_congr connects.log])
    obtain ⟨consistent, attached⟩ := boundary.messages_concat well fits not_detach
    rw [on]
    refine .inl ⟨rfl, .inl ?_⟩
    obtain same | ⟨is_frame, -⟩ := replied_concat _ consistent attached
    · exact same
    · obtain rfl | ⟨extra, rfl⟩ := no_reply
      · cases is_frame
      · cases is_frame
  | answered connects delivered fits header size positive arrived is_open =>
    obtain rfl := only _ (delivered.log ▸ List.mem_append_right _ List.mem_cons_self)
    have boundary := tidy.connects connects
    have on := delivered.on.trans (by rw [on_congr connects.log])
    obtain ⟨consistent, attached⟩ := boundary.messages_concat well fits not_detach
    obtain ⟨-, reply, answers, rfl⟩ := boundary.answered well fits on not_detach header size arrived
    refine .inr ⟨reply, reads_back reply on answers, ?_⟩
    rw [on]
    exact replied_answers consistent attached answers

end

/-! ## Runs -/

/-- The JSON library of the client reads the replies on a connection as they were written. -/
def ReadsBack (d : Deployment A) (n : ℕ) (msgs : List ClientMessage) : Prop :=
  ∀ r ∈ (d.server.effects n (d.wire msgs)).flatMap (·.replies), d.parse (d.server.dumps r.json) = some r.json

theorem ReadsBack.answers {r : Reply} (reads_back : ReadsBack d n (msgs ++ [m]))
    (answers : Answers d.dump d.cameraUuid d.server n msgs m r) : d.parse (d.server.dumps r.json) = some r.json := by
  obtain ⟨effects, replies, at_end⟩ := answers.replies
  apply reads_back
  exact List.mem_flatMap.mpr ⟨effects, List.mem_of_getElem? at_end, replies ▸ List.mem_cons_self⟩

theorem effects_prefix (n : ℕ) {more : List ClientMessage}
    (consistent : ∀ m ∈ msgs ++ more, Consistent d.dump d.server.loads d.cameraUuid m ∧ m ≠ .detach) :
    d.server.effects n (d.wire msgs) <+: d.server.effects n (d.wire (msgs ++ more)) := by
  induction more using List.reverseRecOn with
  | nil => simp
  | append_singleton more m ih =>
    rw [← List.append_assoc] at consistent ⊢
    have before := ih fun m' mem => consistent m' (List.mem_append_left _ mem)
    obtain same | ⟨-, -, effects, -, -, longer⟩ := effects_concat n (fun m' mem => (consistent m' mem).1)
      fun m' mem => (consistent m' mem).2
    · rwa [same]
    · rw [longer]
      exact before.trans (List.prefix_append _ _)

/-- The agent has shown the replies on its connection, but for one that it has lost. -/
structure ShowsAll (d : Deployment A) (random : ℕ → U) (n : ℕ) (a : DeviceAgent U) : Prop where
  tidy : d.Tidy a.world
  written : ∀ e ∈ a.world.log, Consistent d.dump d.server.loads d.cameraUuid e.2 ∧ e.2 ≠ .detach
  shown : ∃ outs, Emitted random a outs ∧ (replied d n (a.world.on n) = outs ∨ LostLast d n a.world outs)

/-- A written message can be read. -/
theorem written_perform {w w' : World} {r : Option Json} (settled : w.Settled) (well : d.WellFormed m)
    (not_detach : m ≠ .detach) (result : perform d.context m w = (r, w'))
    (written : ∀ e ∈ w.log, Consistent d.dump d.server.loads d.cameraUuid e.2 ∧ e.2 ≠ .detach) :
    ∀ e ∈ w'.log, Consistent d.dump d.server.loads d.cameraUuid e.2 ∧ e.2 ≠ .detach := by
  obtain same | ⟨n', more⟩ := perform_log settled result
  · exact same ▸ written
  · have fits := fits_of_logged settled not_detach result more
    intro e mem
    rw [more] at mem
    cases List.mem_append.mp mem with
    | inl old => exact written e old
    | inr new =>
      obtain rfl := List.mem_singleton.mp new
      exact ⟨⟨⟨well.text_pos, fits, well.parses⟩, well.body_size⟩, not_detach⟩

theorem messageOf_ne_detach (sent : a.messageOf call = some m) : m ≠ .detach := by
  rintro rfl
  cases call with
  | settingsReceived | onEngineConfigChanged => cases sent
  | engineSettingsReceived newRuntime newDevice newWorkerCount =>
    simp only [DeviceAgent.messageOf] at sent
    split at sent
    · cases sent
    · cases sent
  | pushUncompressedVideoFrame frame =>
    obtain ⟨_, -, is_frame, -⟩ := passed_of_sent sent
    cases is_frame

theorem showsAll_step {a' : DeviceAgent U} (shows_all : ShowsAll d random n a)
    (step : Guarded (SendsWell d) (Calls d.context random) a call a') (only : ∀ e ∈ a'.world.log, e.1 = n)
    (reads_back : ReadsBack d n (a'.world.on n)) : ShowsAll d random n a' := by
  obtain ⟨well, rfl⟩ := step
  obtain ⟨tidy, written, outs, emits, kept⟩ := shows_all
  have world := call_world d.context random a call
  cases sent : a.messageOf call with
  | none =>
    simp only [sent] at world
    refine ⟨world ▸ tidy, world ▸ written, outs, emits.silent (by rw [sent]; rfl), ?_⟩
    rw [world]
    exact kept
  | some m =>
    simp only [sent] at world
    rw [world] at only reads_back
    have not_detach := messageOf_ne_detach sent
    have result := (Prod.eta (perform d.context m a.world)).symm
    have answer : ((a.messageOf call).bind fun m => (perform d.context m a.world).1) =
        (perform d.context m a.world).1 := by
      rw [sent, Option.bind_some]
    refine ⟨(@call_tidy A U d random a call tidy well).1, ?_, ?_⟩
    · rw [world]
      exact written_perform tidy.sound.settled (well m sent) not_detach result written
    rw [world]
    cases kept with
    | inr lost =>
      obtain ⟨nothing, lost'⟩ := lost.perform tidy.sound result only
      exact ⟨outs, emits.silent (answer.trans nothing), .inr lost'⟩
    | inl all =>
      subst all
      obtain ⟨nothing, kept'⟩ | ⟨reply, is_reply, more⟩ := perform_replied tidy (well m sent) not_detach result only
        fun reply on answers => (on ▸ reads_back : ReadsBack d n (a.world.on n ++ [m])).answers answers
      · exact ⟨_, emits.silent (answer.trans nothing), kept'⟩
      · exact ⟨_, emits.reply (answer.trans is_reply), .inl more⟩

theorem written_run {a' : DeviceAgent U} {calls : List Call} (tidy : d.Tidy a.world)
    (written : ∀ e ∈ a.world.log, Consistent d.dump d.server.loads d.cameraUuid e.2 ∧ e.2 ≠ .detach)
    (run : Run (Guarded (SendsWell d) (Calls d.context random)) a calls a') :
    d.Tidy a'.world ∧ a.world.log <+: a'.world.log ∧
      ∀ e ∈ a'.world.log, Consistent d.dump d.server.loads d.cameraUuid e.2 ∧ e.2 ≠ .detach := by
  induction run with
  | nil => exact ⟨tidy, List.prefix_rfl, written⟩
  | @cons a call _ _ _ step _ ih =>
    obtain ⟨well, rfl⟩ := step
    obtain ⟨tidy', more⟩ := @call_tidy A U d random a call tidy well
    have written' : ∀ e ∈ (a.call d.context random call).world.log,
        Consistent d.dump d.server.loads d.cameraUuid e.2 ∧ e.2 ≠ .detach := by
      rw [call_world]
      cases sent : a.messageOf call with
      | none => exact written
      | some m =>
        exact written_perform tidy.sound.settled (well m sent) (messageOf_ne_detach sent) (Prod.eta _).symm written
    obtain ⟨tidy'', log, all⟩ := ih tidy' written'
    exact ⟨tidy'', more.trans log, all⟩

/-- What is read back at the end is read back on the way. -/
theorem ReadsBack.earlier {w w' : World} (log : w.log <+: w'.log)
    (written : ∀ e ∈ w'.log, Consistent d.dump d.server.loads d.cameraUuid e.2 ∧ e.2 ≠ .detach)
    (reads_back : ReadsBack d n (w'.on n)) : ReadsBack d n (w.on n) := by
  obtain ⟨more, on⟩ := on_mono log n
  have consistent : ∀ m ∈ w.on n ++ more, Consistent d.dump d.server.loads d.cameraUuid m ∧ m ≠ .detach := by
    intro m mem
    rw [on] at mem
    obtain ⟨e, e_mem, rfl⟩ := List.mem_map.mp mem
    exact written e (List.mem_filter.mp e_mem).1
  have shorter := effects_prefix n consistent
  rw [on] at shorter
  intro r mem
  obtain ⟨effects, e_mem, r_mem⟩ := List.mem_flatMap.mp mem
  exact reads_back r (List.mem_flatMap.mpr ⟨effects, shorter.subset e_mem, r_mem⟩)

theorem showsAll_run {a' : DeviceAgent U} {calls : List Call} (shows_all : ShowsAll d random n a)
    (run : Run (Guarded (SendsWell d) (Calls d.context random)) a calls a') (only : ∀ e ∈ a'.world.log, e.1 = n)
    (reads_back : ReadsBack d n (a'.world.on n)) : ShowsAll d random n a' := by
  induction run with
  | nil => exact shows_all
  | @cons a call a₁ calls a' step rest ih =>
    -- What holds of the messages at the end holds of those on the way.
    obtain ⟨tidy, -, written⟩ := written_run shows_all.tidy shows_all.written (.cons step (.nil a₁))
    obtain ⟨-, log, written⟩ := written_run tidy written rest
    have shows_all' := showsAll_step shows_all step (fun e mem => only e (log.subset mem))
      (reads_back.earlier log written)
    exact ih shows_all' only reads_back

theorem replied_nil (d : Deployment A) (n : ℕ) : replied d n [] = [] := by
  have nothing : d.server.effects n (d.wire []) = [] := List.eq_nil_of_length_eq_zero (alive_nil d n).handled
  rw [replied, nothing]
  rfl

theorem written_create (engine : EngineSettings) (clock : ℕ) (script : List (ℕ × Outcome))
    (attaches : d.WellFormed .attach) :
    ∀ e ∈ (DeviceAgent.create d.context engine { clock, script } : DeviceAgent U).world.log,
      Consistent d.dump d.server.loads d.cameraUuid e.2 ∧ e.2 ≠ .detach := by
  have result : perform d.context .attach { clock, script } =
    (none, (DeviceAgent.create d.context engine { clock, script } : DeviceAgent U).world) := rfl
  exact written_perform (sound_start clock script).settled attaches nofun result fun e mem => absurd mem List.not_mem_nil

theorem showsAll_create (engine : EngineSettings) (clock : ℕ) (script : List (ℕ × Outcome))
    (attaches : d.WellFormed .attach)
    (only : ∀ e ∈ (DeviceAgent.create d.context engine { clock, script } : DeviceAgent U).world.log, e.1 = n)
    (reads_back : ReadsBack d n ((DeviceAgent.create d.context engine { clock, script } : DeviceAgent U).world.on n)) :
    ShowsAll d random n (DeviceAgent.create d.context engine { clock, script }) := by
  have start : d.Tidy { clock, script } := tidy_start clock script
  have result : perform d.context .attach { clock, script } =
    (none, (DeviceAgent.create d.context engine { clock, script } : DeviceAgent U).world) := rfl
  have empty : replied d n (World.on { clock, script } n) = [] := replied_nil d n
  refine ⟨(tidy_perform start attaches result).1, written_create engine clock script attaches, [], ⟨rfl, rfl⟩, ?_⟩
  obtain ⟨-, kept⟩ | ⟨reply, no, -⟩ := perform_replied start attaches nofun result only
    fun reply on answers => (on ▸ reads_back : ReadsBack d n (World.on { clock, script } n ++ [.attach])).answers answers
  · rwa [empty] at kept
  · cases no

/-! ## The tracker of the connection -/

/-- Every config that was sent has these settings of the tracker. -/
def TracksWith (maxAge : ℤ) (matchMode : String) (w : World) : Prop :=
  ∀ n camera engine, (n, .config (configExtra camera engine)) ∈ w.log →
    camera.trackMaxAge = maxAge ∧ camera.trackClassMatch = matchMode

theorem updateOutputs_constant {maxAge : ℤ} {matchMode : String} {ops : List Op} {t : ByteTrackLite}
    (age : t.maxAge = maxAge) (mode : t.matchMode = normalizeMode matchMode)
    (constant : ∀ age mode, .setParams age mode ∈ ops → age = some maxAge ∧ mode = some matchMode) :
    updateOutputs t ops = outputs t ((updatesOf ops).map .update) := by
  induction ops generalizing t with
  | nil => rfl
  | cons op ops ih =>
    have rest := fun age mode mem => constant age mode (List.mem_cons_of_mem _ mem)
    cases op with
    | update boxes =>
      have later := ih ((t.maxAge_update boxes).trans age) ((t.matchMode_update boxes).trans mode) rest
      simp only [updateOutputs, later]
      rfl
    | setParams age' mode' =>
      obtain ⟨rfl, rfl⟩ := constant age' mode' List.mem_cons_self
      have same : t.setParams none (some maxAge) (some matchMode) = t := by
        simp only [ByteTrackLite.setParams, Option.getD_none, Option.map_some, Option.getD_some, ← age, ← mode]
      simp only [updateOutputs, same, ih age mode rest]
      rfl

theorem config_of_incoming {cameraUuid : String} {msg : List (String × Json)}
    (is_config : (incoming cameraUuid m).config? = some msg) :
    ∃ extra, m = .config extra ∧ msg = (ClientMessage.config extra).fields cameraUuid := by
  cases m with
  | frame => cases is_config
  | attach | detach =>
    simp [incoming, Incoming.config?, typeIs_fields] at is_config
  | config extra =>
    simp [incoming, Incoming.config?, typeIs_fields] at is_config
    exact ⟨extra, rfl, is_config.symm⟩

/-- With constant settings the tracker of a connection only gets its boxes. -/
theorem replied_of_tracker {calls : List Call} (shows_all : ShowsAll d random n a) (sends : SendsGiven calls a)
    {maxAge : ℤ} {matchMode : String} (settings : TracksWith maxAge matchMode a.world) :
    ∃ k, replied d n (a.world.on n) =
      List.replicate k [] ++ replies ⟨3 / 10, by norm_num⟩ maxAge matchMode (found d n (a.world.on n)) := by
  have on_log : ∀ m ∈ a.world.on n, (n, m) ∈ a.world.log := by
    intro m mem
    obtain ⟨e, e_mem, rfl⟩ := List.mem_map.mp mem
    obtain ⟨in_log, number⟩ := List.mem_filter.mp e_mem
    obtain rfl := of_decide_eq_true number
    exact in_log
  let events := d.server.events n (d.server.messages (d.wire (a.world.on n)))
  have constant : ∀ age mode, .setParams age mode ∈ trackerOps d.server.env {} events →
      age = some maxAge ∧ mode = some matchMode := by
    intro age mode mem
    obtain ⟨e, e_mem, msg, is_config, age_read, mode_read⟩ := trackerOps_config mem
    have received : d.server.messages (d.wire (a.world.on n)) = _ :=
      received_wire (fun m mem => (shows_all.written _ (on_log m mem)).1) fun m mem =>
        (shows_all.written _ (on_log m mem)).2
    have is_message : e.1 ∈ d.server.messages (d.wire (a.world.on n)) := by
      obtain ⟨i, inside, rfl⟩ := List.mem_mapIdx.mp e_mem
      exact List.getElem_mem inside
    rw [received] at is_message
    obtain ⟨m, m_mem, is⟩ := List.mem_map.mp is_message
    rw [← is] at is_config
    obtain ⟨extra, rfl, rfl⟩ := config_of_incoming is_config
    have in_log := on_log _ (List.takeWhile_subset _ m_mem)
    obtain ⟨camera, engine, rfl, -⟩ := sends.configs _ in_log extra rfl
    obtain ⟨rfl, rfl⟩ := settings n camera engine in_log
    obtain ⟨-, -, -, -, -, has_age, has_mode⟩ := @lookup_always d.cameraUuid camera engine
    change optInt (Json.lookup "track_max_age" (configFields d.cameraUuid camera engine)) = some age at age_read
    change optStr (Json.lookup "track_class_match" (configFields d.cameraUuid camera engine)) = mode at mode_read
    rw [has_age] at age_read
    rw [has_mode] at mode_read
    refine ⟨?_, mode_read.symm⟩
    have whole : optInt (some (.num camera.trackMaxAge)) = some (some (Python.toInt camera.trackMaxAge)) := rfl
    rw [whole, Python.toInt_intCast] at age_read
    exact (Option.some.inj age_read).symm
  obtain ⟨frames, -, only⟩ | ⟨frames, age, mode, later, is_ops, both⟩ := trackedBy_run d.server.env events
  · have replied_eq : replied d n (a.world.on n) = _ := congrArg Tracked.replied only
    have found_eq : found d n (a.world.on n) = _ := congrArg Tracked.updates only
    refine ⟨frames.length, ?_⟩
    rw [replied_eq, found_eq]
    exact (List.append_nil _).symm
  · rw [is_ops] at constant
    obtain ⟨rfl, rfl⟩ := constant age mode (List.mem_append_right _ List.mem_cons_self)
    have replied_eq : replied d n (a.world.on n) = _ := congrArg Tracked.replied both
    have found_eq : found d n (a.world.on n) = _ := congrArg Tracked.updates both
    refine ⟨frames.length, ?_⟩
    rw [replied_eq, found_eq]
    have made : configTracker none (some maxAge) (some matchMode) =
        ByteTrackLite.init ⟨3 / 10, by norm_num⟩ maxAge matchMode := by
      simp only [configTracker, Option.getD_some]
    have outs := @updateOutputs_constant maxAge matchMode later
        (ByteTrackLite.init ⟨3 / 10, by norm_num⟩ maxAge matchMode)
      (by simp only [ByteTrackLite.init]) (by simp only [ByteTrackLite.init]) fun age mode mem =>
        constant age mode (List.mem_append_right _ (List.mem_cons_of_mem _ mem))
    rw [made, outs, replies]

/-! ## From the camera to the screen -/

/-- The UUIDs of a packet. -/
def uuidsOf (packet : ObjectMetadataPacket U) : List U := packet.items.map (·.trackId)

theorem uuids_pushed {objects : List (List (ObjectMetadata U × Option ℤ))} {uuids : List (List U)}
    (are : objects.map (List.map fun object => object.1.trackId) = uuids) :
    (pushed objects).map (List.map (·.trackId)) = uuids.filter fun ids => !ids.isEmpty := by
  subst are
  simp only [pushed, List.filter_map, List.map_map]
  have same : ((fun items : List (ObjectMetadata U) => !items.isEmpty) ∘ List.map Prod.fst) =
      ((fun ids : List U => !ids.isEmpty) ∘ List.map fun object : ObjectMetadata U × Option ℤ => object.1.trackId) := by
    funext objects
    simp
  rw [same]
  apply List.map_congr_left
  intro objects _
  simp

/-- Replies without boxes show nothing. -/
theorem pushed_replicate (k : ℕ) (outs : List (List Box)) (c : TrackUuids U) :
    pushed (emitReplies random (List.replicate k [] ++ outs) c).1 = pushed (emitReplies random outs c).1 := by
  induction k with
  | zero => rfl
  | succ k ih =>
    rw [List.replicate_succ, List.cons_append, ← ih]
    simp [pushed, emitReplies, emitBoxes]

theorem exists_replicate_dropLast {k : ℕ} {outs rest : List (List Box)} {out : List Box}
    (split : outs ++ [out] = List.replicate k [] ++ rest) : ∃ k', outs = List.replicate k' [] ++ rest.dropLast := by
  have front := congrArg List.dropLast split
  rw [List.dropLast_concat] at front
  cases rest with
  | nil => exact ⟨k - 1, by rw [front, List.append_nil, List.dropLast_replicate, List.dropLast_nil, List.append_nil]⟩
  | cons box rest => exact ⟨k, by rw [front, List.dropLast_append_of_ne_nil (by simp)]⟩

theorem emitReplies_dropLast (outs : List (List Box)) (c : TrackUuids U) :
    (emitReplies random outs.dropLast c).1 = (emitReplies random outs c).1.dropLast := by
  cases outs.eq_nil_or_concat with
  | inl empty =>
    subst empty
    rfl
  | inr split =>
    obtain ⟨front, out, rfl⟩ := split
    simp [emitReplies_append, emitReplies]

variable {O : Type*}

/-- On one connection with constant settings of the tracker, where the objects that the worker finds can be told
    apart and are few enough in a frame, every object is pushed under one UUID on all frames that show
    it, and no two objects under the same one.  Nothing but the last frame is missing, and that only if
    its reply was lost with the connection. -/
theorem one_uuid_on_screen (d : Deployment A) (random : ℕ → U) (distinct : Function.Injective random)
    (engine : EngineSettings) (clock : ℕ) (script : List (ℕ × Outcome)) (attaches : d.WellFormed .attach)
    {calls : List Call} {a : DeviceAgent U}
    (run : Run (Guarded (SendsWell d) (Calls d.context random))
      (DeviceAgent.create d.context engine { clock, script }) calls a)
    (n : ℕ) (only : ∀ e ∈ a.world.log, e.1 = n) (reads_back : ReadsBack d n (a.world.on n)) (maxAge : ℤ)
        (age : 0 ≤ maxAge)
    (matchMode : String) (settings : TracksWith maxAge matchMode a.world) (frames : List (List (O × Box)))
    (are_found : frames.map (List.map Prod.snd) = found d n (a.world.on n))
    (apart : Distinguishable (3 / 10) (normalizeMode matchMode) maxAge frames) (B : ℕ)
    (few : ∀ frame ∈ frames, frame.length ≤ B) (room : (maxAge + 2) * B ≤ trackUuidCap)
    (short : (frames.map List.length).sum < 2 ^ 31) :
    ∃ (uuid : O → U) (shown : List (List (O × Box))), Set.InjOn uuid {o | Seen frames o} ∧
      (shown = frames ∨ shown = frames.dropLast ∧ ∀ s, ¬ a.world.Open s n) ∧
      a.packets.map uuidsOf = (shown.map (List.map fun o => uuid o.1)).filter fun ids => !ids.isEmpty := by
  have tidy := (@shows_create A U d engine clock script attaches).tidy
  obtain ⟨-, log, written⟩ := written_run tidy (written_create engine clock script attaches) run
  have shows_all : ShowsAll d random n a :=
    showsAll_run (showsAll_create engine clock script attaches (fun e mem => only e (log.subset mem))
      (reads_back.earlier log written)) run only reads_back
  have sends := sendsGiven_run (sendsGiven_create d.context engine clock script) run.of_guarded
  obtain ⟨k, replied_eq⟩ := replied_of_tracker shows_all sends settings
  rw [← are_found] at replied_eq
  obtain ⟨uuid, injective, uuids⟩ :=
    exists_uuids distinct ⟨3 / 10, by norm_num⟩ (by norm_num) age matchMode apart few room short
  obtain ⟨outs, emits, kept⟩ := shows_all.shown
  have packets : a.packets.map uuidsOf = (a.packets.map (·.items)).map (List.map (·.trackId)) := by
    rw [List.map_map]
    rfl
  rw [packets, emits.packets]
  cases kept with
  | inl all =>
    refine ⟨uuid, frames, injective, .inl rfl, ?_⟩
    rw [← all, replied_eq, pushed_replicate]
    exact uuids_pushed uuids
  | inr lost =>
    obtain ⟨out, last⟩ := lost.last
    obtain ⟨k', rfl⟩ := exists_replicate_dropLast (last.symm.trans replied_eq)
    refine ⟨uuid, frames.dropLast, injective, .inr ⟨rfl, lost.gone⟩, ?_⟩
    rw [pushed_replicate, emitReplies_dropLast]
    apply uuids_pushed
    rw [List.map_dropLast, uuids, List.map_dropLast]

/-! ## An example -/

/-- What the worker answers to the settings and two frames. -/
def parkedReplies : List Reply :=
  (Worker.run loadedEnv {} ((carMessages.take 4).map fun m => (incoming "cam" m, carOrRaise true))).2.flatMap (·.replies)

def parkedDeployment : Deployment Unit :=
  { carDeployment with parse := fun bytes => (parkedReplies.map Reply.json).find? fun j => dumpText j == bytes }

def parkedStart : DeviceAgent ℕ :=
  DeviceAgent.create parkedDeployment.context carEngine { clock := 0, script := List.replicate 40 (1, .done 999) }

def afterParked : DeviceAgent ℕ :=
  pushUncompressedVideoFrame parkedDeployment.context id smallVideoFrame
    (pushUncompressedVideoFrame parkedDeployment.context id smallVideoFrame
      (settingsReceived parkedDeployment.context carSettings parkedStart))

/-- The car that the worker finds, twice. -/
def parkedFrames : List (List (Unit × Box)) :=
  List.replicate 2 [((), { xyxy := ⟨0, 0, 1 / 2, 1⟩, score := 9 / 10, cls := some 2 })]

theorem parkedDeployment_wellFormed {m : ClientMessage} (mem : m ∈ carMessages) : parkedDeployment.WellFormed m :=
  have well := carDeployment_wellFormed mem
  ⟨well.text_pos, well.parses, well.body_size⟩

/-- The frame is sent under its number, as long as none is skipped. -/
theorem messageOf_smallVideoFrame (a : DeviceAgent ℕ) (every : a.camera.frameSkip = 1) :
    a.messageOf (.pushUncompressedVideoFrame smallVideoFrame) =
      some (.frame (a.frameCount + 1) 0 2 1 6 [10, 20, 30, 40, 50, 60]) := by
  have passes : frameMessage (a.frameCount + 1) smallVideoFrame = some (.frame (a.frameCount + 1) 0 2 1 6 [10, 20, 30, 40, 50, 60]) :=
    rfl
  simp [DeviceAgent.messageOf, DeviceAgent.frameMessage, every, passes]

theorem run_parked : Run (Guarded (SendsWell parkedDeployment) (Calls parkedDeployment.context id)) parkedStart
    [.settingsReceived carSettings, .pushUncompressedVideoFrame smallVideoFrame, .pushUncompressedVideoFrame smallVideoFrame]
    afterParked := by
  refine .cons ⟨fun m sent => ?_, rfl⟩ (.cons ⟨fun m sent => ?_, rfl⟩ (.cons ⟨fun m sent => ?_, rfl⟩ (.nil _)))
  · obtain rfl := Option.some.inj sent
    exact parkedDeployment_wellFormed (.tail _ (.head _))
  · rw [messageOf_smallVideoFrame _ (by decide +kernel)] at sent
    obtain rfl := Option.some.inj sent
    exact parkedDeployment_wellFormed (.tail _ (.tail _ (.head _)))
  · rw [messageOf_smallVideoFrame _ (by decide +kernel)] at sent
    obtain rfl := Option.some.inj sent
    have second : (DeviceAgent.call parkedDeployment.context id
        (DeviceAgent.call parkedDeployment.context id parkedStart (.settingsReceived carSettings))
        (.pushUncompressedVideoFrame smallVideoFrame)).frameCount = 1 := by decide +kernel
    rw [second]
    exact parkedDeployment_wellFormed (.tail _ (.tail _ (.tail _ (.head _))))

theorem readsBack_parked : ReadsBack parkedDeployment 0 (afterParked.world.on 0) := by
  have bytes : parkedDeployment.wire (afterParked.world.on 0) = parkedDeployment.wire (carMessages.take 4) := by
    decide +kernel
  have fits : ∀ m ∈ carMessages.take 4, (m.text dumpText "cam").length ≤ maxFrameBytes := by decide +kernel
  have consistent : ∀ m ∈ carMessages.take 4,
      Consistent parkedDeployment.dump parkedDeployment.server.loads parkedDeployment.cameraUuid m := by
    intro m mem
    have well := parkedDeployment_wellFormed (List.mem_of_mem_take mem)
    exact ⟨⟨well.text_pos, fits m mem, well.parses⟩, well.body_size⟩
  have attached : ∀ m ∈ carMessages.take 4, m ≠ .detach := by simp [carMessages]
  have messages := messages_wire consistent attached (by decide +kernel)
  have replies : (parkedDeployment.server.effects 0 (parkedDeployment.wire (afterParked.world.on 0))).flatMap
      (·.replies) = parkedReplies := by
    rw [bytes, Server.effects, messages]
    rfl
  have distinct : ((parkedReplies.map Reply.json).map dumpText).Nodup := by decide +kernel
  rw [ReadsBack, replies]
  intro r mem
  exact find_same distinct (List.mem_map_of_mem mem)

theorem tracksWith_parked : TracksWith 90 "vehicle_group" afterParked.world := by
  intro n camera engine in_log
  have sends := sendsGiven_run (sendsGiven_create parkedDeployment.context carEngine 0 _) run_parked.of_guarded
  obtain ⟨camera', engine', same, given⟩ := sends.configs _ in_log _ rfl
  obtain ⟨-, -, -, -, -, age, mode⟩ := @lookup_always "cam" camera engine
  obtain ⟨-, -, -, -, -, age', mode'⟩ := @lookup_always "cam" camera' engine'
  have fields : configFields "cam" camera engine = configFields "cam" camera' engine' :=
    congrArg (fun extra => (ClientMessage.config extra).fields "cam") same
  rw [fields, age'] at age
  rw [fields, mode'] at mode
  have age_eq : camera'.trackMaxAge = camera.trackMaxAge := by simpa using age
  have mode_eq : camera'.trackClassMatch = camera.trackClassMatch := by simpa using mode
  rw [← age_eq, ← mode_eq]
  obtain rfl | is_given := given
  · exact ⟨rfl, rfl⟩
  · obtain rfl : camera' = carSettings := by
      cases is_given with
      | head => rfl
      | tail _ others => cases others with
        | tail _ others => cases others with
          | tail _ none => cases none
    exact ⟨rfl, rfl⟩

theorem parked_distinguishable : Distinguishable (3 / 10) (normalizeMode "vehicle_group") 90 parkedFrames := by
  have places : ∀ {n o b}, Sighting parkedFrames n o b →
      n < 2 ∧ b = { xyxy := ⟨0, 0, 1 / 2, 1⟩, score := 9 / 10, cls := some 2 } := by
    rintro n o b ⟨frame, at_n, mem⟩
    have is_frame := List.mem_of_getElem? at_n
    obtain rfl := List.eq_of_mem_replicate is_frame
    obtain ⟨-, rfl⟩ := Prod.mk.inj (List.mem_singleton.mp mem)
    exact ⟨(List.getElem?_eq_some_iff.mp at_n).1, rfl⟩
  refine ⟨?_, ?_, ?_⟩
  · intro frame mem
    obtain rfl := List.eq_of_mem_replicate mem
    decide
  · intro n o b m b₀ now before
    obtain ⟨inside, rfl⟩ := places now
    obtain ⟨-, rfl⟩ := places before.sighted
    refine ⟨by omega, by decide +kernel, rfl⟩
  · intro n o b o' m' b₀' now before two _ _
    exact absurd rfl two

/-- The car keeps its UUID, unless the second reply was lost with the connection. -/
theorem one_uuid_on_screen_parked : ∃ uuid : Unit → ℕ,
    afterParked.packets.map uuidsOf = [[uuid ()], [uuid ()]] := by
  obtain ⟨uuid, shown, -, complete, packets⟩ :=
    one_uuid_on_screen parkedDeployment id Function.injective_id carEngine 0 (List.replicate 40 (1, .done 999))
      (parkedDeployment_wellFormed (.head _)) run_parked 0 (by decide +kernel) readsBack_parked 90 (by norm_num)
      "vehicle_group" tracksWith_parked parkedFrames (by decide +kernel) parked_distinguishable 1 (by decide) (by decide)
      (by decide)
  have both : afterParked.packets.length = 2 := by decide +kernel
  refine ⟨uuid, ?_⟩
  obtain rfl | ⟨rfl, -⟩ := complete
  · exact packets
  · have one := congrArg List.length packets
    rw [List.length_map, both] at one
    cases one

end VisionNx.Agent
