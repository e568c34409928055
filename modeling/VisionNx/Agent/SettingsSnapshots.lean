import VisionNx.Agent.SettingsThreads

/-! # Which settings a config is made of

A call of `sendConfigToWorker` copies the camera's settings in two sections and those of
the engine in up to three.  Its config is one state of each as long as no settings are
written between them that differ both from what it has copied and in what it has not. -/

namespace VisionNx.Agent

open TransitionRuns PartialCopies

/-- The settings that a step writes agree with what a running call has copied, or they
    change nothing that it has yet to copy. -/
def Unmixed (s : Threads) : ThreadAction → Prop
  | .settingsReceived _ parsed => ∀ call c, s.calls call = some c →
    Agree cameraPart c.got parsed c.camera ∨ Agree cameraPart c.rest s.camera parsed
  | .engineSettingsReceived _ newRuntime newDevice newWorkerCount => ∀ call c, s.calls call = some c →
    Agree enginePart c.got (s.engine.receive newRuntime newDevice newWorkerCount).1 c.engine ∨
      Agree enginePart c.rest s.engine (s.engine.receive newRuntime newDevice newWorkerCount).1
  | _ => True

/-- The config is that of one state of the camera and one of the engine. -/
def Threads.Held (s : Threads) (extra : List (String × Json)) : Prop :=
  ∃ camera ∈ s.cameras, ∃ engine ∈ s.engines, extra = configExtra camera engine

/-! ## One step -/

structure Snapshot (s : Threads) (c : Sending) : Prop where
  ordered : c.Ordered
  camera : Joined cameraPart s.cameras s.camera c.camera c.got c.rest
  engine : Joined enginePart s.engines s.engine c.engine c.got c.rest

structure Snapshots (s : Threads) : Prop where
  camera : s.camera ∈ s.cameras
  engine : s.engine ∈ s.engines
  calls : ∀ call c, s.calls call = some c → Snapshot s c
  sent : ∀ m ∈ s.sent, s.Held m.2

variable {s : Threads} {c : Sending} {p : Section} {todo : List Section}

theorem Snapshot.held (snapshot : Snapshot s c) (ready : c.todo = []) : s.Held c.message := by
  obtain ⟨camera, camera_mem, same_camera, -⟩ := snapshot.camera
  obtain ⟨engine, engine_mem, same_engine, -⟩ := snapshot.engine
  exact ⟨camera, camera_mem, engine, engine_mem, Sending.message_eq ready same_camera.symm same_engine.symm⟩

theorem Threads.Held.mono {s' : Threads} {extra : List (String × Json)} (held : s.Held extra)
    (cameras : s.cameras ⊆ s'.cameras) (engines : s.engines ⊆ s'.engines) : s'.Held extra := by
  obtain ⟨camera, camera_mem, engine, engine_mem, same⟩ := held
  exact ⟨camera, cameras camera_mem, engine, engines engine_mem, same⟩

theorem Snapshots.start (snapshots : Snapshots s) : Snapshot s {} where
  ordered := List.suffix_refl _
  camera := joined_start snapshots.camera (Sending.got_of_fresh rfl)
  engine := joined_start snapshots.engine (Sending.got_of_fresh rfl)

theorem Snapshot.copy (snapshot : Snapshot s c) (next : c.todo = p :: todo) (changes : ℕ) :
    Snapshot s { c.copy s.camera s.engine changes p with todo } where
  ordered := snapshot.ordered.copy next
  camera := snapshot.camera.read (Sending.copy_reads_camera snapshot.ordered next)
    (Sending.rest_copy snapshot.ordered next)
  engine := snapshot.engine.read (Sending.copy_reads_engine snapshot.ordered next)
    (Sending.rest_copy snapshot.ordered next)

/-- A step that changes neither the settings nor the record of them. -/
theorem Snapshots.calls_update {s' : Threads} (snapshots : Snapshots s) {call : ℕ} {after : Option Sending}
    (camera : s'.camera = s.camera) (engine : s'.engine = s.engine) (cameras : s'.cameras = s.cameras)
    (engines : s'.engines = s.engines) (calls : s'.calls = Function.update s.calls call after)
    (own : ∀ c, after = some c → Snapshot s c) (sent : ∀ m ∈ s'.sent, s.Held m.2) : Snapshots s' := by
  have same : ∀ c, Snapshot s c → Snapshot s' c := fun c snapshot =>
    ⟨snapshot.ordered, by rw [camera, cameras]; exact snapshot.camera, by rw [engine, engines]; exact snapshot.engine⟩
  refine ⟨by rw [camera, cameras]; exact snapshots.camera, by rw [engine, engines]; exact snapshots.engine, ?_, ?_⟩
  · rw [calls]
    exact running_update (fun call c running => same c (snapshots.calls call c running)) fun c is => same c (own c is)
  · exact fun m mem => (sent m mem).mono (by rw [cameras]; exact List.Subset.refl _)
      (by rw [engines]; exact List.Subset.refl _)

theorem snapshots_step {s s' : Threads} {action : ThreadAction} (snapshots : Snapshots s)
    (step : Guarded Unmixed ThreadStep s action s') : Snapshots s' := by
  obtain ⟨unmixed, step⟩ := step
  cases step with
  | @settingsReceived call parsed idle =>
    refine ⟨by simp, snapshots.engine, running_update (fun call c running => ?_) ?_, fun m mem => ?_⟩
    · have snapshot := snapshots.calls call c running
      exact ⟨snapshot.ordered, snapshot.camera.write (unmixed call c running), snapshot.engine⟩
    · rintro c ⟨⟩
      exact ⟨List.suffix_refl _, joined_start (by simp) (Sending.got_of_fresh rfl),
        joined_start snapshots.engine (Sending.got_of_fresh rfl)⟩
    · exact (snapshots.sent m mem).mono (List.subset_append_left ..) (List.Subset.refl _)
  | @changed call newRuntime newDevice newWorkerCount idle changed =>
    refine ⟨snapshots.camera, by simp, running_update (fun call c running => ?_) ?_, fun m mem => ?_⟩
    · have snapshot := snapshots.calls call c running
      exact ⟨snapshot.ordered, snapshot.camera, snapshot.engine.write (unmixed call c running)⟩
    · rintro c ⟨⟩
      exact ⟨List.suffix_refl _, joined_start snapshots.camera (Sending.got_of_fresh rfl),
        joined_start (by simp) (Sending.got_of_fresh rfl)⟩
    · exact (snapshots.sent m mem).mono (List.Subset.refl _) (List.subset_append_left ..)
  | unchanged _ same =>
    rw [EngineSettings.receive_same same]
    exact snapshots
  | @onEngineConfigChanged call idle =>
    refine snapshots.calls_update rfl rfl rfl rfl rfl (fun c is => ?_) snapshots.sent
    cases is
    exact snapshots.start
  | @copy call c p todo running next =>
    refine snapshots.calls_update rfl rfl rfl rfl rfl (fun c' is => ?_) snapshots.sent
    cases is
    exact (snapshots.calls call c running).copy next s.changes
  | @send call c running ready =>
    refine snapshots.calls_update rfl rfl rfl rfl rfl (fun _ ended => absurd ended (Option.some_ne_none _).symm) fun m mem => ?_
    cases List.mem_append.mp mem with
    | inl earlier => exact snapshots.sent m earlier
    | inr now =>
      obtain rfl := List.mem_singleton.mp now
      exact (snapshots.calls call c running).held ready

/-! ## Runs -/

theorem snapshots_start (engine : EngineSettings) : Snapshots { engine } where
  camera := by simp
  engine := by simp
  calls _ _ running := absurd running (Option.some_ne_none _).symm
  sent := nofun

/-- If no settings are written between the sections of a call that differ both from what
    it has copied and in what it has not, every config that is built or sent is that of
    one state of the camera and one of the engine. -/
theorem config_of_one_moment (engine : EngineSettings) {actions : List ThreadAction} {s : Threads}
    (run : Run (Guarded Unmixed ThreadStep) { engine } actions s) :
    (∀ m ∈ s.sent, s.Held m.2) ∧ ∀ call c, s.calls call = some c → c.todo = [] → s.Held c.message := by
  have snapshots : Snapshots s :=
    run.invariant (fun _ _ _ snapshots step => snapshots_step snapshots step) (snapshots_start engine)
  exact ⟨snapshots.sent, fun call c running ready => (snapshots.calls call c running).held ready⟩

/-- One Apply click for the camera. -/
theorem config_of_one_moment_once :
    (∀ m ∈ [(1, configExtra {} cpuEngine)], cameraApplied.Held m.2) ∧
      ∀ call c, Function.update cameraApplied.calls 0 none call = some c → c.todo = [] →
        cameraApplied.Held c.message := by
  have applied : Guarded Unmixed ThreadStep { engine := cpuEngine } (.settingsReceived 0 {}) cameraApplied :=
    ⟨fun _ _ running => absurd running (Option.some_ne_none _).symm, .settingsReceived rfl⟩
  have send : Run (Guarded Unmixed ThreadStep) cameraApplied _ _ :=
    (@run_sendConfig cameraApplied 0 rfl).of_guarded.guarded fun action mem s => by
      cases List.mem_append.mp mem with
      | inl copy =>
        obtain ⟨p, -, rfl⟩ := List.mem_map.mp copy
        trivial
      | inr send =>
        obtain rfl := List.mem_singleton.mp send
        trivial
  exact config_of_one_moment cpuEngine (.cons applied send)

/-- A call that has copied the runtime of the engine and not yet its device. -/
def halfway : Sending where
  todo := [.device, .workerCount, .tracker]
  engine := ⟨"onnx", "", 1⟩

/-- What it goes on with once the engine has another runtime and device. -/
def mixed : Sending := halfway.copyAll {} ⟨"openvino", "GPU", 1⟩ 1 halfway.todo

def beforeChange : Threads where
  engine := cpuEngine
  calls := Function.update (fun _ => none) 0 (some halfway)

def afterChange : Threads where
  engine := ⟨"openvino", "GPU", 1⟩
  engines := [cpuEngine, ⟨"openvino", "GPU", 1⟩]
  changes := 1
  calls := Function.update (Function.update (fun _ => none) 0 (some halfway)) 1 (some {})

theorem run_halfway : Run ThreadStep { engine := cpuEngine }
    [.onEngineConfigChanged 0, .copy 0, .copy 0] beforeChange := by
  have settings := @ThreadStep.copy
    { engine := cpuEngine, calls := Function.update (fun _ => none) 0 (some {}) } 0 {} _ _ rfl rfl
  have runtime := @ThreadStep.copy
    { engine := cpuEngine
      calls := Function.update (fun _ => none) 0 (some { todo := [.runtime, .device, .workerCount, .tracker] }) }
    0 _ _ _ rfl rfl
  simp only [Sending.copy, Function.update_idem] at settings runtime
  exact .cons (.onEngineConfigChanged rfl) (.cons settings (.cons runtime (.nil _)))

theorem change_between : ThreadStep beforeChange (.engineSettingsReceived 1 "openvino" "GPU" 1) afterChange := by
  have := @ThreadStep.changed beforeChange 1 "openvino" "GPU" 1 rfl (by decide)
  simpa [beforeChange, afterChange, cpuEngine, EngineSettings.receive] using this

/-- The engine goes to another runtime and device after a call has copied the runtime and
    before it copies the device. -/
theorem mixed_config_sent : ∃ actions s, Run ThreadStep { engine := cpuEngine } actions s ∧
    ∃ m ∈ s.sent, ¬ s.Held m.2 := by
  have copies := @run_copyAll halfway afterChange 0 rfl
  have send := @ThreadStep.send
    { afterChange with calls := Function.update afterChange.calls 0 (some mixed) } 0 mixed rfl rfl
  refine ⟨_, _, run_halfway.append (.cons change_between (copies.append (.cons send (.nil _)))), _,
    List.mem_append_right _ (List.mem_singleton_self _), ?_⟩
  rintro ⟨camera, camera_mem, engine, engine_mem, same⟩
  obtain rfl : camera = {} := by simpa [afterChange] using camera_mem
  have message : mixed.message = configExtra {} ⟨"onnx", "GPU", 1⟩ := by
    simp [mixed, halfway, Sending.copyAll, Sending.copy, Sending.message]
  have values := message.symm.trans same
  have known : engine = cpuEngine ∨ engine = ⟨"openvino", "GPU", 1⟩ := by simpa [afterChange] using engine_mem
  rcases known with rfl | rfl <;> simp [configExtra, firstSet, cpuEngine] at values

end VisionNx.Agent
