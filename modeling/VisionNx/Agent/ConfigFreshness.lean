import VisionNx.Agent.DeviceAgent

/-! # Which config a frame is handled under

The worker keeps its config per connection, and a config is only sent by the calls that
change settings.  A frame that finds the connection gone opens one by itself, and the
worker then handles it without a config.  As long as that does not happen, and no
config is too long to be sent, every frame comes behind the current config on its
connection. -/

namespace VisionNx.Agent

open Client TransitionRuns

variable {U : Type} {ctx : Context} {random : ℕ → U}

/-! ## The condition -/

def configOf : ClientMessage → Option (List (String × Json))
  | .config extra => some extra
  | _ => none

/-- The last config among the messages of a connection. -/
def lastConfig (msgs : List ClientMessage) : Option (List (String × Json)) :=
  (msgs.filterMap configOf).getLast?

/-- The config of the agent is not too long for a connection that is there or is made. -/
def ConfigFits (ctx : Context) (a : DeviceAgent U) : Prop :=
  (ensureConnected ctx a.world).1 = true →
    ((ClientMessage.config a.extra).text ctx.dump ctx.cameraUuid).length ≤ maxFrameBytes

/-- The steps that keep the config of a connection current.  Before the first settings
    there is none to keep. -/
def KeepsConfig (ctx : Context) (a : DeviceAgent U) : Call → Prop
  | .settingsReceived parsed => ConfigFits ctx { a with camera := parsed }
  | .engineSettingsReceived newRuntime newDevice newWorkerCount =>
    0 < a.settingsCount → (a.engine.receive newRuntime newDevice newWorkerCount).2 = true →
      ConfigFits ctx { a with engine := (a.engine.receive newRuntime newDevice newWorkerCount).1 }
  | .onEngineConfigChanged => 0 < a.settingsCount → ConfigFits ctx a
  | .pushUncompressedVideoFrame frame =>
    0 < a.settingsCount → DeviceAgent.frameMessage { a with frameCount := a.frameCount + 1 } frame ≠ none →
      a.world.fd = none → (ensureConnected ctx a.world).1 = false

/-! ## One call -/

structure UpToDate (a : DeviceAgent U) : Prop where
  sound : a.world.Sound
  current : 0 < a.settingsCount → ∀ s n, a.world.Open s n → lastConfig (a.world.on n) = some a.extra

section

variable {w w' : World} {s : Socket} {n : ℕ} {m : ClientMessage} {r : Option Json}

theorem lastConfig_concat (msgs : List ClientMessage) (m : ClientMessage) :
    lastConfig (msgs ++ [m]) = (configOf m).or (lastConfig msgs) := by
  rw [lastConfig, lastConfig, List.filterMap_append]
  cases is_config : configOf m <;> simp [is_config]

theorem lastConfig_sendConfig {extra : List (String × Json)} (sound : w.Sound)
    (fits : (ensureConnected ctx w).1 = true →
      ((ClientMessage.config extra).text ctx.dump ctx.cameraUuid).length ≤ maxFrameBytes)
    (is_open : (sendConfig ctx extra w).2.Open s n) :
    lastConfig ((sendConfig ctx extra w).2.on n) = some extra := by
  have result : perform ctx (.config extra) w = (none, (sendConfig ctx extra w).2) := rfl
  generalize (sendConfig ctx extra w).2 = w' at result is_open
  -- With a variable in its place, the cases that return a value are there as well.
  generalize (none : Option Json) = r at result
  cases perform_cases sound.settled result with
  | unsent closed => exact absurd is_open closed.not_open
  | lost _ _ closed => exact absurd is_open closed.not_open
  | long connects _ long =>
    -- A text that is too long is excluded.
    have := fits (congrArg Prod.fst connects.result)
    omega
  | sent connects delivered _ is_open' _ =>
    obtain ⟨rfl, rfl⟩ := is_open'.unique is_open
    rw [delivered.on, lastConfig_concat]
    rfl
  | answered _ _ _ _ _ _ _ _ frame =>
    obtain ⟨_, _, _, _, _, _, is_frame⟩ := frame
    cases is_frame

/-- A message that is no config and does not connect by itself changes no last config. -/
theorem lastConfig_perform (sound : w.Sound) (no_config : configOf m = none)
    (kept : w.fd = none → (ensureConnected ctx w).1 = false) (result : perform ctx m w = (r, w'))
    (is_open : w'.Open s n) : ∃ s', w.Open s' n ∧ lastConfig (w'.on n) = lastConfig (w.on n) := by
  cases perform_cases sound.settled result with
  | unsent closed => exact absurd is_open closed.not_open
  | lost _ _ closed => exact absurd is_open closed.not_open
  | @long _ s' n' connects =>
    obtain ⟨rfl, rfl⟩ := connects.is_open.unique is_open
    exact ⟨_, connects.was_open kept, by rw [on_congr connects.log]⟩
  | @sent _ _ s' n' connects delivered _ is_open' | @answered _ _ s' n' _ _ connects delivered _ _ _ _ _ is_open' =>
    obtain ⟨rfl, rfl⟩ := is_open'.unique is_open
    -- The message was added to those of a connection that was there before.
    refine ⟨s', connects.was_open kept, ?_⟩
    rw [delivered.on, on_congr connects.log, lastConfig_concat, no_config, Option.none_or]

/-- A message that has been written was written on the connection that was open. -/
theorem open_of_delivered (sound : w.Sound) (kept : w.fd = none → (ensureConnected ctx w).1 = false)
    (result : perform ctx m w = (r, w')) {m' : ClientMessage} (more : w'.log = w.log ++ [(n, m')]) :
    ∃ s, w.Open s n := by
  have longer : w'.log ≠ w.log := by simp [more]
  cases perform_cases sound.settled result with
  | unsent _ log => exact absurd log longer
  | long connects => exact absurd connects.log longer
  | @lost _ _ s' n' connects delivered | @sent _ _ s' n' connects delivered
  | @answered _ _ s' n' _ _ connects delivered =>
    have same := delivered.log.symm.trans more
    rw [connects.log] at same
    obtain rfl : n' = n := by simpa using congrArg (Option.map Prod.fst ∘ List.getLast?) same
    exact ⟨s', connects.was_open kept⟩

end

theorem upToDate_sendConfigToWorker {a : DeviceAgent U} (sound : a.world.Sound)
    (fits : 0 < a.settingsCount → ConfigFits ctx a) : UpToDate (sendConfigToWorker ctx a) where
  sound := sound_sendConfig sound a.extra
  current received _ _ is_open := lastConfig_sendConfig sound (fits received) is_open

theorem pushMetadata_settings (timestampUs : ℤ) (result : Option Json) (a : DeviceAgent U) :
    (pushMetadata random timestampUs result a).settingsCount = a.settingsCount ∧
      (pushMetadata random timestampUs result a).extra = a.extra := by
  unfold pushMetadata
  split
  · simp only
    split <;> exact ⟨rfl, rfl⟩
  · exact ⟨rfl, rfl⟩

theorem configOf_frameMessage {a : DeviceAgent U} {frame : VideoFrame} {m : ClientMessage}
    (is : a.frameMessage frame = some m) : configOf m = none := by
  obtain ⟨_, passed⟩ := passed_of_sent is
  rw [passed.message]
  rfl

theorem push_cases (a : DeviceAgent U) (frame : VideoFrame) :
    (pushUncompressedVideoFrame ctx random frame a).settingsCount = a.settingsCount ∧
    (pushUncompressedVideoFrame ctx random frame a).extra = a.extra ∧
    ((pushUncompressedVideoFrame ctx random frame a).world = a.world ∨
      ∃ m r, DeviceAgent.frameMessage { a with frameCount := a.frameCount + 1 } frame = some m ∧ configOf m = none ∧
        perform ctx m a.world = (r, (pushUncompressedVideoFrame ctx random frame a).world)) := by
  unfold pushUncompressedVideoFrame
  simp only
  cases is : DeviceAgent.frameMessage { a with frameCount := a.frameCount + 1 } frame with
  | none => exact ⟨rfl, rfl, .inl rfl⟩
  | some m =>
    obtain ⟨count, extra⟩ := @pushMetadata_settings U random frame.timestampUs.toInt (perform ctx m a.world).1
      { a with frameCount := a.frameCount + 1, world := (perform ctx m a.world).2 }
    refine ⟨count, extra, .inr ⟨m, (perform ctx m a.world).1, rfl, configOf_frameMessage is, ?_⟩⟩
    rw [pushMetadata_world]

theorem upToDate_step {a a' : DeviceAgent U} {call : Call} (upToDate : UpToDate a)
    (step : Guarded (KeepsConfig ctx) (Calls ctx random) a call a') : UpToDate a' := by
  obtain ⟨keeps, rfl⟩ := step
  cases call with
  | settingsReceived parsed => exact upToDate_sendConfigToWorker upToDate.sound fun _ => keeps
  | engineSettingsReceived newRuntime newDevice newWorkerCount =>
    simp only [DeviceAgent.call, engineSettingsReceived]
    split
    next changed => exact upToDate_sendConfigToWorker upToDate.sound fun received => keeps received changed
    next => exact upToDate
  | onEngineConfigChanged => exact upToDate_sendConfigToWorker upToDate.sound keeps
  | pushUncompressedVideoFrame frame =>
    obtain ⟨count, extra, same | ⟨m, r, is, no_config, result⟩⟩ := @push_cases U ctx random a frame
    · refine ⟨same ▸ upToDate.sound, fun received s n is_open => ?_⟩
      rw [DeviceAgent.call] at received is_open ⊢
      rw [same] at is_open ⊢
      rw [extra]
      exact upToDate.current (count ▸ received) s n is_open
    · refine ⟨sound_perform upToDate.sound result, fun received s n is_open => ?_⟩
      rw [DeviceAgent.call, count] at received
      obtain ⟨s', was_open, last⟩ := lastConfig_perform upToDate.sound no_config
        (keeps received (by simp [is])) result is_open
      exact last.trans ((upToDate.current received s' n was_open).trans (congrArg some extra.symm))

/-! ## Runs -/

theorem upToDate_create (engine : EngineSettings) (clock : ℕ) (script : List (ℕ × Outcome)) :
    UpToDate (DeviceAgent.create ctx engine { clock, script } : DeviceAgent U) where
  sound := sound_create engine clock script
  current received := absurd received (Nat.lt_irrefl 0)

/-- If no frame call opens a connection by itself once there are settings, and no config
    is too long for the connection it is sent on, then every frame that the worker gets
    comes behind the config that the current settings make, on the same connection. -/
theorem frames_behind_current_config (ctx : Context) (random : ℕ → U) (engine : EngineSettings)
    (clock : ℕ) (script : List (ℕ × Outcome)) {calls : List Call} {a a' : DeviceAgent U} {frame : VideoFrame}
    (run : Run (Guarded (KeepsConfig ctx) (Calls ctx random))
      (DeviceAgent.create ctx engine { clock, script }) calls a)
    (pushed : Guarded (KeepsConfig ctx) (Calls ctx random) a (.pushUncompressedVideoFrame frame) a')
    (received : 0 < a.settingsCount) {n : ℕ} {m : ClientMessage}
    (handled : a'.world.log = a.world.log ++ [(n, m)]) : lastConfig (a.world.on n) = some a.extra := by
  have upToDate : UpToDate a := run.invariant
    (fun _ _ _ upToDate step => upToDate_step upToDate step) (upToDate_create engine clock script)
  obtain ⟨keeps, rfl⟩ := pushed
  obtain ⟨-, -, same | ⟨m', r, is, -, result⟩⟩ := @push_cases U ctx random a frame
  · rw [DeviceAgent.call, same] at handled
    simp at handled
  · obtain ⟨s, is_open⟩ := open_of_delivered upToDate.sound (keeps received (by simp [is])) result handled
    exact upToDate.current received s n is_open

/-! ## An example -/

/-- A client whose replies never come. -/
def silentContext : Context where
  dump := dumpText
  parse _ := none
  socketPath := []
  cameraUuid := "cam"
  peer _ _ := []

def smallEngine : EngineSettings := ⟨"onnx", "cpu", 1⟩

/-- Opening a connection takes three system calls, with the one for the time, and sending
    a message takes two or three; the reply to a frame is lost. -/
def lossyScript : List (ℕ × Outcome) :=
  List.replicate 10 (1, .done 999) ++ [(1, .fail)] ++ List.replicate 6 (1, .done 999)

def smallStart : DeviceAgent ℕ :=
  DeviceAgent.create silentContext smallEngine { clock := 0, script := lossyScript }

/-- The agent once it has got its settings. -/
def smallSet : DeviceAgent ℕ := smallStart.call silentContext id (.settingsReceived {})

/-- The agent after a frame whose reply was lost. -/
def smallLost : DeviceAgent ℕ := smallSet.call silentContext id (.pushUncompressedVideoFrame smallVideoFrame)

theorem sound_smallStart : smallStart.world.Sound := (upToDate_create smallEngine 0 lossyScript).sound

/-- What has been written is told from the numbers of the connections. -/
theorem push_log {a : DeviceAgent U} (sound : a.world.Sound) (frame : VideoFrame) {n : ℕ}
    (numbers : (pushUncompressedVideoFrame ctx random frame a).world.log.map Prod.fst =
      a.world.log.map Prod.fst ++ [n]) :
    ∃ m, (pushUncompressedVideoFrame ctx random frame a).world.log = a.world.log ++ [(n, m)] := by
  obtain ⟨-, -, same | ⟨m, r, -, -, result⟩⟩ := @push_cases U ctx random a frame
  · rw [same] at numbers
    simp at numbers
  · obtain same | ⟨n', more⟩ := perform_log sound.settled result
    · rw [same] at numbers
      simp at numbers
    · refine ⟨m, ?_⟩
      rw [more] at numbers ⊢
      obtain rfl : n' = n := by simpa using numbers
      rfl

/-- The first frame. -/
theorem frames_behind_current_config_small :
    lastConfig (smallSet.world.on 0) = some (configExtra {} smallEngine) := by
  have connected : smallSet.world.fd ≠ none := by decide +kernel
  have run : Run (Guarded (KeepsConfig silentContext) (Calls silentContext id)) smallStart
      [.settingsReceived {}] smallSet := by
    refine .cons ⟨fun _ => ?_, rfl⟩ (.nil _)
    decide +kernel
  have sound : smallSet.world.Sound := sound_call sound_smallStart _
  obtain ⟨m, handled⟩ := @push_log _ silentContext id _ sound smallVideoFrame 0 (by decide +kernel)
  exact frames_behind_current_config silentContext id smallEngine 0 lossyScript run
    ⟨fun _ _ closed => absurd closed connected, rfl⟩ (by decide +kernel) handled

/-- The reply to a frame is lost, and the next frame opens a connection on which there is
    no config. -/
theorem frame_without_config : ∃ (calls : List Call) (a a' : DeviceAgent ℕ) (frame : VideoFrame) (n : ℕ)
    (m : ClientMessage), Run (Calls silentContext id) smallStart calls a ∧
      Calls silentContext id a (.pushUncompressedVideoFrame frame) a' ∧ 0 < a.settingsCount ∧
      a'.world.log = a.world.log ++ [(n, m)] ∧ lastConfig (a.world.on n) ≠ some a.extra := by
  have run : Run (Calls silentContext id) smallStart
      [.settingsReceived {}, .pushUncompressedVideoFrame smallVideoFrame] smallLost :=
    .cons rfl (.cons rfl (.nil _))
  have sound : smallLost.world.Sound := sound_call (sound_call sound_smallStart _) _
  obtain ⟨m, handled⟩ := @push_log _ silentContext id _ sound smallVideoFrame 1 (by decide +kernel)
  have unconfigured : (lastConfig (smallLost.world.on 1)).isNone = true := by decide +kernel
  refine ⟨_, smallLost, _, smallVideoFrame, 1, m, run, rfl, by decide +kernel, handled, ?_⟩
  rw [Option.isNone_iff_eq_none.mp unconfigured]
  exact nofun

end VisionNx.Agent
