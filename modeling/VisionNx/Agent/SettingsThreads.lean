import Mathlib.Logic.Function.Basic
import VisionNx.Agent.DeviceAgent
import VisionNx.Library.PartialCopies

/-! # Settings from several threads

The server delivers the settings of a camera on one thread and those of the engine on
another, and both end in `sendConfigToWorker`.  It copies what it needs in several
sections, each under a mutex, and sends the config when it holds none.  Two calls can
send in another order than they copied in, and a call can copy from two settings. -/

namespace VisionNx.Agent

open TransitionRuns PartialCopies

/-! ## The threads -/

/-- The sections of `sendConfigToWorker`, in their order. -/
inductive Section where
  | settings
  | runtime
  | device
  | workerCount
  | tracker
  deriving DecidableEq

/-- A call of `sendConfigToWorker`: the sections that are left, and its local variables.
    `since` is only a record: the number of changes that the first section came after. -/
structure Sending where
  todo : List Section := [.settings, .runtime, .device, .workerCount, .tracker]
  since : ℕ := 0
  camera : CameraSettings := {}
  engine : EngineSettings := ⟨"", "", 1⟩

/-- What one section copies.  The getters of the engine are only called for what the
    camera leaves empty. -/
def Sending.copy (camera : CameraSettings) (engine : EngineSettings) (changes : ℕ) (c : Sending) :
    Section → Sending
  | .settings =>
    { c with
      since := changes
      camera := { camera with trackMaxAge := c.camera.trackMaxAge, trackClassMatch := c.camera.trackClassMatch } }
  | .runtime => if c.camera.runtime = "" then { c with engine := { c.engine with runtime := engine.runtime } } else c
  | .device => if c.camera.device = "" then { c with engine := { c.engine with device := engine.device } } else c
  | .workerCount => { c with engine := { c.engine with workerCount := engine.workerCount } }
  | .tracker =>
    { c with
      camera := { c.camera with trackMaxAge := camera.trackMaxAge, trackClassMatch := camera.trackClassMatch } }

def Sending.message (c : Sending) : List (String × Json) := configExtra c.camera c.engine

/-- The settings of an agent and its engine, and the calls that are running.  The lists
    and `changes` are only a record: the settings so far, the configs with the `since` of
    their calls, and how often settings were written. -/
structure Threads where
  camera : CameraSettings := {}
  engine : EngineSettings
  calls : ℕ → Option Sending := fun _ => none
  sent : List (ℕ × List (String × Json)) := []
  cameras : List CameraSettings := [camera]
  engines : List EngineSettings := [engine]
  changes : ℕ := 0

inductive ThreadAction where
  | settingsReceived (call : ℕ) (parsed : CameraSettings)
  | engineSettingsReceived (call : ℕ) (newRuntime newDevice : String) (newWorkerCount : ℤ)
  | onEngineConfigChanged (call : ℕ)
  | copy (call : ℕ)
  | send (call : ℕ)

/-- The steps of the threads, in any order.  Those that write settings are the locked
    part of a call, which goes on with `sendConfigToWorker`. -/
inductive ThreadStep : Threads → ThreadAction → Threads → Prop where
  | settingsReceived {s call parsed} (idle : s.calls call = none) :
      ThreadStep s (.settingsReceived call parsed)
        { s with
          camera := parsed
          cameras := s.cameras ++ [parsed]
          changes := s.changes + 1
          calls := Function.update s.calls call (some {}) }
  | changed {s : Threads} {call newRuntime newDevice newWorkerCount} (idle : s.calls call = none)
      (changed : (s.engine.receive newRuntime newDevice newWorkerCount).2 = true) :
      ThreadStep s (.engineSettingsReceived call newRuntime newDevice newWorkerCount)
        { s with
          engine := (s.engine.receive newRuntime newDevice newWorkerCount).1
          engines := s.engines ++ [(s.engine.receive newRuntime newDevice newWorkerCount).1]
          changes := s.changes + 1
          calls := Function.update s.calls call (some {}) }
  | unchanged {s : Threads} {call newRuntime newDevice newWorkerCount} (idle : s.calls call = none)
      (same : (s.engine.receive newRuntime newDevice newWorkerCount).2 = false) :
      ThreadStep s (.engineSettingsReceived call newRuntime newDevice newWorkerCount)
        { s with engine := (s.engine.receive newRuntime newDevice newWorkerCount).1 }
  | onEngineConfigChanged {s call} (idle : s.calls call = none) :
      ThreadStep s (.onEngineConfigChanged call) { s with calls := Function.update s.calls call (some {}) }
  | copy {s : Threads} {call c p todo} (running : s.calls call = some c) (next : c.todo = p :: todo) :
      ThreadStep s (.copy call)
        { s with
          calls := Function.update s.calls call (some { c.copy s.camera s.engine s.changes p with todo }) }
  | send {s : Threads} {call c} (running : s.calls call = some c) (ready : c.todo = []) :
      ThreadStep s (.send call)
        { s with
          calls := Function.update s.calls call none
          sent := s.sent ++ [(c.since, c.message)] }

/-! ## What a call has copied -/

/-- What a section copies of the camera's settings. -/
def cameraPart : Section → CameraSettings → CameraSettings
  | .settings, c => { c with trackMaxAge := 0, trackClassMatch := "" }
  | .tracker, c => { trackMaxAge := c.trackMaxAge, trackClassMatch := c.trackClassMatch }
  | _, _ => {}

/-- What a section copies of the engine's settings. -/
def enginePart : Section → EngineSettings → EngineSettings
  | .runtime, e => ⟨e.runtime, "", 0⟩
  | .device, e => ⟨"", e.device, 0⟩
  | .workerCount, e => ⟨"", "", e.workerCount⟩
  | _, _ => ⟨"", "", 0⟩

/-- Whether the call copies anything in a section, as far as it knows. -/
def Sending.Needs (c : Sending) : Section → Prop
  | .runtime => .settings ∈ c.todo ∨ c.camera.runtime = ""
  | .device => .settings ∈ c.todo ∨ c.camera.device = ""
  | _ => True

def Sending.got (c : Sending) : Set Section := {p | p ∉ c.todo ∧ c.Needs p}

def Sending.rest (c : Sending) : Set Section := {p | p ∈ c.todo ∧ c.Needs p}

/-- The sections that are left are the last ones. -/
def Sending.Ordered (c : Sending) : Prop := c.todo <:+ ({} : Sending).todo

variable {camera : CameraSettings} {engine : EngineSettings} {changes : ℕ} {c : Sending} {p : Section}
  {todo : List Section}

theorem Sending.Ordered.cases (ordered : c.Ordered) (next : c.todo = p :: todo) :
    (p, todo) = (.settings, [.runtime, .device, .workerCount, .tracker]) ∨
    (p, todo) = (.runtime, [.device, .workerCount, .tracker]) ∨
    (p, todo) = (.device, [.workerCount, .tracker]) ∨
    (p, todo) = (.workerCount, [.tracker]) ∨ (p, todo) = (.tracker, []) := by
  simpa [Ordered, next, List.suffix_cons_iff] using ordered

theorem Sending.Ordered.copy (ordered : c.Ordered) (next : c.todo = p :: todo) :
    ({ c.copy camera engine changes p with todo } : Sending).Ordered :=
  (List.suffix_cons p todo).trans (next ▸ ordered)

theorem Sending.got_of_fresh (fresh : c.todo = ({} : Sending).todo) : c.got = ∅ := by
  ext p
  cases p <;> simp [Sending.got, fresh]

theorem Sending.copy_cameraPart (q : Section) :
    cameraPart q (c.copy camera engine changes p).camera =
      if q = p then cameraPart p camera else cameraPart q c.camera := by
  cases p <;> cases q <;> simp only [Sending.copy, cameraPart, reduceCtorEq, if_true, if_false] <;>
    split <;> rfl

theorem Sending.copy_enginePart {q : Section} (other : q ≠ p) :
    enginePart q (c.copy camera engine changes p).engine = enginePart q c.engine := by
  cases p <;> cases q <;> simp_all only [Sending.copy, enginePart, ne_eq, not_true_eq_false] <;>
    split <;> rfl

/-- Only the first section changes what the others depend on. -/
theorem Sending.copy_overrides (later : p ≠ .settings) :
    (c.copy camera engine changes p).camera.runtime = c.camera.runtime ∧
      (c.copy camera engine changes p).camera.device = c.camera.device := by
  cases p with
  | settings => exact absurd rfl later
  | runtime | device =>
    simp only [Sending.copy]
    split <;> exact ⟨rfl, rfl⟩
  | workerCount | tracker => exact ⟨rfl, rfl⟩

theorem Sending.needs_copy (ordered : c.Ordered) (next : c.todo = p :: todo) (later : p ≠ .settings) {q : Section} :
    ({ c.copy camera engine changes p with todo } : Sending).Needs q ↔ c.Needs q := by
  obtain ⟨runtime, device⟩ := @Sending.copy_overrides camera engine changes c p later
  have copied : .settings ∉ c.todo ∧ .settings ∉ todo := by
    rcases ordered.cases next with h | h | h | h | h <;> cases h <;> simp_all
  cases q <;> simp [Sending.Needs, runtime, device, copied]

/-- A section that has been copied was so before, or is the one that came next. -/
theorem Sending.got_copy (ordered : c.Ordered) (next : c.todo = p :: todo) {q : Section}
    (got : q ∈ ({ c.copy camera engine changes p with todo } : Sending).got) :
    (q ≠ p ∧ q ∈ c.got) ∨ (q = p ∧ q ∈ c.rest) := by
  obtain ⟨copied, needed⟩ := got
  by_cases first : p = .settings
  · subst first
    rcases ordered.cases next with h | h | h | h | h <;> cases h
    cases q <;> simp_all [Sending.rest, Sending.Needs]
  · rw [Sending.needs_copy ordered next first] at needed
    by_cases same : q = p
    · exact .inr ⟨same, by simp [next, same], needed⟩
    · exact .inl ⟨same, by simp_all, needed⟩

theorem Sending.rest_copy (ordered : c.Ordered) (next : c.todo = p :: todo) :
    ({ c.copy camera engine changes p with todo } : Sending).rest ⊆ c.rest := by
  rintro q ⟨left, needed⟩
  refine ⟨by simp [next, show q ∈ todo from left], ?_⟩
  by_cases first : p = .settings
  · cases q <;> simp [Sending.Needs, next, first]
  · exact (Sending.needs_copy ordered next first).mp needed

theorem Sending.copy_reads_camera (ordered : c.Ordered) (next : c.todo = p :: todo) :
    Reads cameraPart camera c.camera c.got c.rest (c.copy camera engine changes p).camera
      ({ c.copy camera engine changes p with todo } : Sending).got := by
  intro q got
  rw [Sending.copy_cameraPart]
  obtain ⟨other, was_got⟩ | ⟨rfl, was_rest⟩ := Sending.got_copy ordered next got
  · exact .inl ⟨was_got, by rw [if_neg other]⟩
  · exact .inr ⟨was_rest, by rw [if_pos rfl]⟩

theorem Sending.copy_reads_engine (ordered : c.Ordered) (next : c.todo = p :: todo) :
    Reads enginePart engine c.engine c.got c.rest (c.copy camera engine changes p).engine
      ({ c.copy camera engine changes p with todo } : Sending).got := by
  intro q got
  obtain ⟨other, was_got⟩ | ⟨rfl, was_rest⟩ := Sending.got_copy ordered next got
  · exact .inl ⟨was_got, Sending.copy_enginePart other⟩
  · refine .inr ⟨was_rest, ?_⟩
    -- What is needed is not skipped.
    have needed := was_rest.2
    rcases ordered.cases next with h | h | h | h | h <;> cases h <;>
      simp_all [Sending.copy, Sending.Needs, enginePart]

/-! ## The message -/

/-- The two sections copy all settings of the camera. -/
theorem agree_cameraPart {ps : Set Section} {c c' : CameraSettings} (agree : Agree cameraPart ps c c')
    (settings : .settings ∈ ps) (tracker : .tracker ∈ ps) : c = c' := by
  have settings := agree .settings settings
  have tracker := agree .tracker tracker
  cases c
  cases c'
  simp_all [cameraPart]

theorem configExtra_congr {c : CameraSettings} {e e' : EngineSettings}
    (runtime : c.runtime = "" → e.runtime = e'.runtime) (device : c.device = "" → e.device = e'.device)
    (workerCount : e.workerCount = e'.workerCount) : configExtra c e = configExtra c e' := by
  have same_runtime : firstSet c.runtime e.runtime = firstSet c.runtime e'.runtime := by
    unfold firstSet
    split
    next empty => exact runtime empty
    next => rfl
  have same_device : firstSet c.device e.device = firstSet c.device e'.device := by
    unfold firstSet
    split
    next empty => exact device empty
    next => rfl
  simp only [configExtra, same_runtime, same_device, workerCount]

/-- A call that has copied everything sends the config of whatever settings agree with it. -/
theorem Sending.message_eq (ready : c.todo = []) (same_camera : Agree cameraPart c.got c.camera camera)
    (same_engine : Agree enginePart c.got c.engine engine) : c.message = configExtra camera engine := by
  have got : ∀ p, c.Needs p → p ∈ c.got := fun p needed => ⟨by simp [ready], needed⟩
  obtain rfl := agree_cameraPart same_camera (got .settings trivial) (got .tracker trivial)
  refine configExtra_congr (fun empty => ?_) (fun empty => ?_) ?_
  · simpa [enginePart] using same_engine .runtime (got .runtime (.inr empty))
  · simpa [enginePart] using same_engine .device (got .device (.inr empty))
  · simpa [enginePart] using same_engine .workerCount (got .workerCount trivial)

theorem EngineSettings.receive_same {e : EngineSettings} {newRuntime newDevice : String} {newWorkerCount : ℤ}
    (same : (e.receive newRuntime newDevice newWorkerCount).2 = false) :
    (e.receive newRuntime newDevice newWorkerCount).1 = e := by
  simp only [EngineSettings.receive, decide_eq_false_iff_not, not_or] at same ⊢
  obtain ⟨runtime, device, count⟩ := same
  rw [if_neg runtime, if_neg device, not_not.mp count]

/-! ## The order of the configs -/

/-- A config whose copying began before the last change is not sent after one whose
    copying began after it. -/
def InOrder (s : Threads) : ThreadAction → Prop
  | .send call => ∀ c, s.calls call = some c → c.since < s.changes → ∀ m ∈ s.sent, m.1 < s.changes
  | _ => True

/-- If nothing has changed since its first section, a call has copied current values. -/
structure Recent (s : Threads) (c : Sending) : Prop where
  ordered : c.Ordered
  since : c.since ≤ s.changes
  camera : c.since = s.changes → Agree cameraPart c.got c.camera s.camera
  engine : c.since = s.changes → Agree enginePart c.got c.engine s.engine

structure Fresh (s : Threads) : Prop where
  recent : ∀ call c, s.calls call = some c → Recent s c
  sent : ∀ m ∈ s.sent, m.1 ≤ s.changes ∧ (m.1 = s.changes → m.2 = configExtra s.camera s.engine)
  /-- the current settings are still to be sent, or were sent last -/
  last : s.changes = 0 ∨ (∃ call c, s.calls call = some c ∧ (.settings ∈ c.todo ∨ c.since = s.changes)) ∨
    ∃ extra, s.sent.getLast? = some (s.changes, extra)

theorem recent_start (s : Threads) : Recent s {} where
  ordered := List.suffix_refl _
  since := Nat.zero_le _
  camera _ := by simp [Agree, Sending.got_of_fresh]
  engine _ := by simp [Agree, Sending.got_of_fresh]

theorem Recent.write {s s' : Threads} (recent : Recent s c) (later : s.changes < s'.changes) : Recent s' c where
  ordered := recent.ordered
  since := recent.since.trans later.le
  camera same := absurd (same ▸ recent.since) (by omega)
  engine same := absurd (same ▸ recent.since) (by omega)

theorem Recent.congr {s s' : Threads} (recent : Recent s c) (camera : s'.camera = s.camera)
    (engine : s'.engine = s.engine) (changes : s'.changes = s.changes) : Recent s' c where
  ordered := recent.ordered
  since := changes ▸ recent.since
  camera same := camera ▸ recent.camera (same.trans changes)
  engine same := engine ▸ recent.engine (same.trans changes)

theorem Sending.since_copy : (c.copy camera engine changes p).since = if p = .settings then changes else c.since := by
  cases p <;> simp only [Sending.copy, reduceCtorEq, if_true, if_false] <;> split <;> rfl

theorem Recent.copy {s : Threads} (recent : Recent s c) (next : c.todo = p :: todo) :
    Recent s { c.copy s.camera s.engine s.changes p with todo } := by
  -- The first section finds nothing copied, and the others do not change `since`.
  have now : (c.copy s.camera s.engine s.changes p).since = s.changes → p = .settings ∨ c.since = s.changes := by
    rw [Sending.since_copy]
    split
    next first => exact fun _ => .inl first
    next => exact .inr
  have nothing : p = .settings → c.got = ∅ := by
    rintro rfl
    rcases recent.ordered.cases next with h | h | h | h | h <;> cases h
    exact Sending.got_of_fresh next
  refine ⟨recent.ordered.copy next, ?_, fun same => ?_, fun same => ?_⟩
  · rw [Sending.since_copy]
    split
    next => exact le_refl _
    next => exact recent.since
  · refine Agree.read ?_ (Sending.copy_reads_camera recent.ordered next)
    cases now same with
    | inl first => simp [Agree, nothing first]
    | inr same => exact recent.camera same
  · refine Agree.read ?_ (Sending.copy_reads_engine recent.ordered next)
    cases now same with
    | inl first => simp [Agree, nothing first]
    | inr same => exact recent.engine same

/-- A call that will have the current settings still does after its next section. -/
theorem Recent.since_copy_of_pending {s : Threads} (recent : Recent s c) (next : c.todo = p :: todo)
    (pending : .settings ∈ c.todo ∨ c.since = s.changes) :
    (c.copy s.camera s.engine s.changes p).since = s.changes := by
  rw [Sending.since_copy]
  split
  next => rfl
  next later =>
    refine pending.resolve_left fun left => ?_
    rcases recent.ordered.cases next with h | h | h | h | h <;> cases h <;> simp_all

/-! ## A call by itself -/

/-- What is left to copy, with nothing in between. -/
def Sending.copyAll (camera : CameraSettings) (engine : EngineSettings) (changes : ℕ) :
    List Section → Sending → Sending
  | [], c => c
  | p :: todo, c => copyAll camera engine changes todo { c.copy camera engine changes p with todo }

theorem run_copyAll {s : Threads} {call : ℕ} (running : s.calls call = some c) :
    Run ThreadStep s (c.todo.map fun _ => .copy call)
      { s with calls := Function.update s.calls call (some (c.copyAll s.camera s.engine s.changes c.todo)) } := by
  induction todo_eq : c.todo generalizing s c with
  | nil =>
    rw [Sending.copyAll, Function.update_eq_self_iff.mpr running.symm]
    exact .nil s
  | cons p todo ih =>
    have rest := @ih _
      { s with calls := Function.update s.calls call (some { c.copy s.camera s.engine s.changes p with todo }) }
      (Function.update_self ..) rfl
    simp only [Function.update_idem] at rest
    exact .cons (.copy running todo_eq) rest

theorem Recent.copyAll {s : Threads} (recent : Recent s c) (pending : .settings ∈ c.todo ∨ c.since = s.changes) :
    (c.copyAll s.camera s.engine s.changes c.todo).todo = [] ∧
      (c.copyAll s.camera s.engine s.changes c.todo).since = s.changes ∧
      (c.copyAll s.camera s.engine s.changes c.todo).message = configExtra s.camera s.engine := by
  induction todo_eq : c.todo generalizing c with
  | nil =>
    have same : c.since = s.changes := by simpa [todo_eq] using pending
    exact ⟨todo_eq, same, Sending.message_eq todo_eq (recent.camera same) (recent.engine same)⟩
  | cons p todo ih =>
    exact ih (recent.copy todo_eq) (.inr (recent.since_copy_of_pending todo_eq pending)) rfl

/-- `sendConfigToWorker` sends the config of the current settings if nothing interrupts it. -/
theorem run_sendConfig {s : Threads} {call : ℕ} (running : s.calls call = some {}) :
    Run (Guarded InOrder ThreadStep) s (({} : Sending).todo.map (fun _ => .copy call) ++ [.send call])
      { s with
        calls := Function.update s.calls call none
        sent := s.sent ++ [(s.changes, configExtra s.camera s.engine)] } := by
  obtain ⟨ready, since, message⟩ := (recent_start s).copyAll (.inl (by simp))
  have copies : Run (Guarded InOrder ThreadStep) s _ _ := (run_copyAll running).guarded fun action mem s => by
    obtain ⟨p, -, rfl⟩ := List.mem_map.mp mem
    trivial
  generalize Sending.copyAll s.camera s.engine s.changes ({} : Sending).todo {} = c at ready since message copies
  have send := @ThreadStep.send { s with calls := Function.update s.calls call (some c) } call c
    (Function.update_self ..) ready
  simp only [Function.update_idem, since, message] at send
  refine copies.append (.cons ⟨fun c' running stale => ?_, send⟩ (.nil _))
  cases (Function.update_self ..).symm.trans running
  exact absurd since stale.ne

/-! ## Runs -/

/-- A step changes one of the running calls. -/
theorem running_update {calls : ℕ → Option Sending} {Q : Sending → Prop} {call : ℕ} {after : Option Sending}
    (others : ∀ call c, calls call = some c → Q c) (own : ∀ c, after = some c → Q c)
    (call' : ℕ) (c : Sending) (running : Function.update calls call after call' = some c) : Q c := by
  by_cases same : call' = call
  · subst same
    rw [Function.update_self] at running
    exact own c running
  · rw [Function.update_of_ne same] at running
    exact others call' c running

/-- A step that lets a call begin, after a change of the settings. -/
theorem Fresh.write {s s' : Threads} (fresh : Fresh s) {call : ℕ} (changes : s'.changes = s.changes + 1)
    (sent : s'.sent = s.sent) (calls : s'.calls = Function.update s.calls call (some {})) : Fresh s' where
  recent := by
    rw [calls]
    refine running_update (fun call c running => (fresh.recent call c running).write (by omega)) ?_
    intro c is
    cases is
    exact recent_start s'
  sent m mem := by
    have := (fresh.sent m (sent ▸ mem)).1
    exact ⟨by omega, fun same => by omega⟩
  last := .inr (.inl ⟨call, {}, by rw [calls, Function.update_self], .inl (by simp)⟩)

theorem fresh_step {s s' : Threads} {action : ThreadAction} (fresh : Fresh s)
    (step : Guarded InOrder ThreadStep s action s') : Fresh s' := by
  obtain ⟨in_order, step⟩ := step
  cases step with
  | settingsReceived | changed => exact fresh.write rfl rfl rfl
  | unchanged _ same =>
    rw [EngineSettings.receive_same same]
    exact fresh
  | @onEngineConfigChanged call idle =>
    refine ⟨?_, fresh.sent, .inr (.inl ⟨call, {}, by simp, .inl (by simp)⟩)⟩
    refine running_update (fun call c running => (fresh.recent call c running).congr rfl rfl rfl) ?_
    intro c is
    cases is
    exact recent_start _
  | @copy call c p todo running next =>
    have recent := fresh.recent call c running
    refine ⟨?_, fresh.sent, fresh.last.imp_right (Or.imp_left ?_)⟩
    · refine running_update (fun call c running => (fresh.recent call c running).congr rfl rfl rfl) ?_
      intro c' is
      cases is
      exact (recent.copy next).congr rfl rfl rfl
    · rintro ⟨call', c', running', pending⟩
      by_cases same : call' = call
      · subst same
        cases running.symm.trans running'
        exact ⟨call', _, Function.update_self .., .inr (recent.since_copy_of_pending next pending)⟩
      · exact ⟨call', c', (Function.update_of_ne same ..).trans running', pending⟩
  | @send call c running ready =>
    have recent := fresh.recent call c running
    refine ⟨?_, ?_, fresh.last.imp_right fun last => ?_⟩
    · exact running_update (fun call c running => (fresh.recent call c running).congr rfl rfl rfl)
        fun _ ended => absurd ended (Option.some_ne_none _).symm
    · intro m mem
      obtain earlier | now := List.mem_append.mp mem
      · exact fresh.sent m earlier
      · obtain rfl := List.mem_singleton.mp now
        exact ⟨recent.since, fun same => Sending.message_eq ready (recent.camera same) (recent.engine same)⟩
    · by_cases same : c.since = s.changes
      · exact .inr ⟨c.message, by simp [same]⟩
      · -- A stale config only goes out while a call with the current settings is on its way.
        have stale := in_order c running (by have := recent.since; omega)
        cases last with
        | inl pending =>
          obtain ⟨call', c', running', pending⟩ := pending
          refine .inl ⟨call', c', (Function.update_of_ne ?_ ..).trans running', pending⟩
          rintro rfl
          cases running.symm.trans running'
          simp [ready, same] at pending
        | inr sent =>
          obtain ⟨extra, sent⟩ := sent
          exact absurd (stale _ (List.mem_of_getLast? sent)) (lt_irrefl _)

theorem fresh_start (engine : EngineSettings) : Fresh { engine } where
  recent _ _ running := absurd running (Option.some_ne_none _).symm
  sent := nofun
  last := .inl rfl

/-- If no stale config is sent after a newer one, the config that was sent last is the
    one of the final settings once all calls have returned. -/
theorem last_config_is_current (engine : EngineSettings) {actions : List ThreadAction} {s : Threads}
    (run : Run (Guarded InOrder ThreadStep) { engine } actions s) (returned : ∀ call, s.calls call = none) :
    (0 < s.changes → s.sent ≠ []) ∧
      ∀ m, s.sent.getLast? = some m → m.2 = configExtra s.camera s.engine := by
  have fresh : Fresh s := run.invariant (fun _ _ _ fresh step => fresh_step fresh step) (fresh_start engine)
  obtain unchanged | ⟨call, c, running, -⟩ | ⟨extra, sent⟩ := fresh.last
  · refine ⟨by omega, fun m last => ?_⟩
    have := fresh.sent m (List.mem_of_getLast? last)
    exact this.2 (by omega)
  · cases (returned call).symm.trans running
  · refine ⟨fun _ empty => by simp [empty] at sent, fun m last => ?_⟩
    cases sent.symm.trans last
    exact (fresh.sent _ (List.mem_of_getLast? sent)).2 rfl

def cpuEngine : EngineSettings := ⟨"onnx", "cpu", 1⟩

/-- One Apply click for the camera. -/
def cameraApplied : Threads where
  engine := cpuEngine
  cameras := [{}, {}]
  changes := 1
  calls := Function.update (fun _ => none) 0 (some {})

theorem last_config_is_current_once :
    ((0 < 1) → [(1, configExtra {} cpuEngine)] ≠ []) ∧
      ∀ m, [(1, configExtra {} cpuEngine)].getLast? = some m → m.2 = configExtra {} cpuEngine := by
  have applied : Guarded InOrder ThreadStep { engine := cpuEngine } (.settingsReceived 0 {}) cameraApplied :=
    ⟨trivial, .settingsReceived rfl⟩
  refine last_config_is_current cpuEngine (.cons applied (@run_sendConfig cameraApplied 0 rfl)) fun call => ?_
  by_cases same : call = 0 <;> simp [Function.update, same, cameraApplied]

/-- The engine after it has been given another runtime. -/
def engineApplied : Threads where
  engine := (cpuEngine.receive "openvino" "" 1).1
  engines := [cpuEngine, (cpuEngine.receive "openvino" "" 1).1]
  changes := 1
  calls := Function.update (fun _ => none) 0 (some {})

/-- The camera gets a model while the call of the engine is at `c`. -/
def bothApplied (c : Sending) : Threads :=
  { engineApplied with
    camera := { modelPath := "model.onnx" }
    cameras := [{}, { modelPath := "model.onnx" }]
    changes := 2
    calls := Function.update (Function.update (fun _ => none) 0 (some c)) 1 (some {}) }

theorem configExtra_modelPath {c c' : CameraSettings} {e e' : EngineSettings}
    (same : configExtra c e = configExtra c' e') : c.modelPath = c'.modelPath := by
  simp only [configExtra, List.cons_append, List.cons.injEq] at same
  simpa using same.1

/-- The call of the engine has copied everything when the settings of the camera change
    and are sent.  Then it sends the old ones. -/
theorem old_config_sent_last : ∃ actions s, Run ThreadStep { engine := cpuEngine } actions s ∧
    (∀ call, s.calls call = none) ∧ 0 < s.changes ∧
    ∃ m, s.sent.getLast? = some m ∧ m.2 ≠ configExtra s.camera s.engine := by
  have changed : ThreadStep { engine := cpuEngine } (.engineSettingsReceived 0 "openvino" "" 1) engineApplied :=
    .changed rfl (by decide)
  have copies := @run_copyAll {} engineApplied 0 rfl
  obtain ⟨ready, -, message⟩ := (recent_start engineApplied).copyAll (.inl (by simp))
  generalize Sending.copyAll engineApplied.camera engineApplied.engine engineApplied.changes ({} : Sending).todo {} = c
    at copies ready message
  have applied : ThreadStep
      { engineApplied with calls := Function.update engineApplied.calls 0 (some c) }
      (.settingsReceived 1 { modelPath := "model.onnx" }) (bothApplied c) := by
    have step := @ThreadStep.settingsReceived
      { engineApplied with calls := Function.update engineApplied.calls 0 (some c) } 1 { modelPath := "model.onnx" }
      (by simp [engineApplied])
    simpa [engineApplied, bothApplied] using step
  have newer := @run_sendConfig (bothApplied c) 1 rfl
  have older := @ThreadStep.send
    { bothApplied c with
      calls := Function.update (bothApplied c).calls 1 none
      sent := (bothApplied c).sent ++ [(2, configExtra { modelPath := "model.onnx" } engineApplied.engine)] } 0 c
    (by simp [bothApplied]) ready
  refine ⟨_, _, .cons changed (copies.append (.cons applied (newer.of_guarded.append
    (.cons older (.nil _))))), fun call => ?_, Nat.zero_lt_two, (c.since, c.message), by simp, fun same => ?_⟩
  · by_cases first : call = 0 <;> by_cases second : call = 1 <;> simp [Function.update, first, second, bothApplied]
  · have := configExtra_modelPath (message.symm.trans same)
    simp [bothApplied, engineApplied] at this

end VisionNx.Agent
