import Mathlib.Data.List.Basic
import Mathlib.Logic.Function.Basic
import VisionNx.Library.TransitionRuns

/-! # Agents that come and go

Agents register with the engine when they are made and unregister when they are destroyed.
`broadcastEngineConfig` calls those that it finds registered, but from a copy of the list
that it goes through without the mutex. -/

namespace VisionNx.Agent

open TransitionRuns

/-! ## The engine -/

inductive Lifetime where
  | unmade
  | registered
  /-- in the destructor, which unregisters the agent before anything else -/
  | unregistered
  | destroyed
  deriving DecidableEq

/-- `m_agents` and the calls of `broadcastEngineConfig` that are running, each with what is
    left of its copy.  Agents are numbered, and no number is used again.  `called` is only
    a record: the agents that were called, with what had become of them. -/
structure Registry where
  agents : List ℕ := []
  lifetime : ℕ → Lifetime := fun _ => .unmade
  broadcasts : ℕ → Option (List ℕ) := fun _ => none
  called : List (ℕ × Lifetime) := []

inductive RegistryAction where
  | registerAgent (agent : ℕ)
  | unregisterAgent (agent : ℕ)
  | destroyed (agent : ℕ)
  | snapshot (broadcast : ℕ)
  | onEngineConfigChanged (broadcast : ℕ)
  | broadcasted (broadcast : ℕ)

/-- The locked sections and the calls, in any order. -/
inductive RegistryStep : Registry → RegistryAction → Registry → Prop where
  | registerAgent {s agent} (unmade : s.lifetime agent = .unmade) :
      RegistryStep s (.registerAgent agent)
        { s with
          agents := s.agents ++ [agent]
          lifetime := Function.update s.lifetime agent .registered }
  | unregisterAgent {s agent} (registered : s.lifetime agent = .registered) :
      RegistryStep s (.unregisterAgent agent)
        { s with
          agents := s.agents.filter (· ≠ agent)
          lifetime := Function.update s.lifetime agent .unregistered }
  | destroyed {s agent} (unregistered : s.lifetime agent = .unregistered) :
      RegistryStep s (.destroyed agent) { s with lifetime := Function.update s.lifetime agent .destroyed }
  | snapshot {s broadcast} (idle : s.broadcasts broadcast = none) :
      RegistryStep s (.snapshot broadcast)
        { s with broadcasts := Function.update s.broadcasts broadcast (some s.agents) }
  | onEngineConfigChanged {s broadcast agent rest} (next : s.broadcasts broadcast = some (agent :: rest)) :
      RegistryStep s (.onEngineConfigChanged broadcast)
        { s with
          broadcasts := Function.update s.broadcasts broadcast (some rest)
          called := s.called ++ [(agent, s.lifetime agent)] }
  | broadcasted {s broadcast} (finished : s.broadcasts broadcast = some []) :
      RegistryStep s (.broadcasted broadcast)
        { s with broadcasts := Function.update s.broadcasts broadcast none }

/-- No agent unregisters while a broadcast has yet to call it. -/
def NotAwaited (s : Registry) : RegistryAction → Prop
  | .unregisterAgent agent => ∀ broadcast rest, s.broadcasts broadcast = some rest → agent ∉ rest
  | _ => True

/-! ## The invariant -/

/-- All that is or will be called is registered. -/
structure AllRegistered (s : Registry) : Prop where
  agents : ∀ agent ∈ s.agents, s.lifetime agent = .registered
  awaited : ∀ broadcast rest, s.broadcasts broadcast = some rest →
    ∀ agent ∈ rest, s.lifetime agent = .registered
  called : ∀ call ∈ s.called, call.2 = .registered

variable {s s' : Registry}

/-- What becomes of one agent is no matter to the others. -/
theorem registered_update {agent agent' : ℕ} {lifetime : Lifetime} (registered : s.lifetime agent' = .registered)
    (other : agent' ≠ agent) : Function.update s.lifetime agent lifetime agent' = .registered := by
  rw [Function.update_of_ne other]
  exact registered

/-- An agent that is not registered is no matter to those that are. -/
theorem registered_keeps {agent agent' : ℕ} {lifetime : Lifetime} (unregistered : s.lifetime agent ≠ .registered)
    (registered : s.lifetime agent' = .registered) : Function.update s.lifetime agent lifetime agent' = .registered :=
  registered_update registered fun same => unregistered (same ▸ registered)

/-- A step of one broadcast. -/
theorem awaited_update {broadcast : ℕ} {after : Option (List ℕ)} (all : AllRegistered s)
    (own : ∀ rest, after = some rest → ∀ agent ∈ rest, s.lifetime agent = .registered)
    (broadcast' : ℕ) (rest : List ℕ) (running : Function.update s.broadcasts broadcast after broadcast' = some rest) :
    ∀ agent ∈ rest, s.lifetime agent = .registered := by
  by_cases same : broadcast' = broadcast
  · subst same
    rw [Function.update_self] at running
    exact own rest running
  · rw [Function.update_of_ne same] at running
    exact all.awaited broadcast' rest running

theorem allRegistered_step {action : RegistryAction} (all : AllRegistered s)
    (step : Guarded NotAwaited RegistryStep s action s') : AllRegistered s' := by
  obtain ⟨not_awaited, step⟩ := step
  cases step with
  | @registerAgent agent unmade =>
    have unregistered : s.lifetime agent ≠ .registered := by
      rw [unmade]
      exact Lifetime.noConfusion
    refine ⟨fun agent' mem => ?_, fun broadcast rest running agent' mem =>
      registered_keeps unregistered (all.awaited broadcast rest running agent' mem), all.called⟩
    cases List.mem_append.mp mem with
    | inl old => exact registered_keeps unregistered (all.agents agent' old)
    | inr new =>
      obtain rfl := List.mem_singleton.mp new
      exact Function.update_self ..
  | @unregisterAgent agent registered =>
    refine ⟨fun agent' mem => ?_, fun broadcast rest running agent' mem => ?_, all.called⟩
    · obtain ⟨mem, other⟩ := List.mem_filter.mp mem
      exact registered_update (all.agents agent' mem) (of_decide_eq_true other)
    · refine registered_update (all.awaited broadcast rest running agent' mem) ?_
      rintro rfl
      exact not_awaited broadcast rest running mem
  | @destroyed agent is_unregistered =>
    have unregistered : s.lifetime agent ≠ .registered := by
      rw [is_unregistered]
      exact Lifetime.noConfusion
    exact ⟨fun agent' mem => registered_keeps unregistered (all.agents agent' mem), fun broadcast rest running agent' mem =>
      registered_keeps unregistered (all.awaited broadcast rest running agent' mem), all.called⟩
  | snapshot =>
    refine ⟨all.agents, awaited_update all fun rest is => ?_, all.called⟩
    cases is
    exact all.agents
  | @onEngineConfigChanged broadcast agent rest next =>
    have awaited := all.awaited broadcast (agent :: rest) next
    refine ⟨all.agents, awaited_update all fun rest' is => ?_, fun call mem => ?_⟩
    · cases is
      exact fun agent' mem => awaited agent' (List.mem_cons_of_mem agent mem)
    · cases List.mem_append.mp mem with
      | inl earlier => exact all.called call earlier
      | inr now =>
        obtain rfl := List.mem_singleton.mp now
        exact awaited agent (List.mem_cons_self ..)
  | broadcasted => exact ⟨all.agents, awaited_update all nofun, all.called⟩

/-! ## Runs -/

theorem allRegistered_start : AllRegistered {} := ⟨nofun, nofun, nofun⟩

/-- If no agent unregisters while a broadcast has yet to call it, every agent is
    registered when it is called. -/
theorem called_while_registered {actions : List RegistryAction} {s : Registry}
    (run : Run (Guarded NotAwaited RegistryStep) {} actions s) : ∀ call ∈ s.called, call.2 = .registered :=
  (run.invariant (fun _ _ _ all step => allRegistered_step all step) allRegistered_start).called

def oneRegistered : Registry where
  agents := [7]
  lifetime := Function.update (fun _ => .unmade) 7 .registered

/-- A broadcast has copied the list. -/
def oneAwaited : Registry := { oneRegistered with broadcasts := Function.update (fun _ => none) 0 (some [7]) }

/-- The agent has been destroyed since. -/
def oneDestroyed : Registry :=
  { oneAwaited with
    agents := []
    lifetime := Function.update (Function.update oneAwaited.lifetime 7 .unregistered) 7 .destroyed }

theorem run_oneAwaited :
    Run (Guarded NotAwaited RegistryStep) {} [.registerAgent 7, .snapshot 0] oneAwaited := by
  have registered : Guarded NotAwaited RegistryStep {} (.registerAgent 7) oneRegistered :=
    ⟨trivial, .registerAgent rfl⟩
  have copied : Guarded NotAwaited RegistryStep oneRegistered (.snapshot 0) oneAwaited :=
    ⟨trivial, .snapshot rfl⟩
  exact .cons registered (.cons copied (.nil _))

/-- A broadcast calls the one agent there is. -/
theorem called_while_registered_once : ∃ s call,
    Run (Guarded NotAwaited RegistryStep) {} [.registerAgent 7, .snapshot 0, .onEngineConfigChanged 0] s ∧
      call ∈ s.called ∧ call.2 = .registered := by
  have called : Guarded NotAwaited RegistryStep oneAwaited (.onEngineConfigChanged 0) _ :=
    ⟨trivial, @RegistryStep.onEngineConfigChanged oneAwaited 0 7 [] rfl⟩
  have run := run_oneAwaited.append (.cons called (.nil _))
  exact ⟨_, (7, .registered), run, List.mem_singleton_self _, called_while_registered run _ (List.mem_singleton_self _)⟩

/-- The agent is destroyed after a broadcast has copied the list, and then it is called. -/
theorem destroyed_agent_called : ∃ actions s, Run RegistryStep {} actions s ∧
    ∃ call ∈ s.called, call.2 = .destroyed := by
  have unregistered := @RegistryStep.unregisterAgent oneAwaited 7 rfl
  have destroyed : RegistryStep _ (.destroyed 7) oneDestroyed :=
    @RegistryStep.destroyed
      { oneAwaited with agents := [], lifetime := Function.update oneAwaited.lifetime 7 .unregistered } 7 rfl
  have called := @RegistryStep.onEngineConfigChanged oneDestroyed 0 7 [] rfl
  exact ⟨_, _, run_oneAwaited.of_guarded.append (.cons unregistered (.cons destroyed (.cons called (.nil _)))),
    _, List.mem_singleton_self _, rfl⟩

end VisionNx.Agent
