/-! # Runs of a transition system

A run is a list of actions with the states they lead through.  Invariants are proved
for one step and then hold in every state a run reaches; `Guarded` restricts a system
to the steps that meet a condition on the state before and the action. -/

namespace TransitionRuns

variable {σ : Type u} {α : Type v} {step : σ → α → σ → Prop}

inductive Run (step : σ → α → σ → Prop) : σ → List α → σ → Prop where
  | nil (s : σ) : Run step s [] s
  | cons : step s a s' → Run step s' as s'' → Run step s (a :: as) s''

/-- The steps of `step` whose state and action meet `ok`. -/
def Guarded (ok : σ → α → Prop) (step : σ → α → σ → Prop) (s : σ) (a : α) (s' : σ) : Prop :=
  ok s a ∧ step s a s'

/-- What every step preserves, every run preserves. -/
theorem Run.invariant {I : σ → Prop} (preserved : ∀ s a s', I s → step s a s' → I s')
    {s s' : σ} {as : List α} (run : Run step s as s') (start : I s) : I s' := by
  induction run with
  | nil => exact start
  | cons first _ ih => exact ih (preserved _ _ _ start first)

/-- What every step appends for its action, a run appends for its list of actions. -/
theorem Run.appends {β : Type w} (history : σ → List β) (adds : α → List β) {s s' : σ} {as : List α}
    (run : Run step s as s') (appended : ∀ s a s', step s a s' → history s' = history s ++ adds a) :
    history s' = history s ++ as.flatMap adds := by
  induction run with
  | nil => simp
  | cons first _ ih => rw [ih, appended _ _ _ first, List.flatMap_cons, List.append_assoc]

theorem Run.append {s s' s'' : σ} {as bs : List α} (run : Run step s as s') (run' : Run step s' bs s'') :
    Run step s (as ++ bs) s'' := by
  induction run with
  | nil => exact run'
  | cons first _ ih => exact .cons first (ih run')

theorem Run.of_append {s s'' : σ} {as bs : List α} (run : Run step s (as ++ bs) s'') :
    ∃ s', Run step s as s' ∧ Run step s' bs s'' := by
  induction as generalizing s with
  | nil => exact ⟨s, .nil s, run⟩
  | cons a as ih =>
    cases run with
    | cons first rest =>
      obtain ⟨s', front, back⟩ := ih rest
      exact ⟨s', .cons first front, back⟩

/-- The last step of a run. -/
theorem Run.of_concat {s s'' : σ} {as : List α} {a : α} (run : Run step s (as ++ [a]) s'') :
    ∃ s', Run step s as s' ∧ step s' a s'' := by
  obtain ⟨s', front, back⟩ := run.of_append
  cases back with
  | cons last none_left =>
    cases none_left
    exact ⟨s', front, last⟩

/-- A run of the restricted system is a run of the system. -/
theorem Run.of_guarded {ok : σ → α → Prop} {s s' : σ} {as : List α}
    (run : Run (Guarded ok step) s as s') : Run step s as s' := by
  induction run with
  | nil s => exact .nil s
  | cons first _ ih => exact .cons first.2 ih

theorem Run.guarded {ok : σ → α → Prop} {s s' : σ} {as : List α} (run : Run step s as s')
    (met : ∀ a ∈ as, ∀ s, ok s a) : Run (Guarded ok step) s as s' := by
  induction run with
  | nil s => exact .nil s
  | cons first _ ih =>
    exact .cons ⟨met _ (List.mem_cons_self ..) _, first⟩ (ih fun a mem => met a (List.mem_cons_of_mem _ mem))

/-! ## Termination -/

/-- No run from the state goes on forever. -/
def Terminates (step : σ → α → σ → Prop) (s : σ) : Prop := Acc (fun s' s => ∃ a, step s a s') s

/-- A measure that every step lowers, as long as the states meet `I`. -/
theorem terminates_of_measure {I : σ → Prop} (measure : σ → Nat)
    (lowered : ∀ s a s', I s → step s a s' → (I s' ∧ measure s' < measure s) ∨ Terminates step s') {s : σ}
    (start : I s) : Terminates step s := by
  induction bound : measure s using Nat.strongRecOn generalizing s with
  | _ bound' ih =>
    subst bound
    refine Acc.intro s fun s' stepped => ?_
    obtain ⟨a, first⟩ := stepped
    cases lowered s a s' start first with
    | inl further => exact ih _ further.2 further.1 rfl
    | inr terminates => exact terminates

theorem Terminates.no_infinite_run {s : σ} (terminates : Terminates step s) :
    ¬∃ (states : Nat → σ) (actions : Nat → α), states 0 = s ∧ ∀ i, step (states i) (actions i) (states (i + 1)) := by
  induction terminates with
  | intro s _ ih =>
    rintro ⟨states, actions, rfl, steps⟩
    exact ih (states 1) ⟨actions 0, steps 0⟩
      ⟨fun i => states (i + 1), fun i => actions (i + 1), rfl, fun i => steps (i + 1)⟩

end TransitionRuns
