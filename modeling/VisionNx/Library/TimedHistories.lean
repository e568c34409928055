import Mathlib.Data.List.Induction

/-! # Histories of timed events

A history lists events with their times, the oldest first.  `AtEach` states a law that
every entry has to meet together with what is before it, and grows one entry at a time.
`KeepsCooldown` is such a law: events of one kind keep a distance from the most recent
event of another kind. -/

namespace TimedHistories

/-! ## Laws of every entry -/

section

variable {α : Type u} {P : List α → α → Prop} {l : List α} {x : α}

/-- `P` holds of every entry and the entries before it. -/
def AtEach (P : List α → α → Prop) (l : List α) : Prop :=
  ∀ before a after, l = before ++ a :: after → P before a

theorem atEach_nil : AtEach P [] :=
  fun before a after split => absurd split (by simp)

theorem atEach_concat : AtEach P (l ++ [x]) ↔ AtEach P l ∧ P l x := by
  constructor
  · intro each
    refine ⟨fun before a after split => ?_, each l x [] rfl⟩
    exact each before a (after ++ [x]) (by simp [split])
  · rintro ⟨each, last⟩ before a after split
    -- The entry is the last one, or it is one of those before.
    cases after using List.reverseRecOn with
    | nil =>
      obtain ⟨rfl, same⟩ := List.append_inj' split rfl
      cases same
      exact last
    | append_singleton after y _ =>
      rw [← List.cons_append, ← List.append_assoc] at split
      exact each before a after (List.append_inj' split rfl).1

end

/-! ## The most recent event of a kind -/

section

variable {T : Type u} {α : Type v} {p q : α → Bool} {h h' : List (T × α)} {e : T × α}

/-- The most recent event of the kind `p`, with its time. -/
def mostRecent (p : α → Bool) (h : List (T × α)) : Option (T × α) := (h.filter fun e => p e.2).getLast?

@[simp] theorem mostRecent_nil : mostRecent p ([] : List (T × α)) = none := rfl

theorem mostRecent_mem (found : mostRecent p h = some e) : e ∈ h :=
  (List.mem_filter.mp (List.mem_of_getLast? found)).1

theorem mostRecent_kind (found : mostRecent p h = some e) : p e.2 = true :=
  (List.mem_filter.mp (List.mem_of_getLast? found)).2

theorem mostRecent_append : mostRecent p (h ++ h') = (mostRecent p h').or (mostRecent p h) := by
  simp [mostRecent, List.filter_append]

theorem mostRecent_append_of_not (other : ∀ e ∈ h', p e.2 = false) :
    mostRecent p (h ++ h') = mostRecent p h := by
  have none_there : h'.filter (fun e => p e.2) = [] := by
    apply List.filter_eq_nil_iff.mpr
    intro e mem
    simp [other e mem]
  rw [mostRecent_append, mostRecent, none_there]
  rfl

theorem mostRecent_concat (kind : p e.2 = true) : mostRecent p (h ++ [e]) = some e := by
  simp [mostRecent, kind]

/-- The most recent event is among the new ones, or it is the one from before. -/
theorem mostRecent_append_cases (found : mostRecent p (h ++ h') = some e) : e ∈ h' ∨ mostRecent p h = some e := by
  rw [mostRecent_append, Option.or_eq_some_iff] at found
  obtain new | ⟨-, old⟩ := found
  · exact .inl (mostRecent_mem new)
  · exact .inr old

/-! ## Cooldowns -/

variable [Add T] [LE T] {gap : T}

/-- Every event of the kind `q` comes at least `gap` after the most recent one of the kind `p`. -/
def KeepsCooldown (gap : T) (p q : α → Bool) (h : List (T × α)) : Prop :=
  AtEach (fun before e => q e.2 = true → ∀ last ∈ mostRecent p before, last.1 + gap ≤ e.1) h

theorem keepsCooldown_nil : KeepsCooldown gap p q [] := atEach_nil

theorem keepsCooldown_concat :
    KeepsCooldown gap p q (h ++ [e]) ↔
      KeepsCooldown gap p q h ∧ (q e.2 = true → ∀ last ∈ mostRecent p h, last.1 + gap ≤ e.1) :=
  atEach_concat

theorem keepsCooldown_append_of_not (other : ∀ e ∈ h', q e.2 = false) :
    KeepsCooldown gap p q (h ++ h') ↔ KeepsCooldown gap p q h := by
  induction h' using List.reverseRecOn with
  | nil => rw [List.append_nil]
  | append_singleton h' e ih =>
    have last : q e.2 = false := other e (by simp)
    rw [← List.append_assoc, keepsCooldown_concat, ih fun e mem => other e (by simp [mem])]
    simp [last]

end

end TimedHistories
