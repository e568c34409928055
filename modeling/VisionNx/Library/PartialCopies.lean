import Mathlib.Data.Set.Basic

/-! # Copies that are made in parts

A reader copies the parts of a shared value one after the other, and the value may be
written in between.  The copy is still one value of the past if each write either agrees
with what the reader has got, or leaves alone what it has yet to read. -/

namespace PartialCopies

variable {V : Type u} {X : Type v} {P : Type w} {part : P → V → X}

/-- Two values have the same parts, among those in a set. -/
def Agree (part : P → V → X) (ps : Set P) (v v' : V) : Prop := ∀ p ∈ ps, part p v = part p v'

/-- One value of the history has what the copy has got, and what the reader would still get. -/
def Joined (part : P → V → X) (history : List V) (now copy : V) (got rest : Set P) : Prop :=
  ∃ v ∈ history, Agree part got v copy ∧ Agree part rest v now

/-- A part of the new copy is an old one, or it has just been read. -/
def Reads (part : P → V → X) (now copy : V) (got rest : Set P) (copy' : V) (got' : Set P) : Prop :=
  ∀ p ∈ got', (p ∈ got ∧ part p copy' = part p copy) ∨ (p ∈ rest ∧ part p copy' = part p now)

variable {history : List V} {now copy copy' : V} {got rest got' rest' ps : Set P}

@[simp] theorem agree_refl (v : V) : Agree part ps v v := fun _ _ => rfl

theorem Agree.symm {v v' : V} (agree : Agree part ps v v') : Agree part ps v' v :=
  fun p mem => (agree p mem).symm

theorem Agree.trans {v v' v'' : V} (agree : Agree part ps v v') (agree' : Agree part ps v' v'') :
    Agree part ps v v'' := fun p mem => (agree p mem).trans (agree' p mem)

theorem joined_start (current : now ∈ history) (nothing : got = ∅) : Joined part history now copy got rest :=
  ⟨now, current, by simp [Agree, nothing], agree_refl now⟩

theorem Joined.write (joined : Joined part history now copy got rest) {v : V}
    (harmless : Agree part got v copy ∨ Agree part rest now v) :
    Joined part (history ++ [v]) v copy got rest := by
  obtain ⟨v', mem, old, current⟩ := joined
  cases harmless with
  | inl agree => exact ⟨v, by simp, agree, agree_refl v⟩
  | inr same => exact ⟨v', by simp [mem], old, current.trans same⟩

theorem Joined.read (joined : Joined part history now copy got rest)
    (reads : Reads part now copy got rest copy' got') (less : rest' ⊆ rest) :
    Joined part history now copy' got' rest' := by
  obtain ⟨v, mem, old, current⟩ := joined
  refine ⟨v, mem, fun p is_got => ?_, fun p is_rest => current p (less is_rest)⟩
  obtain ⟨was_got, kept⟩ | ⟨was_rest, read⟩ := reads p is_got
  · exact (old p was_got).trans kept.symm
  · exact (current p was_rest).trans read.symm

/-- A copy of the current value stays one while nothing is written. -/
theorem Agree.read (agree : Agree part got copy now) (reads : Reads part now copy got rest copy' got') :
    Agree part got' copy' now := by
  intro p is_got
  obtain ⟨was_got, kept⟩ | ⟨-, read⟩ := reads p is_got
  · exact kept.trans (agree p was_got)
  · exact read

end PartialCopies
