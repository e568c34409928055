import Mathlib.Data.List.Perm.Basic
import Mathlib.Data.List.Nodup
import Mathlib.Data.List.ReduceOption
import Mathlib.Logic.Equiv.Basic

/-! # Rearranged lists

`Rearranges σ l l'` says of two lists where each element of the first stands in the
second: element `i` of `l` is element `σ i` of `l'`.  Unlike `List.Perm` it tells equal
elements apart, so that what becomes of the elements at one position can be followed
through several lists that are rearranged alike.  A permutation of lists is a
rearrangement for some `σ`, and the other way round.
-/

namespace Rearrangements

variable {α β γ : Type*}

/-- Element `i` of `l` is element `σ i` of `l'`. -/
def Rearranges (σ : Equiv.Perm ℕ) (l l' : List α) : Prop :=
  ∀ i, l'[σ i]? = l[i]?

section

variable {σ : Equiv.Perm ℕ} {l l' : List α} {k k' : List β}

theorem Rearranges.lt_length_iff (rearranged : Rearranges σ l l') (i : ℕ) :
    σ i < l'.length ↔ i < l.length := by
  have same := congrArg Option.isSome (rearranged i)
  simpa using congrArg (· = true) same

theorem Rearranges.perm (rearranged : Rearranges σ l l') : l.Perm l' := by
  have whole : ∀ m : List α, (List.range m.length).map (m[·]?) = m.map some := by
    intro m
    apply List.ext_getElem?
    intro i
    by_cases hi : i < m.length
    · simp [hi]
    · simp [hi]
  -- `σ` takes the positions of `l` to those of `l'`.
  have positions : ((List.range l.length).map σ).Perm (List.range l'.length) := by
    refine (List.perm_ext_iff_of_nodup (List.nodup_range.map σ.injective) List.nodup_range).mpr fun j => ?_
    rw [List.mem_map, List.mem_range]
    constructor
    · rintro ⟨i, hi, rfl⟩
      exact (rearranged.lt_length_iff i).mpr (List.mem_range.mp hi)
    · intro hj
      refine ⟨σ.symm j, List.mem_range.mpr ?_, σ.apply_symm_apply j⟩
      rw [← rearranged.lt_length_iff, σ.apply_symm_apply]
      exact hj
  have entries := positions.map (l'[·]?)
  rw [List.map_map, whole] at entries
  have along : (List.range l.length).map ((l'[·]?) ∘ σ) = l.map some := by
    rw [← whole l]
    exact List.map_congr_left fun i _ => rearranged i
  rw [along] at entries
  simpa [List.filterMap_map] using entries.filterMap id

theorem Rearranges.length_eq (rearranged : Rearranges σ l l') : l'.length = l.length :=
  rearranged.perm.length_eq.symm

theorem Rearranges.symm (rearranged : Rearranges σ l l') : Rearranges σ.symm l' l := by
  intro i
  rw [← rearranged (σ.symm i), σ.apply_symm_apply]

theorem Rearranges.map (rearranged : Rearranges σ l l') (f : α → β) :
    Rearranges σ (l.map f) (l'.map f) := by
  intro i
  rw [List.getElem?_map, List.getElem?_map, rearranged i]

theorem Rearranges.zip (rearranged : Rearranges σ l l') (alike : Rearranges σ k k') :
    Rearranges σ (l.zip k) (l'.zip k') := by
  intro i
  rw [List.zip_eq_zipWith, List.zip_eq_zipWith, List.getElem?_zipWith, List.getElem?_zipWith, rearranged i, alike i]

end

/-! ## From permutations -/

/-- `σ` behind a first position that stays. -/
def behindFirst (σ : Equiv.Perm ℕ) : Equiv.Perm ℕ where
  toFun
    | 0 => 0
    | i + 1 => σ i + 1
  invFun
    | 0 => 0
    | i + 1 => σ.symm i + 1
  left_inv i := by cases i <;> simp
  right_inv i := by cases i <;> simp

theorem exists_rearranges {l l' : List α} (perm : l.Perm l') : ∃ σ, Rearranges σ l l' := by
  induction perm with
  | nil => exact ⟨Equiv.refl ℕ, fun _ => rfl⟩
  | cons a _ ih =>
    obtain ⟨σ, rearranged⟩ := ih
    refine ⟨behindFirst σ, fun i => ?_⟩
    cases i with
    | zero => rfl
    | succ i => simpa [behindFirst] using rearranged i
  | swap a b l =>
    refine ⟨Equiv.swap 0 1, fun i => ?_⟩
    match i with
    | 0 => simp
    | 1 => simp
    | i + 2 => rw [Equiv.swap_apply_of_ne_of_ne (by omega) (by omega)]; rfl
  | trans _ _ ih ih' =>
    obtain ⟨σ, rearranged⟩ := ih
    obtain ⟨τ, rearranged'⟩ := ih'
    exact ⟨σ.trans τ, fun i => (rearranged' (σ i)).trans (rearranged i)⟩

end Rearrangements
