import Mathlib.Data.List.Nodup
import Mathlib.Data.List.Zip

/-! # Parallel arrays

A program that keeps the fields of its records in arrays of their own selects from all of
them with one mask, and later reads them at one index.  The arrays stay aligned: they are
at all times the fields of one list of records, which the mask filters and the indices
pick from. -/

namespace ParallelArrays

variable {α β γ : Type*}

/-- The elements at the places where the mask is set. -/
def masked (mask : List Bool) (xs : List α) : List α := ((mask.zip xs).filter Prod.fst).map Prod.snd

/-- Masking a field is filtering the records. -/
theorem masked_map (p : α → Bool) (f : α → β) (records : List α) :
    masked (records.map p) (records.map f) = (records.filter p).map f := by
  induction records with
  | nil => rfl
  | cons a records ih =>
    rw [masked] at ih ⊢
    cases selected : p a with
    | true => simp [selected, ih]
    | false => simp [selected, ih]

theorem masked_map_self (p : α → Bool) (records : List α) : masked (records.map p) records = records.filter p := by
  have read := masked_map p id records
  rwa [List.map_id, List.map_id] at read

/-- Two masks of the same records, taken together. -/
theorem zipWith_and_map (p q : α → Bool) (records : List α) :
    List.zipWith (· && ·) (records.map p) (records.map q) = records.map fun a => p a && q a := by
  rw [List.zipWith_map, List.zipWith_self]

theorem any_map_id (p : α → Bool) (records : List α) : (records.map p).any id = records.any p := by
  rw [List.any_map, Function.id_comp]

/-! ## Picking -/

/-- The records at the given places. -/
def picked (records : List α) (places : List ℕ) : List α := places.filterMap (records[·]?)

theorem picked_range (records : List α) : picked records (List.range records.length) = records := by
  have found : (List.range records.length).map (records[·]?) = records.map some := by
    apply List.ext_getElem?
    intro i
    by_cases inside : i < records.length
    · simp [inside]
    · simp [inside]
  have read := congrArg (List.filterMap id) found
  rw [List.filterMap_map, List.filterMap_map] at read
  simpa [picked] using read

/-- A field that every record has can be read before or after picking. -/
theorem picked_filterMap {f : α → Option β} {records : List α} (total : ∀ a ∈ records, (f a).isSome) (places : List ℕ) :
    picked (records.filterMap f) places = (picked records places).filterMap f := by
  have aligned : ∀ i : ℕ, (records.filterMap f)[i]? = records[i]?.bind f := by
    induction records with
    | nil => simp
    | cons a records ih =>
      obtain ⟨here, later⟩ := List.forall_mem_cons.mp total
      obtain ⟨b, value⟩ := Option.isSome_iff_exists.mp here
      intro i
      rw [List.filterMap_cons_some value]
      cases i with
      | zero => simp [value]
      | succ i => simpa using ih later i
  rw [picked, picked, List.filterMap_filterMap]
  exact List.filterMap_congr fun i _ => aligned i

theorem mem_of_mem_picked {records : List α} {places : List ℕ} {a : α} (mem : a ∈ picked records places) :
    a ∈ records := by
  obtain ⟨i, -, here⟩ := List.mem_filterMap.mp mem
  exact List.mem_of_getElem? here

/-- Different places hold different records if no record is there twice. -/
theorem picked_nodup {records : List α} (distinct : records.Nodup) {places : List ℕ} (once : places.Nodup) :
    (picked records places).Nodup := by
  refine once.filterMap fun i j a here here' => ?_
  exact (List.getElem?_inj (List.getElem?_eq_some_iff.mp here).1 distinct).mp (here.trans here'.symm)

/-- What a partial function leaves of a list, record by record. -/
theorem forall₂_filterMap (f : α → Option β) (l : List α) :
    List.Forall₂ (fun a b => f a = some b) (l.filter fun a => (f a).isSome) (l.filterMap f) := by
  induction l with
  | nil => exact .nil
  | cons a l ih =>
    cases value : f a with
    | none => simpa [value] using ih
    | some b =>
      rw [List.filter_cons_of_pos (by simp [value]), List.filterMap_cons_some value]
      exact .cons value ih

/-- Picking in a monad that fails outside the list. -/
theorem mapM_getElem? {records : List α} {places : List ℕ} (inside : ∀ i ∈ places, i < records.length) :
    places.mapM (records[·]?) = some (picked records places) := by
  induction places with
  | nil => rfl
  | cons i places ih =>
    obtain ⟨here, later⟩ := List.forall_mem_cons.mp inside
    have at_i := List.getElem?_eq_getElem here
    rw [List.mapM_cons, at_i, ih later, picked, picked, List.filterMap_cons_some at_i]
    rfl

/-! ## Places -/

/-- Filtering a list, by the places of its elements. -/
theorem filter_eq_places [Inhabited α] (p : α → Bool) (l : List α) :
    l.filter p = ((List.range l.length).filter fun i => p (l.getD i default)).map (l.getD · default) := by
  have whole : (List.range l.length).map (l.getD · default) = l := by
    apply List.ext_getElem?
    intro i
    by_cases inside : i < l.length
    · simp [inside]
    · simp [inside]
  conv_lhs => rw [← whole, List.filter_map]
  rfl

end ParallelArrays
