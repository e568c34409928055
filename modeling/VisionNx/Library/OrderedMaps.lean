import Mathlib.Order.Lattice

/-! # Maps that are kept in the order of their keys

An `OrderedMap` is the list of its entries with ascending keys, so two maps that find the
same values are equal, and so is the order in which they are walked through. -/

namespace OrderedMaps

/-- Changes the value of a key, which may be new. -/
def alterEntries [LinearOrder K] (key : K) (change : Option V → V) : List (K × V) → List (K × V)
  | [] => [(key, change none)]
  | (k, v) :: entries =>
    if key < k then (key, change none) :: (k, v) :: entries
    else if key = k then (k, change (some v)) :: entries
    else (k, v) :: alterEntries key change entries

def findEntry [LinearOrder K] (key : K) : List (K × V) → Option V
  | [] => none
  | (k, v) :: entries => if key = k then some v else findEntry key entries

structure OrderedMap (K : Type u) (V : Type v) [LinearOrder K] where
  entries : List (K × V)
  ascending : entries.Pairwise fun e e' => e.1 < e'.1

section

variable {K : Type u} {V : Type v} [LinearOrder K] {key key' : K} {change : Option V → V} {entries entries' : List (K × V)}

/-! ## Entries -/

theorem mem_alterEntries {e : K × V} (mem : e ∈ alterEntries key change entries) : e.1 = key ∨ e ∈ entries := by
  induction entries with
  | nil => exact .inl (congrArg Prod.fst (List.mem_singleton.mp mem))
  | cons first entries ih =>
    obtain ⟨k, v⟩ := first
    rw [alterEntries] at mem
    split at mem
    · cases List.mem_cons.mp mem with
      | inl new => exact .inl (congrArg Prod.fst new)
      | inr old => exact .inr old
    split at mem
    next same =>
      cases List.mem_cons.mp mem with
      | inl changed => exact .inl ((congrArg Prod.fst changed).trans same.symm)
      | inr old => exact .inr (List.mem_cons_of_mem _ old)
    next =>
      cases List.mem_cons.mp mem with
      | inl same => exact .inr (same ▸ List.mem_cons_self)
      | inr behind => exact (ih behind).imp_right (List.mem_cons_of_mem _)

theorem ascending_alterEntries (ascending : entries.Pairwise fun e e' => e.1 < e'.1) :
    (alterEntries key change entries).Pairwise fun e e' => e.1 < e'.1 := by
  induction entries with
  | nil => exact List.pairwise_singleton _ _
  | cons first entries ih =>
    obtain ⟨k, v⟩ := first
    obtain ⟨below, behind⟩ := List.pairwise_cons.mp ascending
    rw [alterEntries]
    split
    next less =>
      refine List.pairwise_cons.mpr ⟨fun e mem => ?_, ascending⟩
      cases List.mem_cons.mp mem with
      | inl same => exact same ▸ less
      | inr mem => exact less.trans (below e mem)
    split
    next => exact List.pairwise_cons.mpr ⟨below, behind⟩
    next not_less ne =>
      refine List.pairwise_cons.mpr ⟨fun e mem => ?_, ih behind⟩
      cases mem_alterEntries mem with
      | inl new => exact new ▸ lt_of_le_of_ne (not_lt.mp not_less) (Ne.symm ne)
      | inr old => exact below e old

theorem findEntry_of_below (below : ∀ e ∈ entries, key < e.1) : findEntry key entries = none := by
  induction entries with
  | nil => rfl
  | cons first entries ih =>
    rw [findEntry, if_neg (below first List.mem_cons_self).ne]
    exact ih fun e mem => below e (List.mem_cons_of_mem _ mem)

theorem findEntry_alterEntries_same (ascending : entries.Pairwise fun e e' => e.1 < e'.1) :
    findEntry key (alterEntries key change entries) = some (change (findEntry key entries)) := by
  induction entries with
  | nil => simp [alterEntries, findEntry]
  | cons first entries ih =>
    obtain ⟨k, v⟩ := first
    obtain ⟨below, behind⟩ := List.pairwise_cons.mp ascending
    rw [alterEntries]
    split
    next less =>
      have absent : findEntry key ((k, v) :: entries) = none := by
        refine findEntry_of_below fun e mem => ?_
        cases List.mem_cons.mp mem with
        | inl same => exact same ▸ less
        | inr mem => exact less.trans (below e mem)
      rw [absent, findEntry, if_pos rfl]
    split
    next same => rw [findEntry, findEntry, if_pos same, if_pos same]
    next ne => rw [findEntry, findEntry, if_neg ne, if_neg ne, ih behind]

theorem findEntry_alterEntries_of_ne (ne : key' ≠ key) :
    findEntry key' (alterEntries key change entries) = findEntry key' entries := by
  induction entries with
  | nil => simp [alterEntries, findEntry, ne]
  | cons first entries ih =>
    obtain ⟨k, v⟩ := first
    rw [alterEntries]
    split
    · rw [findEntry, if_neg ne]
    split
    next same =>
      subst same
      rw [findEntry, findEntry, if_neg ne, if_neg ne]
    · rw [findEntry, findEntry, ih]

theorem findEntry_eq_some_iff (ascending : entries.Pairwise fun e e' => e.1 < e'.1) {v : V} :
    findEntry key entries = some v ↔ (key, v) ∈ entries := by
  induction entries with
  | nil => simp [findEntry]
  | cons first entries ih =>
    obtain ⟨k, w⟩ := first
    obtain ⟨below, behind⟩ := List.pairwise_cons.mp ascending
    rw [findEntry, List.mem_cons, Prod.mk.injEq]
    split
    next same =>
      subst same
      constructor
      · intro found
        exact .inl ⟨rfl, (Option.some.inj found).symm⟩
      · rintro (⟨-, rfl⟩ | mem)
        · rfl
        · exact absurd (below _ mem) (lt_irrefl key)
    next ne =>
      rw [ih behind]
      exact ⟨.inr, fun found => found.resolve_left fun same => ne same.1⟩

/-! ## Maps -/

def OrderedMap.empty : OrderedMap K V := ⟨[], .nil⟩

/-- `map[key] = change(map[key])`. -/
def OrderedMap.alter (map : OrderedMap K V) (key : K) (change : Option V → V) : OrderedMap K V :=
  ⟨alterEntries key change map.entries, ascending_alterEntries map.ascending⟩

def OrderedMap.find? (map : OrderedMap K V) (key : K) : Option V := findEntry key map.entries

theorem OrderedMap.find?_alter (map : OrderedMap K V) (key key' : K) (change : Option V → V) :
    (map.alter key change).find? key' = if key' = key then some (change (map.find? key)) else map.find? key' := by
  split
  next same =>
    subst same
    exact findEntry_alterEntries_same map.ascending
  next ne => exact findEntry_alterEntries_of_ne ne

theorem OrderedMap.find?_eq_some_iff {map : OrderedMap K V} {v : V} : map.find? key = some v ↔ (key, v) ∈ map.entries :=
  findEntry_eq_some_iff map.ascending

theorem OrderedMap.find?_eq_none {map : OrderedMap K V} (absent : ∀ e ∈ map.entries, e.1 ≠ key) :
    map.find? key = none := by
  cases found : map.find? key with
  | none => rfl
  | some v => exact absurd rfl (absent (key, v) (OrderedMap.find?_eq_some_iff.mp found))

/-- Changes for different keys do not get in each other's way. -/
theorem OrderedMap.find?_foldl_alter {α : Type w} (keyOf : α → K) (change : α → Option V → V) {items : List α}
    (distinct : items.Pairwise fun item item' => keyOf item ≠ keyOf item') (map : OrderedMap K V) :
    let result := items.foldl (fun map item => map.alter (keyOf item) (change item)) map
    (∀ item ∈ items, result.find? (keyOf item) = some (change item (map.find? (keyOf item)))) ∧
      ∀ key, (∀ item ∈ items, keyOf item ≠ key) → result.find? key = map.find? key := by
  induction items generalizing map with
  | nil => exact ⟨fun _ mem => absurd mem List.not_mem_nil, fun _ _ => rfl⟩
  | cons first items ih =>
    obtain ⟨differ, distinct⟩ := List.pairwise_cons.mp distinct
    obtain ⟨changed, kept⟩ := ih distinct (map.alter (keyOf first) (change first))
    rw [List.foldl_cons]
    refine ⟨fun item mem => ?_, fun key absent => ?_⟩
    · cases List.mem_cons.mp mem with
      | inl same => rw [same, kept (keyOf first) fun item mem => (differ item mem).symm, map.find?_alter, if_pos rfl]
      | inr mem => rw [changed item mem, map.find?_alter, if_neg (differ item mem).symm]
    · rw [kept key fun item mem => absent item (List.mem_cons_of_mem _ mem), map.find?_alter,
        if_neg (absent first List.mem_cons_self).symm]

/-- A map is what it finds. -/
theorem OrderedMap.ext_find? {map map' : OrderedMap K V} (same : ∀ key, map.find? key = map'.find? key) :
    map.entries = map'.entries := by
  have mem (e : K × V) : e ∈ map.entries ↔ e ∈ map'.entries := by
    rw [← OrderedMap.find?_eq_some_iff, ← OrderedMap.find?_eq_some_iff, same e.1]
  have perm : map.entries.Perm map'.entries :=
    (List.perm_ext_iff_of_nodup (map.ascending.imp fun less same => (same ▸ less).ne rfl)
      (map'.ascending.imp fun less same => (same ▸ less).ne rfl)).mpr mem
  exact perm.eq_of_pairwise (fun e e' _ _ less more => absurd (less.trans more) (lt_irrefl _)) map.ascending map'.ascending

end

end OrderedMaps
