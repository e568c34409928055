import VisionNx.Tracker.Recasting

/-! # Classes matter up to their key

In the mode `vehicle_group` a car that the model takes for a truck in some frames keeps its
id, and in the mode `any` classes make no difference at all: a run only depends on the keys
of the classes that it is given. -/

namespace VisionNx.Tracker

/-! ## Keys instead of classes -/

/-- A mode that tells no more classes apart than `fine` does. -/
def MatchMode.CoarserThan (fine mode : MatchMode) : Prop :=
  ∀ c c', canonicalCls c fine = canonicalCls c' fine → canonicalCls c mode = canonicalCls c' mode

/-- The box with the key of its class in the place of the class. -/
def Box.keyed (mode : MatchMode) (b : Box) : Box := { b with cls := some (canonicalCls b.getCls mode) }

def Track.keyed (mode : MatchMode) (trk : Track) : Track := { trk with cls := canonicalCls trk.cls mode }

def keying (mode : MatchMode) : Recasting where
  box := Box.keyed mode
  track := Track.keyed mode
  stamp _ _ := rfl
  id _ := rfl
  time _ := rfl
  age _ := rfl
  refresh _ _ := rfl
  new _ _ := rfl

/-- A key is its own key. -/
theorem canonicalCls_idem (c : Int32) (mode : MatchMode) :
    canonicalCls (canonicalCls c mode) mode = canonicalCls c mode := by
  cases mode with
  | strict | any => rfl
  | vehicleGroup =>
    by_cases four : c ∈ vehicleGroup4W
    · simp only [canonicalCls, if_pos four]
      decide
    by_cases two : c ∈ vehicleGroup2W
    · simp only [canonicalCls, if_neg four, if_pos two]
      decide
    · simp only [canonicalCls, if_neg four, if_neg two]

theorem MatchMode.CoarserThan.key {fine mode : MatchMode} (coarser : fine.CoarserThan mode) (c : Int32) :
    canonicalCls (canonicalCls c fine) mode = canonicalCls c mode :=
  coarser _ _ (canonicalCls_idem c fine)

theorem keying_hidden {fine mode : MatchMode} (coarser : fine.CoarserThan mode) : (keying fine).Hidden mode := by
  intro boxes tracks
  have corners : (boxes.map (Box.keyed fine)).map (·.xyxy) = boxes.map (·.xyxy) := by
    simp only [List.map_map]
    rfl
  have corners' : (tracks.map (Track.keyed fine)).map (·.xyxy) = tracks.map (·.xyxy) := by
    simp only [List.map_map]
    rfl
  have keys : (boxes.map (Box.keyed fine)).map (fun b => canonicalCls b.getCls mode) =
      boxes.map fun b => canonicalCls b.getCls mode := by
    rw [List.map_map]
    exact List.map_congr_left fun b _ => coarser.key b.getCls
  have keys' : (tracks.map (Track.keyed fine)).map (fun trk => canonicalCls trk.cls mode) =
      tracks.map fun trk => canonicalCls trk.cls mode := by
    rw [List.map_map]
    exact List.map_congr_left fun trk _ => coarser.key trk.cls
  funext i j
  simp only [matchingMatrix, keying, corners, corners', keys, keys']

/-! ## Two runs -/

/-- Two calls that differ in the classes of their boxes only, and in these not by key. -/
inductive Op.SameKeys (fine : MatchMode) : Op → Op → Prop where
  | update {boxes boxes' : List Box} (same : boxes'.map (Box.keyed fine) = boxes.map (Box.keyed fine)) :
      SameKeys fine (.update boxes) (.update boxes')
  | setParams (maxAge : Option ℤ) (matchMode : Option String) :
      SameKeys fine (.setParams maxAge matchMode) (.setParams maxAge matchMode)

theorem recast_of_sameKeys {fine : MatchMode} {ops ops' : List Op} (same : List.Forall₂ (Op.SameKeys fine) ops ops') :
    ops'.map (Op.recast (keying fine)) = ops.map (Op.recast (keying fine)) := by
  induction same with
  | nil => rfl
  | cons first _ ih =>
    cases first with
    | update same =>
      rw [List.map_cons, List.map_cons, ih]
      exact congrArg (fun boxes => Op.update boxes :: _) same
    | setParams maxAge matchMode => rw [List.map_cons, List.map_cons, ih]

theorem keepsTo_of_sameKeys {fine : MatchMode} {modes : MatchMode → Prop} {ops ops' : List Op}
    (same : List.Forall₂ (Op.SameKeys fine) ops ops') (keeps : ∀ op ∈ ops, op.KeepsTo modes) :
    ∀ op ∈ ops', op.KeepsTo modes := by
  induction same with
  | nil => exact keeps
  | cons first _ ih =>
    have rest := ih fun op mem => keeps op (List.mem_cons_of_mem _ mem)
    have now := keeps _ List.mem_cons_self
    cases first with
    | update _ => exact List.forall_mem_cons.mpr ⟨trivial, rest⟩
    | setParams maxAge matchMode => exact List.forall_mem_cons.mpr ⟨now, rest⟩

def parkedCar : Box := { xyxy := ⟨1 / 2, 1 / 2, 3 / 4, 3 / 4⟩, score := 9 / 10, cls := some 2 }
def parkedTruck : Box := { parkedCar with cls := some 7 }

/-- Two runs of fresh trackers whose frames have the same boxes but for classes of one key,
    in modes that tell no more classes apart: they return the same boxes with the same ids,
    and have the same tracks with the same ids, ages and hits, but for classes of one key. -/
theorem flickering_classes_keep_ids (iouThr : IouThr) (maxAge : ℤ) (matchMode : String) (fine : MatchMode)
    {ops ops' : List Op} (coarser : fine.CoarserThan (normalizeMode matchMode))
    (keeps : ∀ op ∈ ops, op.KeepsTo fine.CoarserThan) (same : List.Forall₂ (Op.SameKeys fine) ops ops') :
    let t₀ := ByteTrackLite.init iouThr maxAge matchMode
    (outputs t₀ ops').map (List.map (Box.keyed fine)) = (outputs t₀ ops).map (List.map (Box.keyed fine)) ∧
      (exec t₀ ops').tracks.map (Track.keyed fine) = (exec t₀ ops).tracks.map (Track.keyed fine) ∧
      (exec t₀ ops').nextId = (exec t₀ ops).nextId := by
  intro t₀
  have now : fine.CoarserThan t₀.matchMode := by simpa only [t₀, ByteTrackLite.init] using coarser
  obtain ⟨outs, tracks⟩ := run_recast (fun mode => keying_hidden) now keeps
  obtain ⟨outs', tracks'⟩ := run_recast (fun mode => keying_hidden) now (keepsTo_of_sameKeys same keeps)
  rw [recast_of_sameKeys same] at outs' tracks'
  have whole := tracks'.symm.trans tracks
  have same_next : ((exec t₀ ops').recast (keying fine)).nextId = ((exec t₀ ops).recast (keying fine)).nextId :=
    congrArg ByteTrackLite.nextId whole
  exact ⟨outs'.symm.trans outs, congrArg ByteTrackLite.tracks whole, same_next⟩

/-- A car that is taken for a truck on its second frame. -/
theorem flickering_classes_keep_ids_truck :
    let t₀ := ByteTrackLite.init ⟨3 / 10, by norm_num⟩ 90 "vehicle_group"
    (outputs t₀ [.update [parkedCar], .update [parkedTruck]]).map (List.map (·.trackId)) = [[some 1], [some 1]] := by
  intro t₀
  have vehicle_group : normalizeMode "vehicle_group" = .vehicleGroup := by decide +kernel
  have coarser : MatchMode.vehicleGroup.CoarserThan (normalizeMode "vehicle_group") :=
    vehicle_group ▸ fun _ _ same => same
  have keeps : ∀ op ∈ [Op.update [parkedCar], .update [parkedCar]],
      op.KeepsTo MatchMode.vehicleGroup.CoarserThan := by
    simp only [List.forall_mem_cons, Op.KeepsTo, List.not_mem_nil, false_imp_iff, implies_true, and_true]
  have truck : [parkedTruck].map (Box.keyed .vehicleGroup) = [parkedCar].map (Box.keyed .vehicleGroup) := by
    decide +kernel
  have same : List.Forall₂ (Op.SameKeys .vehicleGroup) [.update [parkedCar], .update [parkedCar]]
      [.update [parkedCar], .update [parkedTruck]] :=
    .cons (.update rfl) (.cons (.update truck) .nil)
  obtain ⟨outs, -⟩ := flickering_classes_keep_ids ⟨3 / 10, by norm_num⟩ 90 "vehicle_group" .vehicleGroup
    coarser keeps same
  have ids : ∀ outs : List (List Box), (outs.map (List.map (Box.keyed .vehicleGroup))).map (List.map (·.trackId)) =
      outs.map (List.map (·.trackId)) := by
    intro outs
    simp only [List.map_map]
    exact List.map_congr_left fun boxes _ => List.map_map
  have plain : (outputs t₀ [.update [parkedCar], .update [parkedCar]]).map (List.map (·.trackId)) =
      [[some 1], [some 1]] := by
    decide +kernel
  have same_ids := congrArg (List.map (List.map (·.trackId))) outs
  rw [ids, ids] at same_ids
  exact same_ids.trans plain

end VisionNx.Tracker
