import VisionNx.InferUtils
import VisionNx.Library.ParallelArrays

/-! # Decoding array by array

`decode_boxes` as it computes: a mask selects from the arrays of the corners, the scores
and the classes, and the last loop reads all three at one index.  The arrays stay
aligned, so the boxes are those of the rows that pass, and `decodeBoxes` is what comes of
it. -/

namespace VisionNx

open Python ParallelArrays

/-! ## The arrays -/

/-- `rows[:, j]`. -/
def column (rows : List (List ℚ)) (j : ℕ) : List ℚ := rows.map (·.getD j 0)

/-- The mask of the threshold, and of `class_filter` unless that is falsy. -/
def keepMask (clsScores clsIds : List ℚ) (confThr : ℚ) (classFilter : Option (List ℤ)) : List Bool :=
  let mask := clsScores.map fun score => decide (confThr ≤ score)
  match classFilter with
  | none | some [] => mask
  | some keepSet => List.zipWith (· && ·) mask (clsIds.map fun c => decide (toInt c ∈ keepSet))

/-- `scores_all.argmax(axis=1)` on one row: the first place of the maximum. -/
def argmaxRow (scores : List ℚ) : ℕ := scores.idxOf (maxOf scores)

/-- `sel[:, :4]` on one row. -/
def corners (row : List ℚ) : Xyxy := ⟨row.getD 0 0, row.getD 1 0, row.getD 2 0, row.getD 3 0⟩

/-- The corners of a box given by its centre and its size. -/
def cornersOfCentre (b : List ℚ) : Xyxy :=
  ⟨b.getD 0 0 - b.getD 2 0 * (1 / 2), b.getD 1 0 - b.getD 3 0 * (1 / 2),
    b.getD 0 0 + b.getD 2 0 * (1 / 2), b.getD 1 0 + b.getD 3 0 * (1 / 2)⟩

/-- The last loop.  An index outside an array raises; a division by zero raises or leaves no number. -/
def emitLoop (w0 h0 : ℕ) (ratio : ℚ) (padX padY : ℤ) (xyxy : List Xyxy) (clsScores clsIds : List ℚ) :
    List ℕ → Option (List Detection)
  | [] => some []
  | i :: idxs =>
    match xyxy[i]? with
    | none => none
    | some q =>
      if ratio = 0 ∨ w0 = 0 ∨ h0 = 0 then none
      else
        let n := unletterbox w0 h0 ratio padX padY q
        if n.x2 ≤ n.x1 ∨ n.y2 ≤ n.y1 then emitLoop w0 h0 ratio padX padY xyxy clsScores clsIds idxs
        else
          match clsScores[i]?, clsIds[i]? with
          | some score, some cls =>
            (emitLoop w0 h0 ratio padX padY xyxy clsScores clsIds idxs).map fun rest =>
              { xyxy := n, score := score, cls := toInt cls } :: rest
          | _, _ => none

/-- `decode_boxes`, array by array. -/
def decodeArrays (nmsBoxes : List (ℚ × ℚ × ℚ × ℚ) → List ℚ → ℚ → ℚ → List ℕ) (out : RawOutput) (layout : Layout)
    (confThr iouThr : ℚ) (classFilter : Option (List ℤ)) (w0 h0 : ℕ) (ratio : ℚ) (padX padY : ℤ) :
    Option (List Detection) :=
  match layout with
  | .yolo26 =>
    let rows := out.rows
    if out.cols ≠ 6 then some []
    else
      let mask := keepMask (column rows 4) (column rows 5) confThr classFilter
      if !mask.any id then some []
      else
        let sel := masked mask rows
        -- The end-to-end head has done the suppression itself.
        emitLoop w0 h0 ratio padX padY (sel.map corners) (column sel 4) (column sel 5) (List.range sel.length)
  | .yolov8 =>
    let pred := out.transposed
    if out.rows.length < 5 then some []
    else
      let boxesCxcywh := pred.map (·.take 4)
      let scoresAll := pred.map (·.drop 4)
      let clsIdsAll := scoresAll.map argmaxRow
      let clsScoresAll := scoresAll.map maxOf
      let mask := keepMask clsScoresAll (clsIdsAll.map fun k : ℕ => (k : ℚ)) confThr classFilter
      if !mask.any id then some []
      else
        let boxesCxcywh := masked mask boxesCxcywh
        let clsScores := masked mask clsScoresAll
        let clsIds := masked mask clsIdsAll
        let xyxy := boxesCxcywh.map cornersOfCentre
        let idxs := nmsBoxes (xyxy.map xywh) clsScores confThr iouThr
        if idxs.isEmpty then some []
        else emitLoop w0 h0 ratio padX padY xyxy clsScores (clsIds.map fun k : ℕ => (k : ℚ)) idxs

/-! ## The rows -/

/-- The rows of the candidates. -/
def candidateRows : Layout → RawOutput → List (List ℚ)
  | .yolo26, out => out.rows
  | .yolov8, out => out.transposed

def candidateOfRow : Layout → List ℚ → Option Candidate
  | .yolo26 => candidateYolo26
  | .yolov8 => candidateYolov8

/-- The candidate in row `i`, if there is one. -/
def candidateAt (layout : Layout) (out : RawOutput) (i : ℕ) : Option Candidate :=
  (candidateRows layout out)[i]?.bind (candidateOfRow layout)

/-- Whether a class passes `class_filter`. -/
def inFilter (classFilter : Option (List ℤ)) (cls : ℤ) : Bool :=
  match classFilter with
  | none | some [] => true
  | some keepSet => decide (cls ∈ keepSet)

def passes (confThr : ℚ) (classFilter : Option (List ℤ)) (c : Candidate) : Bool :=
  decide (confThr ≤ c.score) && inFilter classFilter (toInt c.cls)

/-- The places of the rows that pass, in row order. -/
def passingRows (layout : Layout) (out : RawOutput) (confThr : ℚ) (classFilter : Option (List ℤ)) : List ℕ :=
  (List.range (candidateRows layout out).length).filter fun i => (candidateAt layout out i).any (passes confThr classFilter)

/-- The box of row `i`, unless it is empty after clipping. -/
def boxOf (layout : Layout) (out : RawOutput) (w0 h0 : ℕ) (ratio : ℚ) (padX padY : ℤ) (i : ℕ) : Option Detection :=
  (candidateAt layout out i).bind (emitBox w0 h0 ratio padX padY)

/-! ## The loop -/

section

variable {w0 h0 : ℕ} {ratio : ℚ} {padX padY : ℤ}

/-- On arrays that are the fields of one list of candidates, the loop emits the box of each one picked. -/
theorem emitLoop_eq (ratio_ne : ratio ≠ 0) (w0_ne : w0 ≠ 0) (h0_ne : h0 ≠ 0) (cs : List Candidate) {idxs : List ℕ}
    (inside : ∀ i ∈ idxs, i < cs.length) :
    emitLoop w0 h0 ratio padX padY (cs.map (·.xyxy)) (cs.map (·.score)) (cs.map (·.cls)) idxs =
      some ((picked cs idxs).filterMap (emitBox w0 h0 ratio padX padY)) := by
  induction idxs with
  | nil => rfl
  | cons i idxs ih =>
    obtain ⟨here, later⟩ := List.forall_mem_cons.mp inside
    have at_i := List.getElem?_eq_getElem here
    have chosen : picked cs (i :: idxs) = cs[i] :: picked cs idxs := by
      rw [picked, List.filterMap_cons, at_i]
      rfl
    rw [emitLoop, chosen, List.filterMap_cons, ih later]
    simp only [List.getElem?_map, at_i, Option.map_some, ratio_ne, w0_ne, h0_ne, or_self, if_false, emitBox]
    split
    · rfl
    · rfl

end

/-! ## The masks -/

theorem keepMask_map (records : List (List ℚ)) (score cls : List ℚ → ℚ) (confThr : ℚ) (classFilter : Option (List ℤ)) :
    keepMask (records.map score) (records.map cls) confThr classFilter =
      records.map fun row => decide (confThr ≤ score row) && inFilter classFilter (toInt (cls row)) := by
  cases classFilter with
  | none => simp [keepMask, inFilter]
  | some keepSet =>
    cases keepSet with
    | nil => simp [keepMask, inFilter]
    | cons k ks =>
      simp only [keepMask, List.map_map]
      rw [zipWith_and_map]
      rfl

/-- What the arrays hold of one row. -/
def rowCandidate : Layout → List ℚ → Candidate
  | .yolo26, row => ⟨corners row, row.getD 4 0, row.getD 5 0⟩
  | .yolov8, row => ⟨cornersOfCentre (row.take 4), maxOf (row.drop 4), argmaxRow (row.drop 4)⟩

theorem candidateYolo26_of_length {row : List ℚ} (length : row.length = 6) :
    candidateYolo26 row = some (rowCandidate .yolo26 row) := by
  match row, length with
  | [_, _, _, _, _, _], _ => rfl

theorem candidateYolo26_none {row : List ℚ} (length : row.length ≠ 6) : candidateYolo26 row = none := by
  rw [candidateYolo26]
  rintro x1 y1 x2 y2 score cls rfl
  exact length rfl

theorem candidateYolov8_of_length {row : List ℚ} (length : 5 ≤ row.length) :
    candidateYolov8 row = some (rowCandidate .yolov8 row) := by
  match row, length with
  | _ :: _ :: _ :: _ :: _ :: _, _ => rfl

theorem candidateYolov8_none {row : List ℚ} (length : row.length < 5) : candidateYolov8 row = none := by
  rw [candidateYolov8]
  rintro cx cy w h score scores rfl
  simp only [List.length_cons] at length
  omega

section

variable {layout : Layout} {out : RawOutput} {confThr : ℚ} {classFilter : Option (List ℤ)} {w0 h0 : ℕ} {ratio : ℚ}
  {padX padY : ℤ}

theorem candidate_of_mem_passingRows {i : ℕ} (mem : i ∈ passingRows layout out confThr classFilter) :
    ∃ c, candidateAt layout out i = some c ∧ passes confThr classFilter c = true := by
  have passing := (List.mem_filter.mp mem).2
  rwa [Option.any_eq_true] at passing

theorem passingRows_nodup (layout : Layout) (out : RawOutput) (confThr : ℚ) (classFilter : Option (List ℤ)) :
    (passingRows layout out confThr classFilter).Nodup := List.nodup_range.filter _

theorem boxOf_picked (idxs : List ℕ) :
    (picked (passingRows layout out confThr classFilter) idxs).filterMap (boxOf layout out w0 h0 ratio padX padY) =
      (picked ((passingRows layout out confThr classFilter).filterMap (candidateAt layout out)) idxs).filterMap
        (emitBox w0 h0 ratio padX padY) := by
  have found : ∀ i ∈ passingRows layout out confThr classFilter, (candidateAt layout out i).isSome := by
    intro i mem
    obtain ⟨c, here, -⟩ := candidate_of_mem_passingRows mem
    rw [here]
    rfl
  rw [picked_filterMap found, List.filterMap_filterMap]
  rfl

/-- A tensor that is not of the layout has no candidates. -/
theorem passingRows_eq_nil (malformed : ∀ row ∈ candidateRows layout out, candidateOfRow layout row = none) :
    passingRows layout out confThr classFilter = [] := by
  rw [passingRows, List.filter_eq_nil_iff]
  intro i mem
  have inside := List.mem_range.mp mem
  rw [candidateAt, List.getElem?_eq_getElem inside, Option.bind_some, malformed _ (List.getElem_mem inside)]
  simp

/-- Filtering the rows is picking the candidates of the rows that pass. -/
theorem selected_eq (wellformed : ∀ row ∈ candidateRows layout out,
      candidateOfRow layout row = some (rowCandidate layout row)) :
    ((candidateRows layout out).filter fun row => passes confThr classFilter (rowCandidate layout row)).map
        (rowCandidate layout) =
      (passingRows layout out confThr classFilter).filterMap (candidateAt layout out) := by
  have at_row : ∀ i < (candidateRows layout out).length,
      candidateAt layout out i = some (rowCandidate layout ((candidateRows layout out).getD i default)) := by
    intro i inside
    rw [candidateAt, List.getElem?_eq_getElem inside, Option.bind_some, wellformed _ (List.getElem_mem inside),
      List.getD_eq_getElem?_getD, List.getElem?_eq_getElem inside, Option.getD_some]
  have places : passingRows layout out confThr classFilter =
      (List.range (candidateRows layout out).length).filter fun i =>
        passes confThr classFilter (rowCandidate layout ((candidateRows layout out).getD i default)) := by
    refine List.filter_congr fun i mem => ?_
    rw [at_row i (List.mem_range.mp mem)]
    rfl
  have found : (passingRows layout out confThr classFilter).filterMap (candidateAt layout out) =
      (passingRows layout out confThr classFilter).filterMap
        (some ∘ fun i => rowCandidate layout ((candidateRows layout out).getD i default)) := by
    refine List.filterMap_congr fun i mem => ?_
    exact at_row i (List.mem_range.mp (List.mem_filter.mp mem).1)
  rw [found, List.filterMap_eq_map, places, filter_eq_places, List.map_map]
  rfl

/-! ## The two layouts -/

theorem length_of_mem_transposed {row : List ℚ} (mem : row ∈ out.transposed) : row.length = out.rows.length := by
  obtain ⟨j, -, rfl⟩ := List.mem_map.mp mem
  exact List.length_map _

theorem wellformed_yolo26 (six : out.cols = 6) :
    ∀ row ∈ candidateRows .yolo26 out, candidateOfRow .yolo26 row = some (rowCandidate .yolo26 row) :=
  fun row mem => candidateYolo26_of_length ((out.width row mem).trans six)

theorem wellformed_yolov8 (five : ¬ out.rows.length < 5) :
    ∀ row ∈ candidateRows .yolov8 out, candidateOfRow .yolov8 row = some (rowCandidate .yolov8 row) :=
  fun _ mem => candidateYolov8_of_length ((not_lt.mp five).trans (length_of_mem_transposed mem).ge)

theorem passingRows_malformed_yolo26 (other : out.cols ≠ 6) : passingRows .yolo26 out confThr classFilter = [] :=
  passingRows_eq_nil fun row mem => candidateYolo26_none ((out.width row mem).trans_ne other)

theorem passingRows_malformed_yolov8 (few : out.rows.length < 5) :
    passingRows .yolov8 out confThr classFilter = [] :=
  passingRows_eq_nil fun _ mem => candidateYolov8_none ((length_of_mem_transposed mem).trans_lt few)

theorem keepMask_rows (layout : Layout) (rows : List (List ℚ)) (confThr : ℚ) (classFilter : Option (List ℤ)) :
    keepMask (rows.map fun row => (rowCandidate layout row).score) (rows.map fun row => (rowCandidate layout row).cls)
        confThr classFilter =
      rows.map fun row => passes confThr classFilter (rowCandidate layout row) :=
  keepMask_map rows _ _ confThr classFilter

/-- Without a row that passes there is nothing to emit. -/
theorem selected_eq_nil {rows : List (List ℚ)} (none_passes :
      (!(rows.map fun row => passes confThr classFilter (rowCandidate layout row)).any id) = true) :
    rows.filter (fun row => passes confThr classFilter (rowCandidate layout row)) = [] := by
  rw [any_map_id, Bool.not_eq_true', List.any_eq_false] at none_passes
  exact List.filter_eq_nil_iff.mpr none_passes

variable (nmsBoxes : List (ℚ × ℚ × ℚ × ℚ) → List ℚ → ℚ → ℚ → List ℕ)

theorem decodeArrays_yolo26 (ratio_ne : ratio ≠ 0) (w0_ne : w0 ≠ 0) (h0_ne : h0 ≠ 0) (iouThr : ℚ) :
    decodeArrays nmsBoxes out .yolo26 confThr iouThr classFilter w0 h0 ratio padX padY =
      some ((passingRows .yolo26 out confThr classFilter).filterMap (boxOf .yolo26 out w0 h0 ratio padX padY)) := by
  have boxes : (passingRows .yolo26 out confThr classFilter).filterMap (boxOf .yolo26 out w0 h0 ratio padX padY) =
      ((passingRows .yolo26 out confThr classFilter).filterMap (candidateAt .yolo26 out)).filterMap
        (emitBox w0 h0 ratio padX padY) := by
    rw [List.filterMap_filterMap]
    rfl
  by_cases six : out.cols = 6
  · have selected := @selected_eq .yolo26 out confThr classFilter (wellformed_yolo26 six)
    have mask := keepMask_rows .yolo26 out.rows confThr classFilter
    simp only [rowCandidate, candidateRows] at mask selected
    simp only [decodeArrays, six, ne_eq, not_true_eq_false, if_false, column, mask]
    rw [boxes, ← selected]
    split
    next none_passes =>
      have nothing := @selected_eq_nil .yolo26 confThr classFilter out.rows none_passes
      simp only [rowCandidate] at nothing
      rw [nothing]
      rfl
    next =>
      rw [masked_map_self]
      generalize out.rows.filter _ = sel
      have emitted := @emitLoop_eq w0 h0 ratio padX padY ratio_ne w0_ne h0_ne (sel.map (rowCandidate .yolo26))
        (List.range sel.length) (by simp)
      have all := picked_range (sel.map (rowCandidate .yolo26))
      rw [List.length_map] at all
      rw [all, List.map_map, List.map_map, List.map_map] at emitted
      exact emitted
  · simp [decodeArrays, six, passingRows_malformed_yolo26 six]

theorem decodeArrays_yolov8 (ratio_ne : ratio ≠ 0) (w0_ne : w0 ≠ 0) (h0_ne : h0 ≠ 0) (iouThr : ℚ)
    (inside : ∀ boxes scores thr thr', ∀ i ∈ nmsBoxes boxes scores thr thr', i < boxes.length) :
    let passing := passingRows .yolov8 out confThr classFilter
    let candidates := passing.filterMap (candidateAt .yolov8 out)
    let idxs := nmsBoxes (candidates.map fun c => xywh c.xyxy) (candidates.map (·.score)) confThr iouThr
    decodeArrays nmsBoxes out .yolov8 confThr iouThr classFilter w0 h0 ratio padX padY =
      some ((picked passing idxs).filterMap (boxOf .yolov8 out w0 h0 ratio padX padY)) := by
  intro passing candidates idxs
  have boxes : (picked passing idxs).filterMap (boxOf .yolov8 out w0 h0 ratio padX padY) =
      (picked candidates idxs).filterMap (emitBox w0 h0 ratio padX padY) := boxOf_picked idxs
  by_cases five : out.rows.length < 5
  · have malformed : passing = [] := passingRows_malformed_yolov8 five
    simp [decodeArrays, five, malformed, picked]
  · have selected : _ = candidates := @selected_eq .yolov8 out confThr classFilter (wellformed_yolov8 five)
    have mask := keepMask_rows .yolov8 out.transposed confThr classFilter
    simp only [rowCandidate, candidateRows] at mask selected
    rw [boxes]
    simp only [decodeArrays, five, if_false, List.map_map, Function.comp_def, mask]
    split
    next none_passes =>
      have nothing := @selected_eq_nil .yolov8 confThr classFilter out.transposed none_passes
      simp only [rowCandidate] at nothing
      rw [nothing] at selected
      simp [← selected, picked]
    next =>
      simp only [masked_map, List.map_map, Function.comp_def]
      generalize out.transposed.filter _ = sel at selected ⊢
      have column {β : Type} (f : Candidate → β) :
          (sel.map fun row => f (rowCandidate .yolov8 row)) = candidates.map f := by
        rw [← selected, List.map_map]
        rfl
      have corners : (sel.map fun row => cornersOfCentre (row.take 4)) = candidates.map (·.xyxy) := column (·.xyxy)
      have boxes : (sel.map fun row => xywh (cornersOfCentre (row.take 4))) = candidates.map fun c => xywh c.xyxy :=
        column fun c => xywh c.xyxy
      have scores : (sel.map fun row => maxOf (row.drop 4)) = candidates.map (·.score) := column (·.score)
      have ids : (sel.map fun row => (argmaxRow (row.drop 4) : ℚ)) = candidates.map (·.cls) := column (·.cls)
      rw [corners, boxes, scores, ids]
      have places : ∀ i ∈ idxs, i < candidates.length := by
        intro i mem
        simpa using inside _ _ _ _ i mem
      split
      next nothing =>
        have empty : idxs = [] := List.isEmpty_iff.mp nothing
        rw [empty]
        rfl
      next => exact emitLoop_eq ratio_ne w0_ne h0_ne candidates places

/-! ## The same candidate by candidate -/

theorem inFilter_map (classFilter : Option (List ℕ)) (cls : ℤ) :
    inFilter (classFilter.map (·.map Nat.cast)) cls = passesFilter classFilter cls := by
  cases classFilter with
  | none => rfl
  | some ids =>
    cases ids with
    | nil => rfl
    | cons k ks =>
      show decide (cls ∈ (k :: ks).map Nat.cast) = (k :: ks).any fun c : ℕ => (c : ℤ) == cls
      rw [Bool.eq_iff_iff, decide_eq_true_eq, List.mem_map, List.any_eq_true]
      simp only [beq_iff_eq]

theorem kept_eq (wellformed : ∀ row ∈ candidateRows layout out,
      candidateOfRow layout row = some (rowCandidate layout row)) (classFilter : Option (List ℕ)) :
    keptCandidates ((candidateRows layout out).filterMap (candidateOfRow layout)) confThr classFilter =
      (passingRows layout out confThr (classFilter.map (·.map Nat.cast))).filterMap (candidateAt layout out) := by
  have all : (candidateRows layout out).filterMap (candidateOfRow layout) =
      (candidateRows layout out).map (rowCandidate layout) := by
    rw [← List.filterMap_eq_map]
    exact List.filterMap_congr wellformed
  rw [← selected_eq wellformed, all, keptCandidates, List.filter_map]
  congr 1
  refine List.filter_congr fun row _ => ?_
  simp only [Function.comp_apply, passes, inFilter_map]

/-- `decodeBoxes` is what the arrays compute. -/
theorem decodeArrays_eq_decodeBoxes (ratio_ne : ratio ≠ 0) (w0_ne : w0 ≠ 0) (h0_ne : h0 ≠ 0) (iouThr : ℚ)
    (inside : ∀ boxes scores thr thr', ∀ i ∈ nmsBoxes boxes scores thr thr', i < boxes.length)
    (layout : Layout) (classFilter : Option (List ℕ)) :
    decodeArrays nmsBoxes out layout confThr iouThr (classFilter.map (·.map Nat.cast)) w0 h0 ratio padX padY =
      decodeBoxes nmsBoxes out layout confThr iouThr classFilter w0 h0 ratio padX padY := by
  cases layout with
  | yolo26 =>
    rw [decodeArrays_yolo26 nmsBoxes ratio_ne w0_ne h0_ne]
    by_cases six : out.cols = 6
    · have kept : keptCandidates (out.rows.filterMap candidateYolo26) confThr classFilter = _ :=
        @kept_eq .yolo26 out confThr (wellformed_yolo26 six) classFilter
      simp only [decodeBoxes, six, ne_eq, not_true_eq_false, if_false]
      rw [kept, List.filterMap_filterMap]
      rfl
    · simp [decodeBoxes, six, passingRows_malformed_yolo26 six]
  | yolov8 =>
    rw [decodeArrays_yolov8 nmsBoxes ratio_ne w0_ne h0_ne iouThr inside]
    by_cases five : out.rows.length < 5
    · simp [decodeBoxes, five, passingRows_malformed_yolov8 five, picked]
    · have kept : keptCandidates (out.transposed.filterMap candidateYolov8) confThr classFilter = _ :=
        @kept_eq .yolov8 out confThr (wellformed_yolov8 five) classFilter
      rw [boxOf_picked]
      simp only [decodeBoxes, five, if_false, kept]
      split
      next nothing =>
        rw [List.isEmpty_iff.mp nothing]
        simp [picked]
      next => rw [mapM_getElem? fun i mem => (inside _ _ _ _ i mem).trans_eq (List.length_map _), Option.map_some]

/-! ## What is decoded -/

/-- `k` is the first place of the maximum `s`. -/
def FirstMaximal (scores : List ℚ) (k : ℕ) (s : ℚ) : Prop :=
  scores[k]? = some s ∧ (∀ s' ∈ scores, s' ≤ s) ∧ ∀ (j : ℕ) (s' : ℚ), j < k → scores[j]? = some s' → s' < s

theorem argmaxRow_firstMaximal {scores : List ℚ} (nonempty : scores ≠ []) :
    FirstMaximal scores (argmaxRow scores) (maxOf scores) := by
  have mem := maxOf_mem nonempty
  have inside := List.idxOf_lt_length_of_mem mem
  refine ⟨?_, fun s' mem' => le_maxOf mem', fun j s' before here => ?_⟩
  · rw [argmaxRow, List.getElem?_eq_getElem inside, List.getElem_idxOf]
  · refine lt_of_le_of_ne (le_maxOf (List.mem_of_getElem? here)) fun same => ?_
    obtain ⟨j_lt, rfl⟩ := List.getElem?_eq_some_iff.mp here
    have unequal := List.not_of_lt_findIdx before
    simp [same] at unequal

theorem FirstMaximal.unique {scores : List ℚ} {k k' : ℕ} {s s' : ℚ} (first : FirstMaximal scores k s)
    (first' : FirstMaximal scores k' s') : k = k' ∧ s = s' := by
  obtain ⟨at_k, highest, before⟩ := first
  obtain ⟨at_k', highest', before'⟩ := first'
  have same : s = s' := le_antisymm (highest' s (List.mem_of_getElem? at_k)) (highest s' (List.mem_of_getElem? at_k'))
  refine ⟨?_, same⟩
  obtain lt | eq | gt := lt_trichotomy k k'
  · exact absurd (before' k s lt at_k) same.not_lt
  · exact eq
  · exact absurd (before k' s' gt at_k') same.symm.not_lt

/-- The candidates of the `yolo26` layout are the rows of six entries. -/
theorem candidateAt_yolo26 {i : ℕ} {c : Candidate} : candidateAt .yolo26 out i = some c ↔
    out.rows[i]? = some [c.xyxy.x1, c.xyxy.y1, c.xyxy.x2, c.xyxy.y2, c.score, c.cls] := by
  rw [candidateAt, Option.bind_eq_some_iff]
  constructor
  · rintro ⟨row, at_i, is⟩
    have six : row.length = 6 := by
      by_contra other
      rw [candidateOfRow, candidateYolo26_none other] at is
      cases is
    match row, six with
    | [_, _, _, _, _, _], _ =>
      cases is
      exact at_i
  · exact fun at_i => ⟨_, at_i, rfl⟩

theorem getElem?_transposed {i : ℕ} {column : List ℚ} :
    out.transposed[i]? = some column ↔ i < out.cols ∧ out.rows.map (fun row => row.getD i 0) = column := by
  rw [RawOutput.transposed, List.getElem?_map, Option.map_eq_some_iff]
  constructor
  · rintro ⟨j, here, is⟩
    obtain ⟨inside, rfl⟩ := List.getElem?_eq_some_iff.mp here
    rw [List.getElem_range] at is
    exact ⟨by simpa using inside, is⟩
  · rintro ⟨inside, is⟩
    exact ⟨i, List.getElem?_range inside, is⟩

/-- Those of the `yolov8` layout are the columns with a score. -/
theorem candidateAt_yolov8 {i : ℕ} {c : Candidate} : candidateAt .yolov8 out i = some c ↔
    ∃ cx cy w h scores, ∃ k : ℕ,
      (i < out.cols ∧ out.rows.map (fun row => row.getD i 0) = cx :: cy :: w :: h :: scores) ∧
      c.xyxy = ⟨cx - w * (1 / 2), cy - h * (1 / 2), cx + w * (1 / 2), cy + h * (1 / 2)⟩ ∧ c.cls = k ∧
      FirstMaximal scores k c.score := by
  simp only [← getElem?_transposed]
  rw [candidateAt, Option.bind_eq_some_iff]
  constructor
  · rintro ⟨row, at_i, is⟩
    have five : 5 ≤ row.length := by
      by_contra! short
      rw [candidateOfRow, candidateYolov8_none short] at is
      cases is
    match row, five with
    | cx :: cy :: w :: h :: score :: scores, _ =>
      cases is
      exact ⟨cx, cy, w, h, score :: scores, _, at_i, rfl, rfl, argmaxRow_firstMaximal (List.cons_ne_nil _ _)⟩
  · rintro ⟨cx, cy, w, h, scores, k, at_i, xyxy, cls, first⟩
    obtain _ | ⟨score, scores⟩ := scores
    · exact absurd first.1 nofun
    obtain ⟨is_k, is_score⟩ := first.unique (argmaxRow_firstMaximal (List.cons_ne_nil score scores))
    refine ⟨_, at_i, ?_⟩
    obtain ⟨corners, s, n⟩ := c
    simp only at xyxy cls is_score
    rw [xyxy, cls, is_k, is_score]
    rfl

theorem inFilter_some {ids : List ℤ} (nonempty : ids ≠ []) (cls : ℤ) : inFilter (some ids) cls = decide (cls ∈ ids) := by
  cases ids with
  | nil => exact absurd rfl nonempty
  | cons k ks => rfl

theorem inFilter_eq_true {cls : ℤ} :
    inFilter classFilter cls = true ↔ ∀ ids, classFilter = some ids → ids ≠ [] → cls ∈ ids := by
  cases classFilter with
  | none => simp [inFilter]
  | some ids =>
    cases ids with
    | nil => simp [inFilter]
    | cons id ids => simp [inFilter]

/-- The rows that pass. -/
theorem mem_passingRows {i : ℕ} : i ∈ passingRows layout out confThr classFilter ↔
    ∃ c, candidateAt layout out i = some c ∧ confThr ≤ c.score ∧
      ∀ ids, classFilter = some ids → ids ≠ [] → toInt c.cls ∈ ids := by
  constructor
  · intro mem
    obtain ⟨c, here, pass⟩ := candidate_of_mem_passingRows mem
    obtain ⟨score, cls⟩ := (Bool.and_eq_true _ _).mp pass
    exact ⟨c, here, of_decide_eq_true score, inFilter_eq_true.mp cls⟩
  · rintro ⟨c, here, score, cls⟩
    obtain ⟨row, at_i, -⟩ := Option.bind_eq_some_iff.mp here
    have inside := (List.getElem?_eq_some_iff.mp at_i).1
    refine List.mem_filter.mpr ⟨List.mem_range.mpr inside, ?_⟩
    rw [here, Option.any_some, passes, decide_eq_true score, inFilter_eq_true.mpr cls]
    rfl

/-- A box comes from a row that passes, and has its score and its class. -/
theorem boxOf_sound {i : ℕ} {d : Detection} (mem : i ∈ passingRows layout out confThr classFilter)
    (box : boxOf layout out w0 h0 ratio padX padY i = some d) :
    d.xyxy.Normalized ∧ confThr ≤ d.score ∧ ∀ ids, classFilter = some ids → ids ≠ [] → d.cls ∈ ids := by
  obtain ⟨c, here, score, cls⟩ := mem_passingRows.mp mem
  rw [boxOf, here, Option.bind_some] at box
  have same_score : d.score = c.score := by
    simp only [emitBox] at box
    split at box
    · cases box
    · cases box
      rfl
  refine ⟨emitBox_normalized box, ?_, ?_⟩
  · rwa [same_score]
  · rwa [emitBox_cls box]

/-- Filtering before decoding is filtering after it. -/
theorem boxes_filter {ids : List ℤ} (nonempty : ids ≠ []) :
    (passingRows layout out confThr (some ids)).filterMap (boxOf layout out w0 h0 ratio padX padY) =
      ((passingRows layout out confThr none).filterMap (boxOf layout out w0 h0 ratio padX padY)).filter
        fun d => decide (d.cls ∈ ids) := by
  have rows : passingRows layout out confThr (some ids) = (passingRows layout out confThr none).filter fun i =>
      (candidateAt layout out i).any fun c => decide (toInt c.cls ∈ ids) := by
    rw [passingRows, passingRows, List.filter_filter]
    refine List.filter_congr fun i _ => ?_
    cases candidateAt layout out i with
    | none => rfl
    | some c =>
      simp only [Option.any_some, passes, inFilter_some nonempty]
      rw [Bool.and_comm]
      simp [inFilter]
  rw [rows, List.filterMap_filter, List.filter_filterMap]
  refine List.filterMap_congr fun i _ => ?_
  cases here : candidateAt layout out i with
  | none => simp [boxOf, here]
  | some c =>
    cases box : emitBox w0 h0 ratio padX padY c with
    | none => simp [boxOf, here, box]
    | some d =>
      have cls := emitBox_cls box
      by_cases kept : toInt c.cls ∈ ids
      · simp [boxOf, here, box, Option.filter_some, cls, kept]
      · simp [boxOf, here, box, Option.filter_some, cls, kept]

end

/-- What `decode_boxes` returns, for every tensor, both layouts and every threshold and filter.  The rows
    that pass are those whose candidate passes the threshold and the filter.  Every box lies in the unit
    square, has area, and passes them too; the boxes are those of different rows, with their corners
    un-letterboxed and clipped, their scores and their classes.  With `yolo26` they are those of all rows that
    pass, in row order, and filtering can as well be done afterwards; with `yolov8` those of the rows that
    `NMSBoxes` picks from the ones that pass. -/
theorem decode_boxes_exact (nmsBoxes : List (ℚ × ℚ × ℚ × ℚ) → List ℚ → ℚ → ℚ → List ℕ)
    (indices : ∀ boxes scores thr thr', (nmsBoxes boxes scores thr thr').Nodup ∧
      ∀ i ∈ nmsBoxes boxes scores thr thr', i < boxes.length)
    (out : RawOutput) (layout : Layout) (confThr iouThr : ℚ) (classFilter : Option (List ℤ)) (w0 h0 : ℕ)
    (w0_pos : 1 ≤ w0) (h0_pos : 1 ≤ h0) (ratio : ℚ) (ratio_pos : 0 < ratio) (padX padY : ℤ) :
    let decode := fun classFilter =>
      decodeArrays nmsBoxes out layout confThr iouThr classFilter w0 h0 ratio padX padY
    let passing := passingRows layout out confThr classFilter
    let box := fun i => (candidateAt layout out i).bind fun c =>
      let x1 := max 0 (min 1 ((c.xyxy.x1 - padX) / ratio / w0))
      let y1 := max 0 (min 1 ((c.xyxy.y1 - padY) / ratio / h0))
      let x2 := max 0 (min 1 ((c.xyxy.x2 - padX) / ratio / w0))
      let y2 := max 0 (min 1 ((c.xyxy.y2 - padY) / ratio / h0))
      if x2 ≤ x1 ∨ y2 ≤ y1 then none else some (Detection.mk ⟨x1, y1, x2, y2⟩ c.score (toInt c.cls))
    ∃ ds, decode classFilter = some ds ∧
      (passing.Pairwise (· < ·) ∧ ∀ i, i ∈ passing ↔ ∃ c, candidateAt layout out i = some c ∧ confThr ≤ c.score ∧
        ∀ ids, classFilter = some ids → ids ≠ [] → toInt c.cls ∈ ids) ∧
      (∀ d ∈ ds, d.xyxy.Normalized ∧ confThr ≤ d.score ∧ ∀ ids, classFilter = some ids → ids ≠ [] → d.cls ∈ ids) ∧
      (∃ rows : List ℕ, rows.Nodup ∧ (∀ i ∈ rows, i ∈ passing) ∧ List.Forall₂ (fun i d => box i = some d) rows ds) ∧
      (layout = .yolo26 → ds = passing.filterMap box ∧
        (∀ ids, classFilter = some ids → ids ≠ [] →
          ∃ all, decode none = some all ∧ ds = all.filter fun d => decide (d.cls ∈ ids)) ∧
        ∀ i c, candidateAt layout out i = some c ↔
          out.rows[i]? = some [c.xyxy.x1, c.xyxy.y1, c.xyxy.x2, c.xyxy.y2, c.score, c.cls]) ∧
      (layout = .yolov8 →
        (let candidates := passing.filterMap (candidateAt layout out)
          let idxs := nmsBoxes (candidates.map fun c => xywh c.xyxy) (candidates.map (·.score)) confThr iouThr
          ds = (picked passing idxs).filterMap box) ∧
        ∀ i c, candidateAt layout out i = some c ↔
          ∃ cx cy w h scores, ∃ k : ℕ,
            (i < out.cols ∧ out.rows.map (fun row => row.getD i 0) = cx :: cy :: w :: h :: scores) ∧
            c.xyxy = ⟨cx - w * (1 / 2), cy - h * (1 / 2), cx + w * (1 / 2), cy + h * (1 / 2)⟩ ∧ c.cls = k ∧
            FirstMaximal scores k c.score) := by
  intro decode passing written_out
  let box := boxOf layout out w0 h0 ratio padX padY
  have same : written_out = box := rfl
  rw [same]
  have w0_ne : w0 ≠ 0 := Nat.one_le_iff_ne_zero.mp w0_pos
  have h0_ne : h0 ≠ 0 := Nat.one_le_iff_ne_zero.mp h0_pos
  have rows_pass : passing.Pairwise (· < ·) ∧ ∀ i, i ∈ passing ↔ ∃ c, candidateAt layout out i = some c ∧
      confThr ≤ c.score ∧ ∀ ids, classFilter = some ids → ids ≠ [] → toInt c.cls ∈ ids :=
    ⟨List.pairwise_lt_range.filter _, fun _ => mem_passingRows⟩
  -- In both layouts the boxes are those of some of the rows that pass, none twice.
  have exact_rows : ∀ chosen : List ℕ, chosen.Nodup → (∀ i ∈ chosen, i ∈ passing) →
      (∀ d ∈ chosen.filterMap box, d.xyxy.Normalized ∧ confThr ≤ d.score ∧
        ∀ ids, classFilter = some ids → ids ≠ [] → d.cls ∈ ids) ∧
      ∃ rows : List ℕ, rows.Nodup ∧ (∀ i ∈ rows, i ∈ passing) ∧
        List.Forall₂ (fun i d => box i = some d) rows (chosen.filterMap box) := by
    intro chosen once pass
    refine ⟨fun d mem => ?_, _, once.filter _, ?_, forall₂_filterMap box chosen⟩
    · obtain ⟨i, mem, is⟩ := List.mem_filterMap.mp mem
      exact boxOf_sound (pass i mem) is
    · exact fun i mem => pass i (List.mem_filter.mp mem).1
  cases layout with
  | yolo26 =>
    have decoded : ∀ classFilter, decode classFilter =
        some ((passingRows .yolo26 out confThr classFilter).filterMap box) := fun classFilter =>
      decodeArrays_yolo26 nmsBoxes ratio_pos.ne' w0_ne h0_ne iouThr
    obtain ⟨sound, rows⟩ := exact_rows passing (passingRows_nodup _ _ _ _) fun _ mem => mem
    refine ⟨_, decoded classFilter, rows_pass, sound, rows, fun _ => ⟨rfl, ?_, fun i c => candidateAt_yolo26⟩, by simp⟩
    rintro ids rfl nonempty
    exact ⟨_, decoded none, boxes_filter nonempty⟩
  | yolov8 =>
    have inside := fun boxes scores thr thr' => (indices boxes scores thr thr').2
    have decoded := @decodeArrays_yolov8 out confThr classFilter w0 h0 ratio padX padY nmsBoxes ratio_pos.ne' w0_ne h0_ne
      iouThr inside
    obtain ⟨sound, rows⟩ := exact_rows _ (picked_nodup (passingRows_nodup _ _ _ _) (indices _ _ _ _).1)
      fun _ mem => mem_of_mem_picked mem
    exact ⟨_, decoded, rows_pass, sound, rows, by simp, fun _ => ⟨rfl, fun i c => candidateAt_yolov8⟩⟩

/-- Three columns of two classes: a tie between the classes, a weak candidate, and one of class 1. -/
def threeColumns : RawOutput where
  rows := [[160, 160, 480], [160, 160, 480], [100, 50, 100], [100, 50, 80], [9 / 10, 1 / 10, 3 / 10],
    [9 / 10, 2 / 10, 8 / 10]]
  cols := 3
  width := by decide +kernel

/-- The weak candidate is left out, so the second one kept comes from the third column. -/
theorem decode_boxes_exact_three_columns :
    ∃ ds, decodeArrays (fun boxes _ _ _ => List.range boxes.length) threeColumns .yolov8 (1 / 2) (45 / 100) none
        640 640 1 0 0 = some ds ∧
      ds = [⟨⟨11 / 64, 11 / 64, 21 / 64, 21 / 64⟩, 9 / 10, 0⟩, ⟨⟨43 / 64, 11 / 16, 53 / 64, 13 / 16⟩, 8 / 10, 1⟩] ∧
      passingRows .yolov8 threeColumns (1 / 2) none = [0, 2] ∧ ∀ d ∈ ds, d.xyxy.Normalized := by
  obtain ⟨ds, decoded, -, sound, -, -, exact_rows⟩ := decode_boxes_exact (fun boxes _ _ _ => List.range boxes.length)
    (fun _ _ _ _ => ⟨List.nodup_range, fun _ mem => List.mem_range.mp mem⟩) threeColumns .yolov8 (1 / 2) (45 / 100) none
    640 640 (by decide) (by decide) 1 (by decide +kernel) 0 0
  have rows := (exact_rows rfl).1
  exact ⟨ds, decoded, rows.trans (by decide +kernel), by decide +kernel, fun d mem => (sound d mem).1⟩

end VisionNx
