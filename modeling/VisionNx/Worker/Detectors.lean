import VisionNx.Worker.Adapters

/-! # What the thresholds take from the output of a model

The confidence and the class filter choose among the candidates that a model has found.
A model that suppresses duplicates itself loses nothing but what they refuse; for any
other one they also decide what `NMSBoxes` gets to see. -/

namespace VisionNx.Worker

open Python Tracker

/-! ## Candidates -/

/-- The candidates of an output, before any threshold. -/
def candidatesOf (layout : Layout) (out : RawOutput) : List Candidate :=
  match layout with
  | .yolo26 => if out.cols ≠ 6 then [] else out.rows.filterMap candidateYolo26
  | .yolov8 => if out.rows.length < 5 then [] else out.transposed.filterMap candidateYolov8

/-- Every class that the model reports is one of the 80. -/
def OfCoco (layout : Layout) (out : RawOutput) : Prop :=
  ∀ c ∈ candidatesOf layout out, 0 ≤ toInt c.cls ∧ toInt c.cls < 80

variable {nmsBoxes : List (ℚ × ℚ × ℚ × ℚ) → List ℚ → ℚ → ℚ → List ℕ} {out : RawOutput} {layout : Layout}
  {conf conf' iou iou' : ℚ} {classFilter classFilter' : Option (List ℕ)} {w0 h0 : ℕ} {ratio : ℚ} {padX padY : ℤ}

/-- Of an output only what the thresholds keep of its candidates is decoded. -/
theorem decodeBoxes_eq (nmsBoxes : List (ℚ × ℚ × ℚ × ℚ) → List ℚ → ℚ → ℚ → List ℕ) (out : RawOutput) (layout : Layout)
    (conf iou : ℚ) (classFilter : Option (List ℕ)) (w0 h0 : ℕ) (ratio : ℚ) (padX padY : ℤ) :
    decodeBoxes nmsBoxes out layout conf iou classFilter w0 h0 ratio padX padY =
      let kept := keptCandidates (candidatesOf layout out) conf classFilter
      match layout with
      | .yolo26 => some (kept.filterMap (emitBox w0 h0 ratio padX padY))
      | .yolov8 =>
        if kept.isEmpty then some []
        else
          let idxs := nmsBoxes (kept.map fun c => xywh c.xyxy) (kept.map (·.score)) conf iou
          (idxs.mapM (kept[·]?)).map fun chosen => chosen.filterMap (emitBox w0 h0 ratio padX padY) := by
  cases layout with
  | yolo26 =>
    simp only [decodeBoxes, candidatesOf]
    split
    · rfl
    · rfl
  | yolov8 =>
    simp only [decodeBoxes, candidatesOf]
    split
    · rfl
    · rfl

/-! ## One model, two class filters -/

/-- Two filters that pass the same of the 80 classes. -/
def PassSame (classFilter classFilter' : Option (List ℕ)) : Prop :=
  ∀ cls : ℤ, 0 ≤ cls → cls < 80 → passesFilter classFilter' cls = passesFilter classFilter cls

theorem keptCandidates_same (coco : OfCoco layout out) (same : PassSame classFilter classFilter') :
    keptCandidates (candidatesOf layout out) conf classFilter' =
      keptCandidates (candidatesOf layout out) conf classFilter := by
  apply List.filter_congr
  intro c mem
  obtain ⟨nonneg, below⟩ := coco c mem
  rw [same _ nonneg below]

theorem decodeBoxes_same (coco : OfCoco layout out) (same : PassSame classFilter classFilter') :
    decodeBoxes nmsBoxes out layout conf iou classFilter' w0 h0 ratio padX padY =
      decodeBoxes nmsBoxes out layout conf iou classFilter w0 h0 ratio padX padY := by
  rw [decodeBoxes_eq, decodeBoxes_eq, keptCandidates_same coco same]

/-! ## Tighter thresholds -/

/-- A filter that passes no more of the 80 classes. -/
def PassesFewer (classFilter classFilter' : Option (List ℕ)) : Prop :=
  ∀ cls : ℤ, 0 ≤ cls → cls < 80 → passesFilter classFilter' cls = true → passesFilter classFilter cls = true

theorem keptCandidates_fewer (coco : OfCoco layout out) (higher : conf ≤ conf')
    (fewer : PassesFewer classFilter classFilter') :
    (keptCandidates (candidatesOf layout out) conf' classFilter').Sublist
      (keptCandidates (candidatesOf layout out) conf classFilter) := by
  have more : keptCandidates (candidatesOf layout out) conf' classFilter' =
      (keptCandidates (candidatesOf layout out) conf classFilter).filter fun c =>
        decide (conf' ≤ c.score) && passesFilter classFilter' (toInt c.cls) := by
    rw [keptCandidates, keptCandidates, List.filter_filter]
    apply List.filter_congr
    intro c mem
    obtain ⟨nonneg, below⟩ := coco c mem
    by_cases kept : conf' ≤ c.score ∧ passesFilter classFilter' (toInt c.cls) = true
    · simp [kept.1, kept.2, higher.trans kept.1, fewer _ nonneg below kept.2]
    · have refused : (decide (conf' ≤ c.score) && passesFilter classFilter' (toInt c.cls)) = false := by
        simpa using kept
      rw [refused, Bool.false_and]
  rw [more]
  exact List.filter_sublist

/-- The boxes of detections whose classes fit `int32`. -/
theorem toBox_of_coco {d : Detection} (nonneg : 0 ≤ d.cls) (below : d.cls < 80) :
    Detection.toBox d = some { xyxy := d.xyxy, score := d.score, cls := some (Int32.ofInt d.cls) } := by
  rw [Detection.toBox, if_pos (by omega)]

theorem mapM_some {α β : Type} {f : α → Option β} {g : α → β} {xs : List α} (each : ∀ x ∈ xs, f x = some (g x)) :
    xs.mapM f = some (xs.map g) := by
  induction xs with
  | nil => rfl
  | cons x xs ih =>
    rw [List.mapM_cons, each x List.mem_cons_self, ih fun y mem => each y (List.mem_cons_of_mem _ mem)]
    rfl

/-- With a model that suppresses duplicates itself, every kept candidate that is not empty is a box. -/
theorem decoded_yolo26 (coco : OfCoco .yolo26 out) :
    (decodeBoxes nmsBoxes out .yolo26 conf iou classFilter w0 h0 ratio padX padY).bind (·.mapM Detection.toBox) =
      some (((keptCandidates (candidatesOf .yolo26 out) conf classFilter).filterMap
        (emitBox w0 h0 ratio padX padY)).map fun d =>
          { xyxy := d.xyxy, score := d.score, cls := some (Int32.ofInt d.cls) }) := by
  rw [decodeBoxes_eq, Option.bind_some]
  apply mapM_some
  intro d mem
  obtain ⟨c, kept, emitted⟩ := List.mem_filterMap.mp mem
  obtain ⟨nonneg, below⟩ := coco c (List.mem_of_mem_filter kept)
  rw [← emitBox_cls emitted] at nonneg below
  exact toBox_of_coco nonneg below

/-! ## Adapters -/

/-- An adapter whose model has one of the `allowed` layouts and reports the 80 classes only.  Ultralytics
    applies the thresholds itself, so its adapters have nothing loaded here. -/
def Adapter.Detects (allowed : Layout → Prop) : Adapter → Prop
  | .onnx a => ∀ session ∈ a.session, allowed a.layout ∧
      ∀ name image out, session.ort.run name image = some out → OfCoco a.layout out
  | .openvino a => ∀ session ∈ a.session, allowed a.layout ∧
      ∀ port image out, session.compiled.run port image = some out → OfCoco a.layout out
  | .pytorch a | .tensorrt a => a.session = none

/-- Third-party code that only serves such models, and raises in no query after a model is there. -/
structure Runtimes.Detects (allowed : Layout → Prop) (r : Runtimes) : Prop where
  onnx : ∀ path providers sess, r.inferenceSession path providers = some sess →
    ∃ shape, sess.outputs.head? = some shape ∧ allowed (detectLayout shape).1 ∧
      ∀ name image out, sess.run name image = some out → OfCoco (detectLayout shape).1 out
  get_outputs : r.getOutputs = true
  openvino : ∀ model device compiled, r.compileModel model device = some compiled →
    allowed (detectLayout (OpenvinoAdapter.coerced compiled.outputShape)).1 ∧
      ∀ port image out, compiled.run port image = some out →
        OfCoco (detectLayout (OpenvinoAdapter.coerced compiled.outputShape)).1 out
  ports : r.compiledInput = true ∧ r.compiledOutput = true ∧ r.outputShape = true
  no_ultralytics : r.importYolo = false

variable {allowed : Layout → Prop} {r : Runtimes} {adapter : Adapter} {path device : String}

theorem Runtimes.Detects.mono {allowed' : Layout → Prop} (served : r.Detects allowed)
    (more : ∀ layout, allowed layout → allowed' layout) : r.Detects allowed' where
  onnx path providers sess started := by
    obtain ⟨shape, first, may, reports⟩ := served.onnx path providers sess started
    exact ⟨shape, first, more _ may, reports⟩
  get_outputs := served.get_outputs
  openvino model device compiled is := (served.openvino model device compiled is).imp (more _) id
  ports := served.ports
  no_ultralytics := served.no_ultralytics

theorem Adapter.detects_make {key : String} (made : Adapter.make key = some adapter) : adapter.Detects allowed := by
  simp only [Adapter.make] at made
  split at made
  · cases made
    exact nofun
  split at made
  · cases made
    exact nofun
  split at made
  · cases made
    rfl
  split at made
  · cases made
    rfl
  · cases made

theorem OnnxAdapter.detects_load (served : r.Detects allowed) {a : OnnxAdapter}
    (detects : (Adapter.onnx a).Detects allowed) : (Adapter.onnx (a.load r path device).1).Detects allowed := by
  simp only [OnnxAdapter.load]
  cases found : OnnxAdapter.checked r path device with
  | none => exact detects
  | some loaded =>
    obtain ⟨session, inputName, modelH, modelW⟩ := loaded
    have is_session : r.inferenceSession path (OnnxAdapter.providers device) = some session.ort := by
      simp only [OnnxAdapter.checked, Option.bind_eq_bind, Option.bind_eq_some_iff] at found
      obtain ⟨sess, started, inp, -, sides⟩ := found
      split at sides
      · cases sides
        exact started
      · cases sides
    obtain ⟨shape, first, may, reports⟩ := served.onnx _ _ _ is_session
    simp only [answer, served.get_outputs, if_true, first]
    intro session' is
    obtain rfl := Option.some.inj is
    exact ⟨may, reports⟩

theorem OpenvinoAdapter.detects_load (served : r.Detects allowed) {a : OpenvinoAdapter}
    (detects : (Adapter.openvino a).Detects allowed) : (Adapter.openvino (a.load r path device).1).Detects allowed := by
  obtain ⟨input, output, shape⟩ := served.ports
  simp only [OpenvinoAdapter.load]
  split
  · exact detects
  split
  · exact detects
  cases found : OpenvinoAdapter.checked r path device with
  | none => exact detects
  | some session =>
    have compiled : ∃ model device, r.compileModel model device = some session.compiled := by
      simp only [OpenvinoAdapter.checked, Option.bind_eq_bind, Option.bind_eq_some_iff, Option.pure_def,
        Option.some.injEq] at found
      obtain ⟨model, -, compiled, either, rfl⟩ := found
      simp only [answer] at either
      split at either
      · obtain first | second := Option.or_eq_some_iff.mp either
        · exact ⟨_, _, first⟩
        · exact ⟨_, _, second.2⟩
      · cases either
    obtain ⟨model, device', is_compiled⟩ := compiled
    obtain ⟨may, reports⟩ := served.openvino _ _ _ is_compiled
    simp only [input, output, shape, Bool.not_true, Bool.false_eq_true, if_false]
    intro session' is
    obtain rfl := Option.some.inj is
    exact ⟨may, reports⟩

theorem detects_loadYolo (served : r.Detects allowed) {a : UltralyticsAdapter} (none_yet : a.session = none)
    (task : Option String) (default : String) : (loadYolo task default r a path device).1.session = none := by
  simp only [loadYolo, served.no_ultralytics, Bool.not_false, if_true]
  split
  · exact none_yet
  · exact none_yet

theorem Adapter.Detects.load (served : r.Detects allowed) (detects : adapter.Detects allowed) :
    (adapter.load r path device).1.Detects allowed := by
  cases adapter with
  | onnx a => exact OnnxAdapter.detects_load served detects
  | openvino a => exact OpenvinoAdapter.detects_load served detects
  | pytorch a => exact detects_loadYolo served detects none "cpu"
  | tensorrt a => exact detects_loadYolo served detects (some "detect") "cuda:0"

/-! ## What the adapters return -/

variable {cv2 : Cv2} {rgb : Image}

theorem inferRaw_eq (cv2 : Cv2) (run : Image → Option RawOutput) (modelH modelW : ℤ) (layout : Layout) (rgb : Image)
    (conf iou : ℚ) (classFilter : Option (List ℕ)) :
    inferRaw cv2 run modelH modelW layout rgb conf iou classFilter =
      (letterbox cv2.resizer rgb (modelH, modelW)).bind fun fitted => (run fitted.1).bind fun out =>
        (decodeBoxes cv2.nmsBoxes out layout conf iou classFilter rgb.w rgb.h fitted.2.1 fitted.2.2.1
          fitted.2.2.2).bind (·.mapM Detection.toBox) := rfl

theorem inferRaw_same {run : Image → Option RawOutput} {modelH modelW : ℤ} (same : PassSame classFilter classFilter')
    (reports : ∀ image out, run image = some out → OfCoco layout out) :
    inferRaw cv2 run modelH modelW layout rgb conf iou classFilter' =
      inferRaw cv2 run modelH modelW layout rgb conf iou classFilter := by
  rw [inferRaw_eq, inferRaw_eq]
  cases letterbox cv2.resizer rgb (modelH, modelW) with
  | none => rfl
  | some fitted =>
    rw [Option.bind_some, Option.bind_some]
    cases ran : run fitted.1 with
    | none => rfl
    | some out => rw [Option.bind_some, Option.bind_some, decodeBoxes_same (reports _ out ran) same]

theorem inferRaw_fewer {run : Image → Option RawOutput} {modelH modelW : ℤ} (higher : conf ≤ conf')
    (fewer : PassesFewer classFilter classFilter')
    (reports : ∀ image out, run image = some out → OfCoco .yolo26 out) :
    ((inferRaw cv2 run modelH modelW .yolo26 rgb conf' iou' classFilter').getD []).Sublist
      ((inferRaw cv2 run modelH modelW .yolo26 rgb conf iou classFilter).getD []) := by
  rw [inferRaw_eq, inferRaw_eq]
  cases letterbox cv2.resizer rgb (modelH, modelW) with
  | none => exact .slnil
  | some fitted =>
    rw [Option.bind_some, Option.bind_some]
    cases ran : run fitted.1 with
    | none => exact .slnil
    | some out =>
      have coco := reports _ out ran
      rw [Option.bind_some, Option.bind_some, decoded_yolo26 coco, decoded_yolo26 coco]
      exact ((keptCandidates_fewer coco higher fewer).filterMap _).map _

/-- Filters that pass the same classes find the same boxes. -/
theorem Adapter.infer_same (detects : adapter.Detects allowed) (same : PassSame classFilter classFilter') :
    adapter.infer cv2 rgb conf iou classFilter' = adapter.infer cv2 rgb conf iou classFilter := by
  cases adapter with
  | onnx a =>
    cases loaded : a.session with
    | none => simp only [Adapter.infer, OnnxAdapter.infer, loaded]
    | some session =>
      obtain ⟨-, reports⟩ := detects session loaded
      simp only [Adapter.infer, OnnxAdapter.infer, loaded]
      exact inferRaw_same same (reports a.inputName)
  | openvino a =>
    cases loaded : a.session with
    | none => simp only [Adapter.infer, OpenvinoAdapter.infer, loaded]
    | some session =>
      obtain ⟨-, reports⟩ := detects session loaded
      simp only [Adapter.infer, OpenvinoAdapter.infer, loaded]
      apply inferRaw_same same
      intro image out ran
      obtain ⟨port, -, ran⟩ := Option.bind_eq_some_iff.mp ran
      exact reports port image out ran
  | pytorch a | tensorrt a =>
    have unloaded : a.session = none := detects
    simp only [Adapter.infer, UltralyticsAdapter.infer, unloaded]

/-- Tighter thresholds find no other boxes, if the model suppresses duplicates itself. -/
theorem Adapter.infer_fewer (detects : adapter.Detects (· = .yolo26)) (higher : conf ≤ conf')
    (fewer : PassesFewer classFilter classFilter') :
    ((adapter.infer cv2 rgb conf' iou' classFilter').getD []).Sublist
      ((adapter.infer cv2 rgb conf iou classFilter).getD []) := by
  cases adapter with
  | onnx a =>
    cases loaded : a.session with
    | none =>
      simp only [Adapter.infer, OnnxAdapter.infer, loaded]
      exact .slnil
    | some session =>
      obtain ⟨layout, reports⟩ := detects session loaded
      simp only [Adapter.infer, OnnxAdapter.infer, loaded, layout]
      rw [layout] at reports
      exact inferRaw_fewer higher fewer (reports a.inputName)
  | openvino a =>
    cases loaded : a.session with
    | none =>
      simp only [Adapter.infer, OpenvinoAdapter.infer, loaded]
      exact .slnil
    | some session =>
      obtain ⟨layout, reports⟩ := detects session loaded
      simp only [Adapter.infer, OpenvinoAdapter.infer, loaded, layout]
      rw [layout] at reports
      apply inferRaw_fewer higher fewer
      intro image out ran
      obtain ⟨port, -, ran⟩ := Option.bind_eq_some_iff.mp ran
      exact reports port image out ran
  | pytorch a | tensorrt a =>
    have unloaded : a.session = none := detects
    simp only [Adapter.infer, UltralyticsAdapter.infer, unloaded]
    exact .slnil

end VisionNx.Worker
