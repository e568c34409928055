import VisionNx.Worker.ConfigHistories
import VisionNx.Worker.RoiPrivacy

/-! # What the user has ruled out is not reported

The user rules detections out by the region of interest, the two masks, the classes and
the confidence.  Whatever a connection has seen and whichever runtime answers, each box
of a reply meets all of them as the last configs have set them. -/

namespace VisionNx

open Python Tracker

/-- One box inside another. -/
structure Xyxy.Within (q rect : Xyxy) : Prop where
  x1 : rect.x1 ≤ q.x1
  y1 : rect.y1 ≤ q.y1
  x2 : q.x2 ≤ rect.x2
  y2 : q.y2 ≤ rect.y2

/-- Every detection comes from a candidate that passes the thresholds. -/
theorem decodeBoxes_emitted {nmsBoxes : List (ℚ × ℚ × ℚ × ℚ) → List ℚ → ℚ → ℚ → List ℕ} {out : RawOutput}
    {layout : Layout} {confThr iouThr : ℚ} {classFilter : Option (List ℕ)} {w0 h0 : ℕ} {ratio : ℚ} {padX padY : ℤ}
    {ds : List Detection}
    (decoded : decodeBoxes nmsBoxes out layout confThr iouThr classFilter w0 h0 ratio padX padY = some ds) :
    ∃ chosen : List Candidate,
      (∀ c ∈ chosen, confThr ≤ c.score ∧ passesFilter classFilter (toInt c.cls) = true) ∧
      ds = chosen.filterMap (emitBox w0 h0 ratio padX padY) := by
  have passing (cs : List Candidate) : ∀ c ∈ keptCandidates cs confThr classFilter,
      confThr ≤ c.score ∧ passesFilter classFilter (toInt c.cls) = true := by
    intro c kept
    have passes := (Bool.and_eq_true _ _).mp (List.mem_filter.mp kept).2
    exact ⟨of_decide_eq_true passes.1, passes.2⟩
  cases layout with
  | yolo26 =>
    simp only [decodeBoxes] at decoded
    split at decoded
    · cases decoded
      exact ⟨[], fun _ mem => absurd mem List.not_mem_nil, rfl⟩
    · cases decoded
      exact ⟨_, passing _, rfl⟩
  | yolov8 =>
    simp only [decodeBoxes] at decoded
    split at decoded
    · cases decoded
      exact ⟨[], fun _ mem => absurd mem List.not_mem_nil, rfl⟩
    split at decoded
    · cases decoded
      exact ⟨[], fun _ mem => absurd mem List.not_mem_nil, rfl⟩
    · obtain ⟨chosen, picked, rfl⟩ := Option.map_eq_some_iff.mp decoded
      refine ⟨chosen, fun c mem => ?_, rfl⟩
      obtain ⟨idx, -, at_idx⟩ := mem_of_mapM picked mem
      exact passing _ c (List.mem_of_getElem? at_idx)

namespace Worker

open TransitionRuns

/-! ## What an adapter returns -/

/-- A box that meets the arguments of the `infer` that returned it. -/
structure Detected (confThr : ℚ) (classFilter : Option (List ℕ)) (box : Box) : Prop where
  normalized : box.xyxy.Normalized
  score : confThr ≤ box.score
  cls : ∃ cls : ℤ, box.cls = some (Int32.ofInt cls) ∧ passesFilter classFilter cls = true

/-- `predict` keeps to its `conf` and its `classes`. -/
def YoloModel.KeepsArguments (model : YoloModel) : Prop :=
  ∀ rgb confThr iouThr classes device boxes, model.predict rgb confThr iouThr classes device = some boxes →
    ∀ c ∈ boxes, confThr ≤ c.score ∧ ∀ ids, classes = some ids → ∃ id ∈ ids, ((id : ℕ) : ℤ) = toInt c.cls

/-- So does every model that Ultralytics loads. -/
def Runtimes.KeepsArguments (r : Runtimes) : Prop :=
  ∀ path task model, r.yolo path task = some model → model.KeepsArguments

/-- So does the model of an adapter that wraps Ultralytics. -/
def Adapter.KeepsArguments : Adapter → Prop
  | .onnx _ | .openvino _ => True
  | .pytorch a | .tensorrt a => ∀ session, a.session = some session → session.model.KeepsArguments

variable {confThr iouThr : ℚ} {classFilter : Option (List ℕ)} {rgb : Image} {boxes : List Box}

theorem toBox_detected {d : Detection} {box : Box} (boxed : Detection.toBox d = some box)
    (normalized : d.xyxy.Normalized) (score : confThr ≤ d.score) (passes : passesFilter classFilter d.cls = true) :
    Detected confThr classFilter box := by
  unfold Detection.toBox at boxed
  split at boxed
  · cases boxed
    exact ⟨normalized, score, d.cls, rfl, passes⟩
  · cases boxed

theorem inferRaw_detected {cv2 : Cv2} {run : Image → Option RawOutput} {modelH modelW : ℤ} {layout : Layout}
    (inferred : inferRaw cv2 run modelH modelW layout rgb confThr iouThr classFilter = some boxes) :
    ∀ box ∈ boxes, Detected confThr classFilter box := by
  simp only [inferRaw, Option.bind_eq_bind, Option.bind_eq_some_iff] at inferred
  obtain ⟨⟨canvas, ratio, padX, padY⟩, -, out, -, detections, decoded, boxed⟩ := inferred
  obtain ⟨chosen, passing, rfl⟩ := decodeBoxes_emitted decoded
  intro box mem
  obtain ⟨d, d_mem, is⟩ := mem_of_mapM boxed mem
  obtain ⟨c, c_mem, emitted⟩ := List.mem_filterMap.mp d_mem
  obtain ⟨conf, passes⟩ := passing c c_mem
  have score : d.score = c.score := by
    simp only [emitBox] at emitted
    split at emitted <;> cases emitted
    rfl
  refine toBox_detected is (emitBox_normalized emitted) ?_ ?_
  · rw [score]
    exact conf
  · rw [emitBox_cls emitted]
    exact passes

theorem emitNormalized_some {c : Candidate} {d : Detection} (emitted : emitNormalized c = some d) :
    d.xyxy.Normalized ∧ d.score = c.score ∧ d.cls = toInt c.cls := by
  simp only [emitNormalized] at emitted
  split at emitted
  · cases emitted
  next nonempty =>
    simp only [not_or, not_le] at nonempty
    cases emitted
    exact ⟨⟨clamp01_nonneg _, nonempty.1, clamp01_le_one _, clamp01_nonneg _, nonempty.2, clamp01_le_one _⟩, rfl, rfl⟩

theorem ultralytics_detected {a : UltralyticsAdapter}
    (keeps : ∀ session, a.session = some session → session.model.KeepsArguments)
    (inferred : a.infer rgb confThr iouThr classFilter = some boxes) :
    ∀ box ∈ boxes, Detected confThr classFilter box := by
  unfold UltralyticsAdapter.infer at inferred
  split at inferred
  · cases inferred
    exact fun box mem => absurd mem List.not_mem_nil
  next session loaded =>
    simp only [Option.bind_eq_bind, Option.bind_eq_some_iff] at inferred
    obtain ⟨predicted, is_predicted, boxed⟩ := inferred
    intro box mem
    obtain ⟨d, d_mem, is⟩ := mem_of_mapM boxed mem
    obtain ⟨c, c_mem, emitted⟩ := List.mem_filterMap.mp d_mem
    obtain ⟨normalized, score, cls⟩ := emitNormalized_some emitted
    obtain ⟨conf, classes⟩ := keeps session loaded _ _ _ _ _ _ is_predicted c c_mem
    refine toBox_detected is normalized (score ▸ conf) ?_
    rw [cls]
    -- An empty filter is handed on as none, and passes everything.
    cases filtered : classFilter with
    | none => rfl
    | some ids =>
      cases ids with
      | nil => rfl
      | cons first rest =>
        obtain ⟨id, id_mem, same⟩ := classes (first :: rest) (by rw [filtered]; rfl)
        exact List.any_eq_true.mpr ⟨id, id_mem, beq_iff_eq.mpr same⟩

/-- Whichever runtime it wraps, an adapter returns boxes that meet the arguments of `infer`. -/
theorem infer_detected {cv2 : Cv2} {adapter : Adapter} (keeps : adapter.KeepsArguments)
    (inferred : adapter.infer cv2 rgb confThr iouThr classFilter = some boxes) :
    ∀ box ∈ boxes, Detected confThr classFilter box := by
  have nothing : ∀ box ∈ ([] : List Box), Detected confThr classFilter box := fun box mem => absurd mem List.not_mem_nil
  cases adapter with
  | onnx a =>
    simp only [Adapter.infer, OnnxAdapter.infer] at inferred
    split at inferred
    · cases inferred
      exact nothing
    · exact inferRaw_detected inferred
  | openvino a =>
    simp only [Adapter.infer, OpenvinoAdapter.infer] at inferred
    split at inferred
    · cases inferred
      exact nothing
    · exact inferRaw_detected inferred
  | pytorch a => exact ultralytics_detected keeps inferred
  | tensorrt a => exact ultralytics_detected keeps inferred

/-! ## The adapter in use -/

theorem make_keepsArguments {key : String} {a : Adapter} (made : Adapter.make key = some a) : a.KeepsArguments := by
  unfold Adapter.make at made
  split at made
  · cases made
    trivial
  split at made
  · cases made
    trivial
  split at made
  · cases made
    exact nofun
  split at made
  · cases made
    exact nofun
  · cases made

theorem loadYolo_keepsArguments {r : Runtimes} (all : r.KeepsArguments) {a : UltralyticsAdapter}
    (keeps : ∀ session, a.session = some session → session.model.KeepsArguments) (task : Option String)
    (defaultDevice path deviceHint : String) (session : YoloSession)
    (loaded : (loadYolo task defaultDevice r a path deviceHint).1.session = some session) :
    session.model.KeepsArguments := by
  unfold loadYolo at loaded
  split at loaded
  · exact keeps session loaded
  split at loaded
  · exact keeps session loaded
  split at loaded
  · exact keeps session loaded
  next model is_model =>
    cases loaded
    exact all path task model is_model

theorem load_keepsArguments {r : Runtimes} (all : r.KeepsArguments) {a : Adapter} (keeps : a.KeepsArguments)
    (path deviceHint : String) : (a.load r path deviceHint).1.KeepsArguments := by
  cases a with
  | onnx a => trivial
  | openvino a => trivial
  | pytorch a => exact loadYolo_keepsArguments all keeps _ _ path deviceHint
  | tensorrt a => exact loadYolo_keepsArguments all keeps _ _ path deviceHint

variable {env : Env Adapter} {s s' : ServeState Adapter}

/-- Third-party code whose models keep to their arguments, with any `infer`. -/
def Keeping (b : Behaviour Adapter) : Prop :=
  ∃ r infer inferMs, Runtimes.KeepsArguments r ∧ b = r.behaviour infer inferMs

def AdapterKeeps (s : ServeState Adapter) : Prop := ∀ a, s.adapter = some a → a.KeepsArguments

theorem adapterKeeps_step {e : Incoming × Behaviour Adapter} (keeps : AdapterKeeps s)
    (step : Guarded (fun _ e => Keeping e.2) (Handles env) s e s') : AdapterKeeps s' := by
  obtain ⟨⟨r, infer, inferMs, all, is⟩, handles⟩ := step
  refine adapter_step ?_ ?_ keeps handles
  · intro key adapter constructed
    rw [is] at constructed
    exact make_keepsArguments (construct_some constructed)
  · intro adapter path device keeps
    rw [is]
    exact load_keepsArguments all keeps path device

/-! ## The confidence in force -/

/-- `conf_thr` after some messages, which a config without a `conf` leaves as it is. -/
def confInForce (messages : List Incoming) : ℚ :=
  (messages.filterMap Incoming.config?).foldl
    (fun thr msg => (((Json.lookup "conf" msg).getD (.num thr)).toFloat?).getD thr) (3 / 10)

theorem confInForce_step {A : Type} {env : Env A} {s s' : ServeState A} {messages : List Incoming}
    {e : Incoming × Behaviour A} (in_force : s.confThr = confInForce messages) (handles : Handles env s e s') :
    s'.confThr = confInForce (messages ++ [e.1]) := by
  cases is_config : e.1.config? with
  | none =>
    obtain ⟨cache, tracker, cam, rfl, -⟩ := handles_keeps handles is_config
    simp [confInForce, is_config, in_force]
  | some msg =>
    obtain ⟨cam, handled⟩ := config_handled handles is_config
    obtain ⟨conf, iou, maxAge, adapter, runtime, device, model, read, -, -, rfl⟩ := handleConfig_state handled
    have before : (messages.filterMap Incoming.config?).foldl
        (fun thr msg => (((Json.lookup "conf" msg).getD (.num thr)).toFloat?).getD thr) (3 / 10) = s.confThr :=
      in_force.symm
    simp only [confInForce, List.filterMap_append, List.filterMap_cons, is_config, List.filterMap_nil,
      List.foldl_append, List.foldl_cons, List.foldl_nil, before]
    rw [read]
    rfl

theorem confInForce_run {A : Type} {env : Env A} {s s' : ServeState A} {messages : List Incoming}
    {events : List (Incoming × Behaviour A)} (in_force : s.confThr = confInForce messages)
    (run : Run (Handles env) s events s') : s'.confThr = confInForce (messages ++ events.map Prod.fst) := by
  induction run generalizing messages with
  | nil => simpa using in_force
  | cons first _ ih => simpa using ih (confInForce_step in_force first)

/-! ## The rectangle of the frame that the model sees -/

/-- The crop of a region, in coordinates of the frame. -/
def cropRect (roi : Option (List (List ℚ))) (hdr : FrameHeader) : Xyxy :=
  let crop := cropToRoi (blank hdr) roi hdr.w hdr.h
  { x1 := crop.x1 / hdr.w
    y1 := crop.y1 / hdr.h
    x2 := (crop.x1 + crop.w) / hdr.w
    y2 := (crop.y1 + crop.h) / hdr.h }

/-- The part of a frame that the last config lets the adapter see. -/
def visibleRect (messages : List Incoming) (hdr : FrameHeader) : Xyxy :=
  cropRect (coercePoly (configured messages "roi")) hdr

/-- A decoded frame has the sides of its header. -/
theorem sides_positive {hdr : FrameHeader} {body : List UInt8} {img : Image} (wide : 0 < hdr.w)
    (decoded : decodeRgbBody body hdr.w hdr.h hdr.stride = some img) :
    0 < hdr.h ∧ (img.w : ℤ) = hdr.w ∧ (img.h : ℤ) = hdr.h := by
  obtain ⟨-, height, width⟩ := decoded_size decoded
  simp only [decodeRgbBody] at decoded
  split at decoded
  next size =>
    obtain ⟨tall, -, -, -, cols⟩ := size
    have cols := cols wide.le
    exact ⟨tall, by omega, by omega⟩
  next => cases decoded

/-- What the adapter returns in coordinates of the crop lies in the crop once it is remapped. -/
theorem remap_within {img : Image} {c : Crop} (inside : c.Inside img) {w h : ℤ} (w_pos : 0 < w) (h_pos : 0 < h)
    (width : (img.w : ℤ) = w) (height : (img.h : ℤ) = h) {q : Xyxy} (normalized : q.Normalized) :
    (c.remap w h q).Normalized ∧
      (c.remap w h q).Within ⟨c.x1 / w, c.y1 / h, (c.x1 + c.w) / w, (c.y1 + c.h) / h⟩ := by
  have w_pos' : (0 : ℚ) < w := Int.cast_pos.mpr w_pos
  have h_pos' : (0 : ℚ) < h := Int.cast_pos.mpr h_pos
  have cw_pos : (0 : ℚ) < c.w := Int.cast_pos.mpr inside.w_pos
  have ch_pos : (0 : ℚ) < c.h := Int.cast_pos.mpr inside.h_pos
  have x1_nonneg : (0 : ℚ) ≤ c.x1 := Int.cast_nonneg inside.x1_nonneg
  have y1_nonneg : (0 : ℚ) ≤ c.y1 := Int.cast_nonneg inside.y1_nonneg
  have right : (c.x1 : ℚ) + c.w ≤ w := by exact_mod_cast width ▸ inside.x2_le
  have bottom : (c.y1 : ℚ) + c.h ≤ h := by exact_mod_cast height ▸ inside.y2_le
  have left_edge : 0 ≤ q.x1 * c.w := mul_nonneg normalized.x1_nonneg cw_pos.le
  have top_edge : 0 ≤ q.y1 * c.h := mul_nonneg normalized.y1_nonneg ch_pos.le
  have right_edge : q.x2 * c.w ≤ c.w := mul_le_of_le_one_left cw_pos.le normalized.x2_le
  have bottom_edge : q.y2 * c.h ≤ c.h := mul_le_of_le_one_left ch_pos.le normalized.y2_le
  have x_lt : q.x1 * c.w < q.x2 * c.w := mul_lt_mul_of_pos_right normalized.x_lt cw_pos
  have y_lt : q.y1 * c.h < q.y2 * c.h := mul_lt_mul_of_pos_right normalized.y_lt ch_pos
  rw [remap_eq c w_pos h_pos]
  refine ⟨⟨?_, ?_, ?_, ?_, ?_, ?_⟩, ⟨?_, ?_, ?_, ?_⟩⟩
  · exact div_nonneg (by linarith) w_pos'.le
  · exact div_lt_div_of_pos_right (by linarith) w_pos'
  · exact (div_le_one w_pos').mpr (by linarith)
  · exact div_nonneg (by linarith) h_pos'.le
  · exact div_lt_div_of_pos_right (by linarith) h_pos'
  · exact (div_le_one h_pos').mpr (by linarith)
  · exact div_le_div_of_nonneg_right (by linarith) w_pos'.le
  · exact div_le_div_of_nonneg_right (by linarith) h_pos'.le
  · exact div_le_div_of_nonneg_right (by linarith) w_pos'.le
  · exact div_le_div_of_nonneg_right (by linarith) h_pos'.le

/-! ## One frame -/

/-- A box that the configs among the messages do not rule out. -/
structure Permitted (env : Env Adapter) (messages : List Incoming) (hdr : FrameHeader) (box : Box) : Prop where
  normalized : box.xyxy.Normalized
  in_roi : box.xyxy.Within (visibleRect messages hdr)
  masks : passesMasks env (pixelPolygon messages "inclusive_mask" hdr.w hdr.h)
    (pixelPolygon messages "exclusive_mask" hdr.w hdr.h) hdr.w hdr.h box = true
  some_class : Worker.classFilter (configured messages "classes") ≠ some []
  cls : ∃ cls : ℤ, box.cls = some (Int32.ofInt cls) ∧
    passesFilter (Worker.classFilter (configured messages "classes")) cls = true
  score : confInForce messages ≤ box.score

/-- The track id of a box does not matter. -/
theorem Permitted.of_untracked {messages : List Incoming} {hdr : FrameHeader} {box box' : Box}
    (permitted : Permitted env messages hdr box) (same : box.untracked = box'.untracked) :
    Permitted env messages hdr box' := by
  obtain ⟨xyxy, score, cls, trackId⟩ := box
  obtain ⟨xyxy', score', cls', trackId'⟩ := box'
  cases same
  exact ⟨permitted.normalized, permitted.in_roi, permitted.masks, permitted.some_class, permitted.cls, permitted.score⟩

theorem maskedBoxes_permitted {messages : List Incoming} {hdr : FrameHeader} {body : List UInt8} {b : Behaviour Adapter}
    {cv2 : Cv2} (inForce : InForce messages s) (conf : s.confThr = confInForce messages) (keeps : AdapterKeeps s)
    (infers : b.infer = Adapter.infer cv2) (wide : 0 < hdr.w) :
    ∀ box ∈ maskedBoxes env b s hdr body, Permitted env messages hdr box := by
  unfold maskedBoxes
  split
  · exact fun box mem => absurd mem List.not_mem_nil
  next boxes answered =>
    intro box mem
    obtain ⟨given, called, found⟩ := Option.bind_eq_some_iff.mp answered
    rw [applyMasks_boxes _ _ _ _ _ (inForce.polyPx hdr.w hdr.h)] at mem
    obtain ⟨box_mem, passes⟩ := List.mem_filter.mp mem
    obtain ⟨inferred, is_inferred, rfl⟩ := Option.map_eq_some_iff.mp found
    obtain ⟨raw, raw_mem, rfl⟩ := List.mem_map.mp box_mem
    rw [infers] at is_inferred
    have detected := infer_detected (keeps given.1 (inferInput_adapter called)) is_inferred raw raw_mem
    -- The crop that the adapter was given is the one of the region in force.
    obtain ⟨some_class, img, decoded, cropped⟩ : s.classFilterIds ≠ some [] ∧
        ∃ img, decodeRgbBody body hdr.w hdr.h hdr.stride = some img ∧
          given.2 = cropToRoi img s.roiNorm hdr.w hdr.h := by
      simp only [inferInput] at called
      split at called
      · cases called
      next some_class =>
        split at called
        · cases called
        split at called
        · obtain ⟨img, decoded, rfl⟩ := Option.map_eq_some_iff.mp called
          exact ⟨some_class, img, decoded, rfl⟩
        · cases called
    obtain ⟨tall, width, height⟩ := sides_positive wide decoded
    have inside : given.2.Inside img := by
      rw [cropped, ← width, ← height]
      exact cropToRoi_inside img s.roiNorm (by omega) (by omega)
    have rect : visibleRect messages hdr =
        ⟨given.2.x1 / hdr.w, given.2.y1 / hdr.h, (given.2.x1 + given.2.w) / hdr.w, (given.2.y1 + given.2.h) / hdr.h⟩ := by
      obtain ⟨-, img_h, img_w⟩ := decoded_size decoded
      obtain ⟨_, same, -, -⟩ := @crop_rect img (blank hdr) s.roiNorm hdr.w hdr.h img_h.symm img_w.symm
      rw [visibleRect, cropRect, ← inForce.roi, same, ← cropped]
    obtain ⟨normalized, within⟩ := remap_within inside wide tall width height detected.normalized
    refine ⟨normalized, rect ▸ within, ?_, inForce.classes ▸ some_class, inForce.classes ▸ detected.cls,
      conf ▸ detected.score⟩
    rw [pixelPolygon, pixelPolygon, ← inForce.inclusive, ← inForce.exclusive]
    exact passes

theorem idsOk_configTracker {tracker : Option ByteTrackLite} (ok : ∀ t, tracker = some t → t.IdsOk)
    (maxAge : Option ℤ) (matchMode : Option String) : (configTracker tracker maxAge matchMode).IdsOk := by
  cases tracker with
  | none => exact idsOk_init _ _ _
  | some t =>
    have same := ok t rfl
    exact ⟨same.next_pos, same.distinct, same.range⟩

theorem ready_step {A : Type} {env : Env A} {s s' : ServeState A} {e : Incoming × Behaviour A} (ready : Ready s)
    (first : s'.adapter.isSome = true → s'.tracker.isSome = true) (handles : Handles env s e s') : Ready s' := by
  refine ⟨first, ?_⟩
  obtain ⟨msg, cam, -, handled⟩ | ⟨msg, hdr, body, cam, is_frame, done⟩ | ⟨-, -, cam, rfl⟩ := handles_cases handles
  · obtain ⟨maxAge, matchMode, tracker⟩ := handleConfig_tracker handled
    intro t is
    rw [tracker, Option.some.injEq] at is
    exact is ▸ idsOk_configTracker ready.ids maxAge matchMode
  · obtain ⟨effects, handled⟩ := handles
    obtain ⟨s'', effects', handled', ready', -⟩ := handle_frame env e.2 ready msg hdr body
    rw [is_frame, handled'] at handled
    cases handled
    exact ready'.ids
  · exact ready.ids

theorem ready_run {A : Type} {env : Env A} {s s' : ServeState A} {messages : List Incoming}
    {events : List (Incoming × Behaviour A)} (inForce : InForce messages s) (ready : Ready s)
    (run : Run (Handles env) s events s') : Ready s' := by
  induction run generalizing messages with
  | nil => exact ready
  | cons first _ ih =>
    have next := inForce.step first
    exact ih next (ready_step ready next.tracker_first first)

/-- What the messages of a connection have left behind. -/
structure Past (messages : List Incoming) (s : ServeState Adapter) : Prop where
  inForce : InForce messages s
  conf : s.confThr = confInForce messages
  keeps : AdapterKeeps s
  ready : Ready s

theorem Past.of_run {events : List (Incoming × Behaviour Adapter)} (run : Run (Handles env) {} events s)
    (keeping : ∀ e ∈ events, Keeping e.2) : Past (events.map Prod.fst) s where
  inForce := by simpa using inForce_start.run run
  conf := @confInForce_run Adapter _ _ _ [] _ rfl run
  keeps := (run.guarded fun e mem _ => keeping e mem).invariant (fun _ _ _ keeps step => adapterKeeps_step keeps step) nofun
  ready := ready_run inForce_start ⟨nofun, nofun⟩ run

/-- A frame is answered, and none of the boxes is ruled out. -/
theorem Past.frame {messages : List Incoming} (past : Past messages s) {b : Behaviour Adapter} {cv2 : Cv2}
    (infers : b.infer = Adapter.infer cv2) (msg : List (String × Json)) {hdr : FrameHeader} (wide : 0 < hdr.w)
    (body : List UInt8) :
    ∃ s' reply updates, handle env b s (.frame msg hdr body) = some (s', { replies := [reply], updates }) ∧
      ∀ box ∈ reply.boxes, Permitted env messages hdr box ∧ ∃ id, box.trackId = some id ∧ 1 ≤ id := by
  obtain ⟨inForce, conf, keeps, ready⟩ := past
  generalize seen : ({ s with cam := (Json.lookup "camera_uuid" msg).getD s.cam } : ServeState Adapter) = s₁
  have same_tracker : s₁.tracker = s.tracker := by rw [← seen]
  rw [handle, seen]
  cases tracked : s.tracker with
  | none =>
    have absent : s₁.adapter = none := by
      by_contra present
      have := ready.tracker_first (Option.isSome_iff_ne_none.mpr (by rwa [← seen] at present))
      simp [tracked] at this
    obtain ⟨reply, effects, -, nothing, -⟩ := handleFrame_untracked env b (same_tracker.trans tracked) absent hdr body
    refine ⟨_, reply, [], by rw [← effects], fun box mem => ?_⟩
    rw [nothing] at mem
    exact absurd mem List.not_mem_nil
  | some t =>
    obtain ⟨ms, effects⟩ := @handleFrame_effects Adapter env b s₁ hdr body t (same_tracker.trans tracked)
    refine ⟨_, _, _, by rw [← effects], fun box mem => ⟨?_, stamped_update (ready.ids t tracked) _ box mem⟩⟩
    have inForce₁ : InForce messages s₁ := seen ▸ inForce.cam _
    -- The tracker returns the boxes it was given, but for the ids.
    have untracked : box.untracked ∈ (maskedBoxes env b s₁ hdr body).map Box.untracked := by
      rw [← t.untracked_update]
      exact List.mem_map_of_mem mem
    obtain ⟨given, given_mem, same⟩ := List.mem_map.mp untracked
    refine Permitted.of_untracked ?_ same
    exact maskedBoxes_permitted inForce₁ (by rw [← seen]; exact conf) (by rw [← seen]; exact keeps) infers wide given given_mem

/-- After any history of a connection, a frame is answered by boxes of which none is ruled out by the
    region, the masks, the classes or the confidence of the last configs, and each has a track id. -/
theorem reported_boxes_permitted (pointPolygonTest : List (ℤ × ℤ) → ℚ × ℚ → Bool) (cv2 : Cv2)
    {events : List (Incoming × Behaviour Adapter)} {s : ServeState Adapter}
    (past : Run (Handles (adapterEnv pointPolygonTest)) {} events s) (keeping : ∀ e ∈ events, Keeping e.2)
    (r : Runtimes) (inferMs : ℚ) (msg : List (String × Json)) (hdr : FrameHeader) (wide : 0 < hdr.w)
    (body : List UInt8) :
    ∃ s' reply updates, handle (adapterEnv pointPolygonTest) (r.behaviour (Adapter.infer cv2) inferMs) s
        (.frame msg hdr body) = some (s', { replies := [reply], updates }) ∧
      ∀ box ∈ reply.boxes, Permitted (adapterEnv pointPolygonTest) (events.map Prod.fst) hdr box ∧
        ∃ id, box.trackId = some id ∧ 1 ≤ id :=
  (Past.of_run past keeping).frame rfl msg wide body

/-- Cars in the right half of the frame. -/
def rightHalfConfig : List (String × Json) :=
  [("type", .str "config"), ("model_path", .str "street.onnx"), ("classes", .arr [.str "car"]),
    ("roi", .arr [.arr [.num (1 / 2), .num 0], .arr [.num 1, .num 0], .arr [.num 1, .num 1],
      .arr [.num (1 / 2), .num 1]])]

def afterRightHalf : ServeState Adapter :=
  ((handle smallEnv carBehaviour {} (.message rightHalfConfig)).map Prod.fst).getD {}

theorem carRuntimes_keepsArguments : carRuntimes.KeepsArguments := by
  intro path task model loaded
  cases loaded
  exact nofun

/-- Of a car and a person, the car is reported, in the right half. -/
theorem reported_boxes_permitted_right_half :
    (handle smallEnv carBehaviour afterRightHalf (.frame [] ⟨16, 8, 48, 1⟩ (List.replicate 384 90))).map
        (fun after => after.2.replies.map fun reply => reply.boxes.map fun box => (box.xyxy.x1, box.xyxy.x2, box.cls)) =
      some [[(1 / 2, 1, some 2)]] ∧
    ∃ s' reply updates,
      handle smallEnv carBehaviour afterRightHalf (.frame [] ⟨16, 8, 48, 1⟩ (List.replicate 384 90)) =
        some (s', { replies := [reply], updates }) ∧
      ∀ box ∈ reply.boxes, Permitted smallEnv [.message rightHalfConfig] ⟨16, 8, 48, 1⟩ box ∧
        ∃ id, box.trackId = some id ∧ 1 ≤ id := by
  have configured : Run (Handles smallEnv) {} [(.message rightHalfConfig, carBehaviour)] afterRightHalf := by
    refine .cons ?_ (.nil _)
    obtain ⟨after, handled⟩ := Option.isSome_iff_exists.mp
      (show (handle smallEnv carBehaviour {} (.message rightHalfConfig)).isSome = true by decide +kernel)
    exact ⟨after.2, by simp only [afterRightHalf, handled, Option.map_some, Option.getD_some, Prod.mk.eta]⟩
  refine ⟨by decide +kernel, ?_⟩
  exact reported_boxes_permitted (fun _ _ => true) carCv2 configured
    (List.forall_mem_singleton.mpr ⟨carRuntimes, _, 0, carRuntimes_keepsArguments, rfl⟩) carRuntimes 0 [] ⟨16, 8, 48, 1⟩ (by decide) _

end Worker

end VisionNx
