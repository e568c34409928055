import VisionNx.Agent.DeviceAgent

/-! # The settings as texts

`settingsReceived` reads every setting as a string.  `parse` is `nx::kit::Json::parse`;
it keeps numerals as they are written, and `none` is an error. -/

namespace VisionNx.Agent

open BinaryFloats Cpp

/-! ## Numbers -/

def parseFloatPercent (s : String) (fallback : Floating) : Floating :=
  if s = "" then fallback
  else
    match stof s with
    | some v => v.divNat float 100
    | none => fallback

def parseInt (s : String) (fallback : ℤ) : ℤ := if s = "" then fallback else (stoi s).getD fallback

/-! ## Classes -/

def stringItem : Json → Option String
  | .str s => some s
  | _ => none

/-- The list, and whether it has been set. -/
def parseClassesJson (parse : String → Option Json) (raw : String) : List String × Bool :=
  if raw = "" then ([], false)
  else
    match parse raw with
    | some (.arr items) => (items.filterMap stringItem, true)
    | _ => ([], false)

/-! ## Regions -/

/-- `figure.points`, `points`, or the array itself. -/
def pointArr : Json → Option (List Json)
  | .arr items => some items
  | .obj fields =>
    match ((Json.obj fields).get "figure").get "points", (Json.obj fields).get "points" with
    | .arr points, _ => some points
    | _, .arr points => some points
    | _, _ => none
  | _ => none

def figurePoints (parse : String → Option Json) (raw : String) : Option (List Json) :=
  if raw = "" then none else (parse raw).bind pointArr

/-- The values of an array with at least two items. -/
def pointItems : Json → Option (Json × Json)
  | .arr (x :: y :: _) => some (x, y)
  | _ => none

def floatPoint (p : Json × Json) : Floating × Floating := (floatValue p.1, floatValue p.2)

def parsePolygonJson (parse : String → Option Json) (raw : String) : List (Floating × Floating) :=
  match figurePoints parse raw with
  | none => []
  | some points =>
    let pts := (points.filterMap pointItems).map floatPoint
    -- Fewer than three points enclose no area.
    if pts.length < 3 then [] else pts

/-- The first two points of a figure, if both are there. -/
def boxCorners (parse : String → Option Json) (raw : String) : Option ((Json × Json) × (Json × Json)) :=
  match figurePoints parse raw with
  | some (a :: b :: _) => do return (← pointItems a, ← pointItems b)
  | _ => none

/-- Less than `1e-5f` apart. -/
def tooNarrow (a b : Floating) : Bool := ((a.max b).sub float (a.min b)).lt (float.round (1 / 100000))

/-- `parseBoxFigure`: the corners of the rectangle, counter-clockwise from the top left one. -/
def parseBoxFigure (parse : String → Option Json) (raw : String) : List (Floating × Floating) :=
  match boxCorners parse raw with
  | none => []
  | some corners =>
    let a := floatPoint corners.1
    let b := floatPoint corners.2
    if tooNarrow a.1 b.1 || tooNarrow a.2 b.2 then []
    else
      let (x1, x2) := (a.1.min b.1, a.1.max b.1)
      let (y1, y2) := (a.2.min b.2, a.2.max b.2)
      [(x1, y1), (x2, y1), (x2, y2), (x1, y2)]

/-! ## All of them -/

def trackClassMatches : List String := ["strict", "vehicle_group", "any"]

/-- What `settingsReceived` stores. -/
def parsedSettings (parse : String → Option Json) (settingValue : String → String) : CameraSettings :=
  let trackClassMatch := settingValue "trackClassMatch"
  let classes := parseClassesJson parse (settingValue "classes")
  { modelPath := settingValue "modelPath"
    conf := parseFloatPercent (settingValue "conf") (float.round (3 / 10))
    iou := parseFloatPercent (settingValue "iou") (float.round (1 / 2))
    frameSkip := parseInt (settingValue "frameSkip") 1
    runtime := settingValue "runtime"
    device := settingValue "device"
    trackMaxAge := min (max (parseInt (settingValue "trackMaxAge") 90) 10) 300
    trackClassMatch := if trackClassMatch ∈ trackClassMatches then trackClassMatch else "vehicle_group"
    classes := classes.1
    classesSet := classes.2
    roi := parseBoxFigure parse (settingValue "roi")
    inclusiveMask := parsePolygonJson parse (settingValue "inclusiveMask")
    exclusiveMask := parsePolygonJson parse (settingValue "exclusiveMask") }

/-! ## Thresholds -/

theorem parseFloatPercent_isFinite {fallback : Floating} (finite : fallback.isFinite = true) (s : String) :
    (parseFloatPercent s fallback).isFinite = !spellsNonFinite s := by
  unfold parseFloatPercent
  split
  next empty =>
    rw [empty, finite]
    rfl
  next =>
    cases read : stof s with
    | none => rw [finite, not_spellsNonFinite_of_none read, Bool.not_false]
    | some v =>
      obtain ⟨spelled, infinite⟩ | ⟨spelled, x, rfl, fits⟩ := stof_cases read
      · rw [spelled]
        cases v with
        | finite x => cases infinite
        | infinite negative => rfl
        | nan => rfl
      · rw [float.divNat_isFinite x (by norm_num), fits, spelled, Bool.not_false]

/-! ## Regions that a `float` can hold -/

def FinitePoints (pts : List (Floating × Floating)) : Prop := ∀ p ∈ pts, p.1.isFinite = true ∧ p.2.isFinite = true

/-- Every number of a polygon with enough points is in range. -/
def PolygonFits (parse : String → Option Json) (raw : String) : Prop :=
  ∀ points, figurePoints parse raw = some points → 3 ≤ (points.filterMap pointItems).length →
    ∀ p ∈ points.filterMap pointItems, InFloatRange p.1.numberValue ∧ InFloatRange p.2.numberValue

/-- Both corners are in range, or they are too close to make a rectangle. -/
def BoxFits (parse : String → Option Json) (raw : String) : Prop :=
  ∀ a b, boxCorners parse raw = some (a, b) →
    (InFloatRange a.1.numberValue ∧ InFloatRange a.2.numberValue ∧
      InFloatRange b.1.numberValue ∧ InFloatRange b.2.numberValue) ∨
    tooNarrow (floatValue a.1) (floatValue b.1) = true ∨ tooNarrow (floatValue a.2) (floatValue b.2) = true

theorem parsePolygonJson_length (parse : String → Option Json) (raw : String) :
    parsePolygonJson parse raw = [] ∨ 3 ≤ (parsePolygonJson parse raw).length := by
  unfold parsePolygonJson
  split
  · exact .inl rfl
  next points _ =>
    by_cases few : ((points.filterMap pointItems).map floatPoint).length < 3
    · exact .inl (if_pos few)
    · rw [if_neg few]
      exact .inr (not_lt.mp few)

theorem parseBoxFigure_length (parse : String → Option Json) (raw : String) :
    parseBoxFigure parse raw = [] ∨ 3 ≤ (parseBoxFigure parse raw).length := by
  unfold parseBoxFigure
  split
  · exact .inl rfl
  next corners _ =>
    simp only
    split
    · exact .inl rfl
    · exact .inr (by simp)

theorem parsePolygonJson_finite (parse : String → Option Json) (raw : String) :
    FinitePoints (parsePolygonJson parse raw) ↔ PolygonFits parse raw := by
  unfold parsePolygonJson PolygonFits
  cases drawn : figurePoints parse raw with
  | none => exact iff_of_true (fun p mem => absurd mem List.not_mem_nil) fun points none_drawn => by cases none_drawn
  | some points =>
    simp only [Option.some.injEq, forall_eq', List.length_map]
    by_cases few : (points.filterMap pointItems).length < 3
    · rw [if_pos few]
      exact iff_of_true (fun p mem => absurd mem List.not_mem_nil) fun enough => absurd few (not_lt.mpr enough)
    · rw [if_neg few]
      simp only [FinitePoints, List.forall_mem_map, floatPoint, floatValue_isFinite_iff]
      exact ⟨fun fits _ => fits, fun fits => fits (not_lt.mp few)⟩

theorem parseBoxFigure_eq {parse : String → Option Json} {raw : String} {a b : Json × Json}
    (drawn : boxCorners parse raw = some (a, b)) :
    parseBoxFigure parse raw =
      if tooNarrow (floatValue a.1) (floatValue b.1) || tooNarrow (floatValue a.2) (floatValue b.2) then []
      else
        [((floatValue a.1).min (floatValue b.1), (floatValue a.2).min (floatValue b.2)),
          ((floatValue a.1).max (floatValue b.1), (floatValue a.2).min (floatValue b.2)),
          ((floatValue a.1).max (floatValue b.1), (floatValue a.2).max (floatValue b.2)),
          ((floatValue a.1).min (floatValue b.1), (floatValue a.2).max (floatValue b.2))] := by
  rw [parseBoxFigure, drawn]
  rfl

theorem parseBoxFigure_finite (parse : String → Option Json) (raw : String) :
    FinitePoints (parseBoxFigure parse raw) ↔ BoxFits parse raw := by
  cases drawn : boxCorners parse raw with
  | none =>
    rw [parseBoxFigure, BoxFits, drawn]
    exact iff_of_true (fun p mem => absurd mem List.not_mem_nil) fun a b none_drawn => by cases none_drawn
  | some corners =>
    obtain ⟨a, b⟩ := corners
    rw [parseBoxFigure_eq drawn, BoxFits, drawn]
    simp only [Option.some.injEq, Prod.mk.injEq, and_imp, forall_eq', forall_apply_eq_imp_iff]
    split
    next rejected =>
      exact iff_of_true (fun p mem => absurd mem List.not_mem_nil) (.inr ((Bool.or_eq_true _ _).mp rejected))
    next wide =>
      have wide : ¬ (tooNarrow (floatValue a.1) (floatValue b.1) = true ∨ tooNarrow (floatValue a.2) (floatValue b.2) = true) :=
        fun narrow => wide ((Bool.or_eq_true _ _).mpr narrow)
      rw [or_iff_left wide]
      have horizontal := Floating.min_max_isFinite (floatValue_ne_nan a.1) (floatValue_ne_nan b.1)
      have vertical := Floating.min_max_isFinite (floatValue_ne_nan a.2) (floatValue_ne_nan b.2)
      simp only [floatValue_isFinite_iff] at horizontal vertical
      simp only [FinitePoints, List.forall_mem_cons, List.not_mem_nil, false_implies, implies_true, and_true]
      constructor
      · rintro ⟨⟨x1, y1⟩, ⟨x2, -⟩, ⟨-, y2⟩, -⟩
        obtain ⟨ax, bx⟩ := horizontal.mp ⟨x1, x2⟩
        obtain ⟨ay, by'⟩ := vertical.mp ⟨y1, y2⟩
        exact ⟨ax, ay, bx, by'⟩
      · rintro ⟨ax, ay, bx, by'⟩
        obtain ⟨x1, x2⟩ := horizontal.mpr ⟨ax, bx⟩
        obtain ⟨y1, y2⟩ := vertical.mpr ⟨ay, by'⟩
        exact ⟨⟨x1, y1⟩, ⟨x2, y1⟩, ⟨x2, y2⟩, x1, y2⟩

end VisionNx.Agent
