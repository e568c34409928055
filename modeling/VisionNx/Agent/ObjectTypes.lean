import VisionNx.Agent.ShownObjects

/-! # Object types

`coco80.h` names a class for the settings page, for the object types that the engine
declares and for the objects that are pushed.  The worker has a table of its own. -/

namespace VisionNx.Agent

open Python Tracker TransitionRuns Worker

/-! ## The table -/

structure CocoClass where
  name : String
  typeId : String
  baseType : String
  deriving DecidableEq

def kCoco80 : List CocoClass := [
  ⟨"person", "p3.vision.person", "nx.base.Person"⟩,
  ⟨"bicycle", "p3.vision.bicycle", "nx.base.Bike"⟩,
  ⟨"car", "p3.vision.car", "nx.base.Car"⟩,
  ⟨"motorcycle", "p3.vision.motorcycle", "nx.base.Bike"⟩,
  ⟨"airplane", "p3.vision.airplane", "nx.base.AirTransport"⟩,
  ⟨"bus", "p3.vision.bus", "nx.base.Bus"⟩,
  ⟨"train", "p3.vision.train", "nx.base.Train"⟩,
  ⟨"truck", "p3.vision.truck", "nx.base.Truck"⟩,
  ⟨"boat", "p3.vision.boat", "nx.base.WaterTransport"⟩,
  ⟨"traffic light", "p3.vision.trafficLight", "nx.base.Unknown"⟩,
  ⟨"fire hydrant", "p3.vision.fireHydrant", "nx.base.Unknown"⟩,
  ⟨"stop sign", "p3.vision.stopSign", "nx.base.Unknown"⟩,
  ⟨"parking meter", "p3.vision.parkingMeter", "nx.base.Unknown"⟩,
  ⟨"bench", "p3.vision.bench", "nx.base.Unknown"⟩,
  ⟨"bird", "p3.vision.bird", "nx.base.Bird"⟩,
  ⟨"cat", "p3.vision.cat", "nx.base.Cat"⟩,
  ⟨"dog", "p3.vision.dog", "nx.base.Dog"⟩,
  ⟨"horse", "p3.vision.horse", "nx.base.Animal"⟩,
  ⟨"sheep", "p3.vision.sheep", "nx.base.Animal"⟩,
  ⟨"cow", "p3.vision.cow", "nx.base.Animal"⟩,
  ⟨"elephant", "p3.vision.elephant", "nx.base.Animal"⟩,
  ⟨"bear", "p3.vision.bear", "nx.base.Animal"⟩,
  ⟨"zebra", "p3.vision.zebra", "nx.base.Animal"⟩,
  ⟨"giraffe", "p3.vision.giraffe", "nx.base.Animal"⟩,
  ⟨"backpack", "p3.vision.backpack", "nx.base.Unknown"⟩,
  ⟨"umbrella", "p3.vision.umbrella", "nx.base.Unknown"⟩,
  ⟨"handbag", "p3.vision.handbag", "nx.base.Unknown"⟩,
  ⟨"tie", "p3.vision.tie", "nx.base.Unknown"⟩,
  ⟨"suitcase", "p3.vision.suitcase", "nx.base.Unknown"⟩,
  ⟨"frisbee", "p3.vision.frisbee", "nx.base.Unknown"⟩,
  ⟨"skis", "p3.vision.skis", "nx.base.Unknown"⟩,
  ⟨"snowboard", "p3.vision.snowboard", "nx.base.Unknown"⟩,
  ⟨"sports ball", "p3.vision.sportsBall", "nx.base.Unknown"⟩,
  ⟨"kite", "p3.vision.kite", "nx.base.Unknown"⟩,
  ⟨"baseball bat", "p3.vision.baseballBat", "nx.base.Unknown"⟩,
  ⟨"baseball glove", "p3.vision.baseballGlove", "nx.base.Unknown"⟩,
  ⟨"skateboard", "p3.vision.skateboard", "nx.base.Unknown"⟩,
  ⟨"surfboard", "p3.vision.surfboard", "nx.base.Unknown"⟩,
  ⟨"tennis racket", "p3.vision.tennisRacket", "nx.base.Unknown"⟩,
  ⟨"bottle", "p3.vision.bottle", "nx.base.Unknown"⟩,
  ⟨"wine glass", "p3.vision.wineGlass", "nx.base.Unknown"⟩,
  ⟨"cup", "p3.vision.cup", "nx.base.Unknown"⟩,
  ⟨"fork", "p3.vision.fork", "nx.base.Unknown"⟩,
  ⟨"knife", "p3.vision.knife", "nx.base.Unknown"⟩,
  ⟨"spoon", "p3.vision.spoon", "nx.base.Unknown"⟩,
  ⟨"bowl", "p3.vision.bowl", "nx.base.Unknown"⟩,
  ⟨"banana", "p3.vision.banana", "nx.base.Unknown"⟩,
  ⟨"apple", "p3.vision.apple", "nx.base.Unknown"⟩,
  ⟨"sandwich", "p3.vision.sandwich", "nx.base.Unknown"⟩,
  ⟨"orange", "p3.vision.orange", "nx.base.Unknown"⟩,
  ⟨"broccoli", "p3.vision.broccoli", "nx.base.Unknown"⟩,
  ⟨"carrot", "p3.vision.carrot", "nx.base.Unknown"⟩,
  ⟨"hot dog", "p3.vision.hotDog", "nx.base.Unknown"⟩,
  ⟨"pizza", "p3.vision.pizza", "nx.base.Unknown"⟩,
  ⟨"donut", "p3.vision.donut", "nx.base.Unknown"⟩,
  ⟨"cake", "p3.vision.cake", "nx.base.Unknown"⟩,
  ⟨"chair", "p3.vision.chair", "nx.base.Unknown"⟩,
  ⟨"couch", "p3.vision.couch", "nx.base.Unknown"⟩,
  ⟨"potted plant", "p3.vision.pottedPlant", "nx.base.Unknown"⟩,
  ⟨"bed", "p3.vision.bed", "nx.base.Unknown"⟩,
  ⟨"dining table", "p3.vision.diningTable", "nx.base.Unknown"⟩,
  ⟨"toilet", "p3.vision.toilet", "nx.base.Unknown"⟩,
  ⟨"tv", "p3.vision.tv", "nx.base.Unknown"⟩,
  ⟨"laptop", "p3.vision.laptop", "nx.base.Unknown"⟩,
  ⟨"mouse", "p3.vision.mouse", "nx.base.Unknown"⟩,
  ⟨"remote", "p3.vision.remote", "nx.base.Unknown"⟩,
  ⟨"keyboard", "p3.vision.keyboard", "nx.base.Unknown"⟩,
  ⟨"cell phone", "p3.vision.cellPhone", "nx.base.Unknown"⟩,
  ⟨"microwave", "p3.vision.microwave", "nx.base.Unknown"⟩,
  ⟨"oven", "p3.vision.oven", "nx.base.Unknown"⟩,
  ⟨"toaster", "p3.vision.toaster", "nx.base.Unknown"⟩,
  ⟨"sink", "p3.vision.sink", "nx.base.Unknown"⟩,
  ⟨"refrigerator", "p3.vision.refrigerator", "nx.base.Unknown"⟩,
  ⟨"book", "p3.vision.book", "nx.base.Unknown"⟩,
  ⟨"clock", "p3.vision.clock", "nx.base.Unknown"⟩,
  ⟨"vase", "p3.vision.vase", "nx.base.Unknown"⟩,
  ⟨"scissors", "p3.vision.scissors", "nx.base.Unknown"⟩,
  ⟨"teddy bear", "p3.vision.teddyBear", "nx.base.Unknown"⟩,
  ⟨"hair drier", "p3.vision.hairDrier", "nx.base.Unknown"⟩,
  ⟨"toothbrush", "p3.vision.toothbrush", "nx.base.Unknown"⟩]

/-- The range of the check boxes of the settings page, as JSON. -/
def allClassesJsonArray : String := "[" ++ ",".intercalate (kCoco80.map fun c => "\x22" ++ c.name ++ "\x22") ++ "]"

/-- The value of `classes` that a button of the settings page fills in. -/
def doGetSettingsOnActiveSettingChange (name : String) : Option String :=
  if name = "classesSelectAll" then some allClassesJsonArray
  else if name = "classesDeselectAll" then some "[]"
  else none

/-! ## Labels -/

/-- Both tables have the same names in the same order. -/
theorem kCoco80_names : kCoco80.map (·.name) = coco80Names := rfl

variable {U : Type}

end VisionNx.Agent
