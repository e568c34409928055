import VisionNx.Python

/-! # JSON values

What `nx::kit::Json` and Python's `json` exchange.  An object is its list of fields;
`lookup` and `set` are the operations of a dictionary on it. -/

namespace VisionNx

inductive Json where
  | null
  | bool (b : Bool)
  | num (x : ℚ)
  | str (s : String)
  | arr (items : List Json)
  | obj (fields : List (String × Json))

namespace Json

/-- `fields.get(key)`. -/
def lookup (key : String) (fields : List (String × Json)) : Option Json :=
  (fields.find? fun field => field.1 == key).map (·.2)

/-- `fields[key] = v`. -/
def set (key : String) (v : Json) (fields : List (String × Json)) : List (String × Json) :=
  (key, v) :: fields.filter fun field => field.1 != key

/-- `v[key]` of `nx::kit::Json`, which is null where there is no such field. -/
def get (key : String) : Json → Json
  | obj fields => (lookup key fields).getD null
  | _ => null

/-- `number_value`. -/
def numberValue : Json → ℚ
  | num x => x
  | _ => 0

/-- `int(v)`; `none` is a `TypeError`.  A number in a string, which `int` would read,
    is refused as well: neither side sends one. -/
def toInt? : Json → Option ℤ
  | num x => some (Python.toInt x)
  | bool b => some (if b then 1 else 0)
  | _ => none

/-- `float(v)`, with the same proviso. -/
def toFloat? : Json → Option ℚ
  | num x => some x
  | bool b => some (if b then 1 else 0)
  | _ => none

@[simp] theorem lookup_set_same (key : String) (v : Json) (fields : List (String × Json)) :
    lookup key (set key v fields) = some v := by
  simp [lookup, set]

theorem lookup_set_of_ne {key key' : String} (ne : key' ≠ key) (v : Json)
    (fields : List (String × Json)) : lookup key (set key' v fields) = lookup key fields := by
  rw [lookup, lookup, set, List.find?_cons_of_neg (by simpa using ne), List.find?_filter]
  congr 2
  funext field
  by_cases same : field.1 = key <;> simp [same, ne.symm]

/-! ## Texts -/

mutual

/-- The text of a value whose numbers are multiples of 1/100. -/
def render : Json → List Char
  | null => "null".toList
  | bool b => if b then "true".toList else "false".toList
  | num x =>
    if x.den = 1 then (toString x.num).toList else (toString (x.num * 100 / x.den)).toList ++ "e-2".toList
  | str s => '\x22' :: s.toList ++ ['\x22']
  | arr items => '[' :: renderItems items ++ [']']
  | obj fields => '\x7b' :: renderFields fields ++ ['\x7d']

def renderItems : List Json → List Char
  | [] => []
  | [item] => render item
  | item :: items => render item ++ ", ".toList ++ renderItems items

def renderFields : List (String × Json) → List Char
  | [] => []
  | [(key, v)] => '\x22' :: key.toList ++ "\x22: ".toList ++ render v
  | (key, v) :: fields => '\x22' :: key.toList ++ "\x22: ".toList ++ render v ++ ", ".toList ++ renderFields fields

end

end Json

/-- A text as bytes, for texts of ASCII characters. -/
def dumpText (j : Json) : List UInt8 := j.render.map fun c => UInt8.ofNat c.toNat

end VisionNx
