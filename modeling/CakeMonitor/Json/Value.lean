import CakeMonitor.Number.Binary64
/-!
# JSON values

* `Json`: a value; integers are exact and reals are doubles.
* `Json.field?`: the value of a key in an object; of several equal keys the last counts.
-/

namespace CakeMonitor

/-- A JSON value. -/
inductive Json where
  | null
  | bool (b : Bool)
  | int (i : Int)
  | real (x : Binary64)
  | text (t : Text)
  | array (items : List Json)
  | object (fields : List (Text × Json))
  deriving Inhabited

namespace Json

/-- The value of the last of these fields with that key. -/
def lookup (key : Text) : List (Text × Json) → Option Json
  | [] => none
  | (k, v) :: fs => (lookup key fs).orElse fun _ => if k = key then some v else none

/-- The value of a key of an object. -/
def field? (key : Text) : Json → Option Json
  | .object fs => lookup key fs
  | _ => none

/-- The text of a text value. -/
def text? : Json → Option Text
  | .text t => some t
  | _ => none

/-- The truth value of a Boolean. -/
def bool? : Json → Option Bool
  | .bool b => some b
  | _ => none

/-- The items of an array. -/
def array? : Json → Option (List Json)
  | .array xs => some xs
  | _ => none

/-- The integer of an integral value. -/
def int? : Json → Option Int
  | .int i => some i
  | _ => none

instance : Coe Text Json := ⟨.text⟩

mutual

/-- The value with null for every real that is not finite. -/
def withoutInfinite : Json → Json
  | .real (.finite s m) => .real (.finite s m)
  | .real _ => .null
  | .array xs => .array (itemsWithoutInfinite xs)
  | .object fs => .object (fieldsWithoutInfinite fs)
  | v => v

/-- The items of an array, each with null for reals that are not finite. -/
def itemsWithoutInfinite : List Json → List Json
  | [] => []
  | v :: vs => withoutInfinite v :: itemsWithoutInfinite vs

/-- The fields of an object, each with null for reals that are not finite. -/
def fieldsWithoutInfinite : List (Text × Json) → List (Text × Json)
  | [] => []
  | (k, v) :: fs => (k, withoutInfinite v) :: fieldsWithoutInfinite fs

end

/-- An object from keys and values. -/
def obj (fields : List (String × Json)) : Json :=
  .object (fields.map fun (k, v) => (Text.ofString k, v))

end Json

end CakeMonitor
