import FlowHost.Json.Basic

/-!
# Records in JSON

How a record with named fields is read from a document: from an object, whose
further members are of no account and whose fields appear at most once each, or
from an array with the fields in order. A choice among names is read from the name
alone or from an object that gives the name nothing.

* `Json.slots?`: the value of each field, where there is one.
* `Json.choice?`: a choice among names.
-/

namespace FlowHost.Json

/-- The members of an object with known names, each at most once, or nothing. -/
def collect (names : List String) :
    List (Option String × Json) → List (String × Json) → Option (List (String × Json))
  | [], found => some found
  | (none, _) :: _, _ => none
  | (some name, value) :: rest, found =>
    if names.contains name then
      if (found.map (·.1)).contains name then none
      else collect names rest (found ++ [(name, value)])
    else collect names rest found

/-- **The value of each field of a record**, in the order of the names. -/
def slots? (names : List String) : Json → Option (List (Option Json))
  | object members =>
    (collect names members []).map fun found => names.map fun name => found.lookup name
  | array items =>
    if names.length < items.length then none
    else some (items.map some ++ List.replicate (names.length - items.length) none)
  | _ => none

/-- A text. -/
def text? : Json → Option String
  | text t => t
  | _ => none

/-- A truth value. -/
def bool? : Json → Option Bool
  | bool b => some b
  | _ => none

/-- An integer within bounds. -/
def int? (low high : Int) : Json → Option Int
  | number n =>
    match n.toNumber? with
    | some (.natural v) => if low ≤ v ∧ (v : Int) ≤ high then some v else none
    | some (.negative i) => if low ≤ i ∧ i ≤ high then some i else none
    | _ => none
  | _ => none

/-- A double. -/
def double? : Json → Option Double
  | number n =>
    match n.toNumber? with
    | some (.natural v) => some (Double.ofInt v)
    | some (.negative i) => some (Double.ofInt i)
    | some (.real x) => some x
    | none => none
  | _ => none

/-- A single. -/
def single? : Json → Option Single
  | number n =>
    match n.toNumber? with
    | some (.natural v) => some (Single.ofInt v)
    | some (.negative i) => some (Single.ofInt i)
    | some (.real x) => some x.toSingle
    | none => none
  | _ => none

/-- The texts of an array. -/
def texts? : Json → Option (List String)
  | array items => items.mapM text?
  | _ => none

/-- A field that must be there. -/
def required {α : Type} (read : Json → Option α) (slot : Option Json) : Option α := slot.bind read

/-- A field that may be absent or null. -/
def optional {α : Type} (read : Json → Option α) : Option Json → Option (Option α)
  | none => some none
  | some null => some none
  | some j => (read j).map some

/-- A field with a value for when it is absent. -/
def withDefault {α : Type} (default : α) (read : Json → Option α) : Option Json → Option α
  | none => some default
  | some j => read j

/-- **A choice among names**: the name, or an object with the name and null. -/
def choice? {α : Type} (name : α → String) (all : List α) : Json → Option α
  | text (some t) => all.find? fun a => name a == t
  | object [(some t, null)] => all.find? fun a => name a == t
  | _ => none

/-- A member that is left out when there is no value. -/
def present {α : Type} (name : String) (write : α → Json) : Option α → List (String × Json)
  | none => []
  | some a => [(name, write a)]

/-- A value, or null. -/
def orNull {α : Type} (write : α → Json) : Option α → Json
  | none => null
  | some a => write a

end FlowHost.Json
