import BandedReport.Json.Number

/-!
# JSON values

JSON as a tree that keeps the order of fields and repeated ones. A value that has the right form
but denotes nothing, such as a number beyond the doubles or a string with half of a surrogate pair,
is kept as `unreadable`: it does no harm where it is passed over.
-/

namespace BandedReport

/-- A JSON value. -/
inductive Json where
  | null
  | boolean (value : Bool)
  | integer (value : Int)
  | float (value : Float)
  | string (value : String)
  | array (items : List Json)
  | object (fields : List (String × Json))
  | unreadable
deriving Inhabited

namespace Json

/-- The number of containers that are open at the deepest place. -/
def depth : Json → Nat
  | array items => depthOfItems items + 1
  | object fields => depthOfFields fields + 1
  | _ => 0
where
  /-- The greatest depth in an array. -/
  depthOfItems : List Json → Nat
    | [] => 0
    | j :: js => max j.depth (depthOfItems js)
  /-- The greatest depth in an object. -/
  depthOfFields : List (String × Json) → Nat
    | [] => 0
    | (_, j) :: js => max j.depth (depthOfFields js)

/-- A field that is left out when it has no value. -/
def optionalField (name : String) (value : Option Json) : List (String × Json) :=
  match value with
  | some j => [(name, j)]
  | none => []

/-- Can every part of the value be read? -/
def isReadable : Json → Bool
  | unreadable => false
  | array items => readableItems items
  | object fields => readableFields fields
  | _ => true
where
  /-- Can every item be read? -/
  readableItems : List Json → Bool
    | [] => true
    | j :: js => j.isReadable && readableItems js
  /-- Can every field be read? -/
  readableFields : List (String × Json) → Bool
    | [] => true
    | (_, j) :: js => j.isReadable && readableFields js

end Json

end BandedReport
