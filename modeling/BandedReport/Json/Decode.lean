import BandedReport.Json.Value

/-!
# Decoding JSON

Readers of typed values from JSON trees. A record is an object whose known fields occur at most
once and whose other fields are passed over, or an array with the fields in order, of which
trailing ones may be missing.
-/

namespace BandedReport.Json

/-- A reader of values. -/
abbrev Decoder (α : Type) := Json → Option α

/-- A boolean. -/
def asBool? : Decoder Bool
  | boolean b => some b
  | _ => none

/-- A string. -/
def asString? : Decoder String
  | string s => some s
  | _ => none

/-- A double, which may be written as an integer. -/
def asFloat? : Decoder Float
  | integer n => some (Float.ofInt n)
  | float x => some x
  | _ => none

/-- An integer in a range. -/
def asInt? (low high : Int) : Decoder Int
  | integer n => if low ≤ n && n ≤ high then some n else none
  | _ => none

/-- A natural number below `bound`. -/
def asNat? (bound : Nat) : Decoder Nat
  | integer n => if 0 ≤ n && n < bound then some n.toNat else none
  | _ => none

/-- A list, every item of which can be read. -/
def asList? {α : Type} (decode : Decoder α) : Decoder (List α)
  | array items => items.mapM decode
  | _ => none

/-- One of the values that have a name: its name as a string, or an object with the name as its
only field and null in it. -/
def asNamed? {α : Type} (name : α → String) (all : List α) : Decoder α
  | string s | object [(s, null)] => all.find? (name · == s)
  | _ => none

/-- One of the values that have a name, where the object may also hold an empty object. -/
def asLooselyNamed? {α : Type} (name : α → String) (all : List α) : Decoder α
  | object [(s, object [])] => all.find? (name · == s)
  | j => asNamed? name all j

/-! ## Fields -/

/-- The fields of a record in the order of their names; absent ones are `none`. -/
def fields? (names : List String) : Json → Option (List (Option Json))
  | object fields =>
    let occurs (name : String) : Nat := fields.countP (·.1 == name)
    if names.all (occurs · ≤ 1) then some (names.map fun name => fields.lookup name) else none
  | array items =>
    if items.length ≤ names.length then
      some (items.map some ++ List.replicate (names.length - items.length) none)
    else none
  | _ => none

/-- A field that must be there. -/
def required {α : Type} (decode : Decoder α) (field : Option Json) : Option α :=
  field.bind decode

/-- A field that has a default when it is absent. -/
def defaulted {α : Type} (default : α) (decode : Decoder α) (field : Option Json) : Option α :=
  match field with
  | none => some default
  | some j => decode j

/-- A field that may be absent or null. -/
def optional {α : Type} (decode : Decoder α) (field : Option Json) : Option (Option α) :=
  match field with
  | none | some null => some none
  | some j => (decode j).map some

end BandedReport.Json
