import BandedReport.Canvas.Band

/-!
# Selections

References to controls, their resolution against a list of bands, and the replacement of resolved
controls. References that are stale are passed over, repeated ones count once.
-/

namespace BandedReport

/-- A reference to a control of a band. -/
structure ObjectRef where
  bandId : String
  objectId : String
deriving DecidableEq

/-- A control and the place at which it was found. -/
structure Selected (κ : Type) where
  bandIndex : Nat
  objectIndex : Nat
  object : Control κ

/-- A control that takes the place of another. -/
structure Update (κ : Type) where
  bandIndex : Nat
  objectIndex : Nat
  object : Control κ

variable {κ : Type} [Coordinate κ]

/-- The control at a place. -/
def objectAt? (bands : List (Band κ)) (bandIndex objectIndex : Nat) : Option (Control κ) :=
  (bands[bandIndex]?).bind fun band => band.objects[objectIndex]?

/-- The place of a referenced control: the first band of that identifier, and in it the first
control of that identifier. -/
def locate (bands : List (Band κ)) (target : ObjectRef) : Option (Nat × Nat) := do
  let bandIndex ← bands.findIdx? (·.id == target.bandId)
  let band ← bands[bandIndex]?
  let objectIndex ← band.objectIndex? target.objectId
  return (bandIndex, objectIndex)

/-- Resolve references in the order of the selection, added to those resolved before. -/
def resolveOnto (bands : List (Band κ)) (found : List (Selected κ)) :
    List ObjectRef → List (Selected κ)
  | [] => found
  | target :: rest =>
    match locate bands target with
    | none => resolveOnto bands found rest
    | some (b, o) =>
      if found.any fun s => s.bandIndex == b && s.objectIndex == o then
        resolveOnto bands found rest
      else
        match objectAt? bands b o with
        | some object => resolveOnto bands (found ++ [⟨b, o, object⟩]) rest
        | none => resolveOnto bands found rest

/-- The controls that a selection resolves to, in the order of the selection. -/
def resolve (bands : List (Band κ)) (selection : List ObjectRef) : List (Selected κ) :=
  resolveOnto bands [] selection

/-- Put a control in the place of another. -/
def replaceObject (bands : List (Band κ)) (u : Update κ) : List (Band κ) :=
  bands.modify u.bandIndex fun band =>
    { band with objects := band.objects.set u.objectIndex u.object }

/-- Put controls in the places of others, one after the other. -/
def replaceObjects (bands : List (Band κ)) (updates : List (Update κ)) : List (Band κ) :=
  updates.foldl replaceObject bands

end BandedReport
