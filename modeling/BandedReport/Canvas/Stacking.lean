import BandedReport.Canvas.Movement

/-!
# Stacking order

The order in which the controls of a band lie over each other, topmost first, and the moves of a
control within it. After a move the places are the numbers from one to the number of controls.
-/

namespace BandedReport

variable {κ : Type} [Coordinate κ]

/-- The controls of a band, topmost first; of equal ones the earlier comes first. -/
def paintOrder (band : Band κ) : List (Control κ) :=
  band.objects.mergeSort fun a b => b.zIndex ≤ a.zIndex

/-- Give the controls of a band the places of their identifiers in a list, topmost first. -/
def assignDense (band : Band κ) (order : List String) : Band κ :=
  let place (c : Control κ) : Control κ :=
    match order.findIdx? (· == c.id) with
    | some rank => Control.normalize { c with zIndex := (order.length : Int) - rank }
    | none => c
  { band with objects := band.objects.map place }

/-- Take a control out of the stacking order and put it back at another place, which may depend on
how many others there are. -/
def moveInOrder (band : Band κ) (id : String) (place : (others : Nat) → Nat) : Band κ :=
  let order := (paintOrder band).map (·.id)
  match order.findIdx? (· == id) with
  | none => band
  | some source =>
    let others := order.eraseIdx source
    assignDense band (others.insertIdx (min (place others.length) others.length) id)

/-- Put a control at the place of another. Identifiers that are not in the band change nothing. -/
def reorder (band : Band κ) (dragged target : String) : Band κ :=
  match (paintOrder band).findIdx? (·.id == target) with
  | none => band
  | some place => moveInOrder band dragged fun _ => place

/-- Put a control on top. -/
def bringToFront (band : Band κ) (id : String) : Band κ := moveInOrder band id fun _ => 0

/-- Put a control below all others. -/
def sendToBack (band : Band κ) (id : String) : Band κ := moveInOrder band id fun others => others

end BandedReport
