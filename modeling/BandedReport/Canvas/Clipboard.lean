import BandedReport.Canvas.Movement
import BandedReport.Decimal.Text

/-!
# Pasting, moving between bands, removing

Copies get fresh identifiers from a generator and are stacked above the controls of the band they
are pasted into.
-/

namespace BandedReport

variable {κ : Type} [Coordinate κ]

/-! ## Identifiers -/

/-- A source of identifiers: the next one, and the state after it. -/
structure IdGenerator (σ : Type) where
  next : σ → String × σ

/-- Identifiers made of a stem and a running number. -/
structure SequentialIds where
  stem : String
  number : Nat
deriving DecidableEq

namespace SequentialIds

/-- Begin with number one. -/
def ofStem (stem : String) : SequentialIds := ⟨stem, 1⟩

/-- The identifier that comes next. -/
def current (s : SequentialIds) : String := s.stem ++ String.ofList (digitsOf s.number)

/-- The generator of the identifiers. -/
def generator : IdGenerator SequentialIds :=
  ⟨fun s => (s.current, { s with number := s.number + 1 })⟩

/-- The running number of an identifier that begins with the stem: digits, perhaps behind a plus
sign, that sixty-four bits hold. -/
def numberOf? (stem id : String) : Option Nat :=
  if stem.toList.isPrefixOf id.toList then
    let digits := match id.toList.drop stem.toList.length with
      | '+' :: rest => rest
      | rest => rest
    let n := digitsValue digits
    if digits.isEmpty || !digits.all Char.isDigit || Nat.pow 2 64 ≤ n then none else some n
  else none

/-- Begin after the highest number that is used. -/
def afterExisting (stem : String) (bands : List (Band κ)) : SequentialIds :=
  let used := bands.flatMap fun b => b.objects.filterMap fun c => numberOf? stem c.id
  ⟨stem, used.foldl max 0 + 1⟩

end SequentialIds

/-! ## Pasting -/

/-- The highest place in the stacking order of a band, one below the lowest when it is empty. -/
def Band.maxZIndex (b : Band κ) : Int :=
  match b.objects with
  | [] => minZIndex - 1
  | c :: rest => rest.foldl (fun z d => max z d.zIndex) c.zIndex

/-- The lowest place in the stacking order among controls. -/
def lowestZIndex : List (Control κ) → Int
  | [] => minZIndex
  | c :: rest => rest.foldl (fun z d => min z d.zIndex) c.zIndex

/-- A copy of a control at an offset. -/
def Control.copy (c : Control κ) (id : String) (zIndex : Int) (dx dy : κ) : Control κ :=
  Control.normalize { c.translate dx dy with id, zIndex }

/-- The copies of controls, `base` added to the places they have above `lowest`. -/
def copies {σ : Type} (gen : IdGenerator σ) (base lowest : Int) (dx dy : κ) :
    σ → List (Control κ) → List (Control κ) × σ
  | s, [] => ([], s)
  | s, c :: rest =>
    let (id, s) := gen.next s
    let (more, s) := copies gen base lowest dx dy s rest
    (c.copy id (base + 1 + (c.zIndex - lowest)) dx dy :: more, s)

/-- Paste copies of controls into a band, at an offset. The copies come to lie above the controls
of the band and keep their order among each other. -/
def pasteObjects {σ : Type} (gen : IdGenerator σ) (s : σ) (band : Band κ)
    (objects : List (Control κ)) (dx dy : κ) : Band κ × σ :=
  let (added, s) := copies gen band.maxZIndex (lowestZIndex objects) dx dy s objects
  ({ band with objects := band.objects ++ added }, s)

/-! ## Moving and removing -/

/-- Move a control into another band, on top of the controls there. -/
def moveToBand (bands : List (Band κ)) (target : ObjectRef) (bandId : String) :
    List (Band κ) :=
  match locate bands target, bands.findIdx? (·.id == bandId) with
  | some (source, index), some destination =>
    match objectAt? bands source index with
    | none => bands
    | some c =>
      if source == destination then bands
      else
        let taken := bands.modify source fun b => { b with objects := b.objects.eraseIdx index }
        taken.modify destination fun b =>
          { b with
            objects := b.objects ++ [Control.normalize { c with zIndex := b.maxZIndex + 1 }] }
  | _, _ => bands

/-- Remove the referenced controls. -/
def removeObjects (bands : List (Band κ)) (selection : List ObjectRef) : List (Band κ) :=
  bands.map fun band =>
    { band with objects := band.objects.filter fun c => !selection.contains ⟨band.id, c.id⟩ }

end BandedReport
