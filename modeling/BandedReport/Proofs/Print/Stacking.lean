import BandedReport.Proofs.Canvas.PaintOrder
import BandedReport.Proofs.Print.Conservation

/-!
# Stacking on screen and on paper

The canvas lists the controls of a band topmost first, a print lists them lowest first. Both lists
are sorted by the place in the stacking order, and both leave controls of the same place in the
order of the band. So the lists are mirror images of each other between different places, but not
at a place: of two controls there, the earlier one lies on top on the screen and below on paper.
-/

namespace BandedReport

open Formula (Context)

/-! ## §1 The two orders -/

variable {κ : Type}

namespace Band

variable (band : Band κ)

/-- The controls that are printed, lowest first. -/
def onPaper : List (Control κ) := band.printOrder.filter (·.printVisible)

/-- The controls that are printed, in the order of the canvas: topmost first. -/
def onScreen : List (Control κ) := (paintOrder band).filter (·.printVisible)

theorem pairwise_onPaper : band.onPaper.Pairwise fun c d => c.zIndex ≤ d.zIndex :=
  (pairwise_mergeSort_key Control.zIndex band.objects).filter _

theorem pairwise_reverse_onScreen :
    band.onScreen.reverse.Pairwise fun c d => c.zIndex ≤ d.zIndex :=
  List.pairwise_reverse.mpr ((pairwise_paintOrder band).filter _)

/-- At a place both orders list the controls as the band does. -/
theorem filter_onPaper (z : Int) :
    band.onPaper.filter (·.zIndex == z) =
      (band.objects.filter (·.zIndex == z)).filter (·.printVisible) := by
  rw [onPaper, List.filter_comm, printOrder, filter_mergeSort_key]

theorem filter_onScreen (z : Int) :
    band.onScreen.filter (·.zIndex == z) =
      (band.objects.filter (·.zIndex == z)).filter (·.printVisible) := by
  have hplace : (fun c : Control κ => c.zIndex == z) = fun c => -c.zIndex == -z := by
    funext c
    rw [Bool.eq_iff_iff, beq_iff_eq, beq_iff_eq, Int.neg_inj]
  have hstable := filter_mergeSort_key (fun c : Control κ => -c.zIndex) (-z) band.objects
  rw [onScreen, List.filter_comm, paintOrder_eq, hplace, hstable]

/-- The places on paper are those on the screen, from the other end. -/
theorem map_zIndex_onPaper :
    band.onPaper.map (·.zIndex) = (band.onScreen.map (·.zIndex)).reverse := by
  have hperm : band.onPaper.Perm band.onScreen.reverse :=
    (((List.mergeSort_perm _ _).trans (List.mergeSort_perm _ _).symm).filter _).trans
      (List.reverse_perm _).symm
  rw [← List.map_reverse]
  have hpaper : (band.onPaper.map (·.zIndex)).Pairwise (· ≤ ·) :=
    List.pairwise_map.mpr band.pairwise_onPaper
  have hscreen : (band.onScreen.reverse.map (·.zIndex)).Pairwise (· ≤ ·) :=
    List.pairwise_map.mpr band.pairwise_reverse_onScreen
  exact (hperm.map _).eq_of_pairwise (fun _ _ _ _ => Int.le_antisymm) hpaper hscreen

/-- The two orders are mirror images just when this makes no difference at any place. -/
theorem onPaper_eq_reverse_iff :
    band.onPaper = band.onScreen.reverse ↔
      ∀ z, (band.onScreen.filter (·.zIndex == z)).reverse =
        band.onScreen.filter (·.zIndex == z) := by
  constructor
  · intro h z
    rw [← List.filter_reverse, ← h, filter_onPaper, filter_onScreen]
  · intro h
    refine eq_of_filter_key_eq Control.zIndex band.pairwise_onPaper
      band.pairwise_reverse_onScreen fun z => ?_
    rw [List.filter_reverse, h z, filter_onPaper, filter_onScreen]

end Band

variable [Coordinate κ]

/-- **Stacking on screen and on paper.** A band is printed with its printable controls, lowest
first, each as it is printed in the context. From place to place this is the order of the canvas
read backwards; but the controls of one place follow each other on paper as they do on the canvas,
where the first of them is the topmost. So the print is the canvas read backwards just when, at
every place, the canvas reads the same in both directions. -/
theorem printBand_stacking (p : Printer κ) (ctx : Context) (rowIndex : Option Nat) (height : κ)
    (band : Band κ) :
    (p.printBandOfHeight ctx rowIndex height band : Counted (PrintedBand κ)).value.objects =
      band.onPaper.map (fun c => (p.printObject band ctx c : Counted (PrintedObject κ)).value) ∧
    band.onPaper.map (·.zIndex) = (band.onScreen.map (·.zIndex)).reverse ∧
    (∀ z, band.onPaper.filter (·.zIndex == z) = band.onScreen.filter (·.zIndex == z)) ∧
    (band.onPaper = band.onScreen.reverse ↔
      ∀ z, (band.onScreen.filter (·.zIndex == z)).reverse =
        band.onScreen.filter (·.zIndex == z)) := by
  refine ⟨?_, band.map_zIndex_onPaper, fun z => ?_, band.onPaper_eq_reverse_iff⟩
  · exact (p.isInstance_printBandOfHeight ctx rowIndex height band).objects
  · rw [band.filter_onPaper, band.filter_onScreen]

private def sixthOfMay : DateTime := ⟨⟨2019, 5, 6, by decide, by decide⟩, .midnight⟩

/-- Two texts at the lowest place, one over the other. -/
private def twoTexts : Band Float :=
  { Band.ofHeight "h" "Header" .header 0 40 with
    objects := [.ofContent "a" ⟨0, 0, 40, 20⟩ (.text "first"),
      .ofContent "b" ⟨0, 0, 40, 20⟩ (.text "second")] }

/-- Of two texts at one place, the canvas has the first on top, and so it would be printed last; but
it is printed first, below the second. -/
theorem printBand_stacking_tied :
    let p : Printer Float := ⟨.builtin, .empty, sixthOfMay⟩
    let printed : Counted (PrintedBand Float) :=
      p.printBandOfHeight (.ofMaster .empty sixthOfMay) none 40 twoTexts
    twoTexts.onScreen.reverse.map (·.id) = ["b", "a"] ∧
      printed.value.objects.map (·.id) = ["a", "b"] := by
  -- Either sort leaves two controls of one place as they are.
  have hscreen : paintOrder twoTexts = twoTexts.objects := List.mergeSort_of_pairwise (by decide)
  have hpaper : twoTexts.printOrder = twoTexts.objects := List.mergeSort_of_pairwise (by decide)
  intro p printed
  have hprinted := (p.isInstance_printBandOfHeight (.ofMaster .empty sixthOfMay) none 40
    twoTexts).objects
  -- So the screen has the first of the two on top, and the paper the second.
  rw [Band.onScreen, hscreen]
  refine ⟨rfl, ?_⟩
  rw [hprinted, hpaper]
  rfl

end BandedReport
