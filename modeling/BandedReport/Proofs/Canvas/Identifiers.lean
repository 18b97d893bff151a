import Mathlib
import BandedReport.Canvas.Clipboard
import BandedReport.Proofs.Canvas.Revision
import BandedReport.Proofs.Decimal.Numerals

/-!
# Sequential identifiers

The identifiers of a sequential source are a stem and a running number. The number can be read off
an identifier again, so identifiers of different numbers differ, and a source that begins after the
numbers of all identifiers in use gives out none of these. As long as sixty-four bits hold the
numbers, this stays so however often something is pasted: `map_id_copies` says that every copy gets
the identifier that its generator, whatever it is, gives out for it.
-/

namespace BandedReport

/-! ## §1 Reading numbers -/

namespace SequentialIds

/-- The number of an identifier that the source gives out is read back from it. -/
theorem numberOf?_current {s : SequentialIds} (h : s.number < 2 ^ 64) :
    numberOf? s.stem s.current = some s.number := by
  have hdigits := isDigits_digitsOf s.number
  -- An identifier is the stem and the digits of the number.
  have hchars : s.current.toList = s.stem.toList ++ digitsOf s.number := by
    simp [current]
  unfold numberOf?
  rw [hchars, if_pos (List.isPrefixOf_iff_prefix.mpr (List.prefix_append _ _)), List.drop_left]
  have hall : (digitsOf s.number).all Char.isDigit = true := List.all_eq_true.mpr hdigits.2
  have hsize : s.number < Nat.pow 2 64 := h
  dsimp only
  split
  · -- What stands behind the stem begins with a digit, never with a plus sign.
    rename_i rest hcons
    have hplus := hdigits.2 '+' (hcons ▸ List.mem_cons_self)
    contradiction
  · -- The digits fill the rest, and the number is in range.
    simp [hall, hdigits.1, digitsValue_digitsOf, hsize]

end SequentialIds

/-! ## §2 Identifiers in use -/

/-- The identifiers of all controls. -/
def objectIds {κ : Type} (bands : List (Band κ)) : List String := (allObjects bands).map (·.id)

private theorem le_foldl_max {l : List Nat} {n init : Nat} (h : n ≤ init ∨ n ∈ l) :
    n ≤ l.foldl max init := by
  induction l generalizing init with
  | nil => simpa using h
  | cons m ms ih =>
    apply ih
    rcases h with h | h
    · exact .inl (le_trans h (Nat.le_max_left init m))
    · rcases List.mem_cons.mp h with rfl | h
      · exact .inl (Nat.le_max_right init n)
      · exact .inr h

namespace SequentialIds

/-- The numbers of some identifiers lie below the next number of a source. -/
def Bounds (s : SequentialIds) (ids : List String) : Prop :=
  ∀ id ∈ ids, ∀ n, numberOf? s.stem id = some n → n < s.number

/-- A source that begins after the identifiers in use bounds them. -/
theorem bounds_afterExisting {κ : Type} [Coordinate κ] (stem : String) (bands : List (Band κ)) :
    (afterExisting stem bands).Bounds (objectIds bands) := by
  intro id hid n hn
  obtain ⟨c, hc, rfl⟩ := List.mem_map.mp hid
  obtain ⟨b, hb, hc⟩ := mem_allObjects.mp hc
  have hused : n ∈ bands.flatMap fun b => b.objects.filterMap fun c => numberOf? stem c.id :=
    List.mem_flatMap.mpr ⟨b, hb, List.mem_filterMap.mpr ⟨c, hc, hn⟩⟩
  exact Nat.lt_succ_of_le (le_foldl_max (.inr hused))

/-! ## §3 Identifiers that are given out -/

/-- The source after it has given out identifiers. -/
def advance (s : SequentialIds) (count : Nat) : SequentialIds :=
  { s with number := s.number + count }

/-- The next identifiers of a source. -/
def issued (s : SequentialIds) (count : Nat) : List String :=
  (List.range count).map fun i => (s.advance i).current

@[simp] theorem length_issued (s : SequentialIds) (count : Nat) :
    (s.issued count).length = count := by
  simp [issued]

theorem advance_advance_one (s : SequentialIds) (count : Nat) :
    (s.advance 1).advance count = s.advance (count + 1) := by
  simp only [advance, Nat.add_assoc, Nat.add_comm 1]

/-- Identifiers that are given out have numbers from the range that the source passes. -/
theorem numberOf?_of_mem_issued {s : SequentialIds} {count : Nat}
    (h : (s.advance count).number ≤ 2 ^ 64) {id : String} (hid : id ∈ s.issued count) :
    ∃ n, numberOf? s.stem id = some n ∧ s.number ≤ n ∧ n < (s.advance count).number := by
  obtain ⟨i, hi, rfl⟩ := List.mem_map.mp hid
  have hi := List.mem_range.mp hi
  have hnumber : s.number + i < s.number + count := Nat.add_lt_add_left hi _
  exact ⟨s.number + i, numberOf?_current (s := s.advance i) (lt_of_lt_of_le hnumber h),
    Nat.le_add_right _ _, hnumber⟩

theorem nodup_issued {s : SequentialIds} {count : Nat}
    (h : (s.advance count).number ≤ 2 ^ 64) : (s.issued count).Nodup := by
  refine List.Nodup.map_on (fun i hi j hj hij => ?_) List.nodup_range
  have number (k : Nat) (hk : k ∈ List.range count) :
      numberOf? s.stem (s.advance k).current = some (s.number + k) :=
    numberOf?_current (s := s.advance k)
      (lt_of_lt_of_le (Nat.add_lt_add_left (List.mem_range.mp hk) _) h)
  have hnumbers : some (s.number + i) = some (s.number + j) := by
    rw [← number i hi, hij, number j hj]
  exact Nat.add_left_cancel (Option.some.inj hnumbers)

/-- Identifiers that are given out are not among those whose numbers the source bounds. -/
theorem Bounds.disjoint_issued {s : SequentialIds} {ids : List String} (hids : s.Bounds ids)
    {count : Nat} (h : (s.advance count).number ≤ 2 ^ 64) : List.Disjoint (s.issued count) ids := by
  intro id hissued hid
  obtain ⟨n, hn, hge, -⟩ := numberOf?_of_mem_issued h hissued
  exact absurd (hids id hid n hn) (Nat.not_lt.mpr hge)

/-- Having given out identifiers, the source bounds these as well. -/
theorem Bounds.advance {s : SequentialIds} {ids : List String} (hids : s.Bounds ids)
    {count : Nat} (h : (s.advance count).number ≤ 2 ^ 64) :
    (s.advance count).Bounds (s.issued count ++ ids) := by
  intro id hid n hn
  rcases List.mem_append.mp hid with hissued | hid
  · obtain ⟨m, hm, -, hlt⟩ := numberOf?_of_mem_issued h hissued
    obtain rfl : m = n := Option.some.inj (hm.symm.trans hn)
    exact hlt
  · exact lt_of_lt_of_le (hids id hid n hn) (Nat.le_add_right _ _)

theorem Bounds.mono {s : SequentialIds} {ids fewer : List String} (hids : s.Bounds ids)
    (h : ∀ id ∈ fewer, id ∈ ids) : s.Bounds fewer :=
  fun id hid => hids id (h id hid)

end SequentialIds

/-! ## §4 Copies -/

namespace IdGenerator

variable {σ : Type} (gen : IdGenerator σ)

/-- The state after identifiers were drawn. -/
def after (s : σ) (count : Nat) : σ := (fun s => (gen.next s).2)^[count] s

/-- The identifiers that are drawn next, in this order. -/
def drawn (s : σ) (count : Nat) : List String :=
  (List.range count).map fun k => (gen.next (gen.after s k)).1

theorem drawn_succ (s : σ) (count : Nat) :
    gen.drawn s (count + 1) = (gen.next s).1 :: gen.drawn (gen.next s).2 count := by
  simp only [drawn, List.range_succ_eq_map, List.map_cons, List.map_map]
  rfl

end IdGenerator

/-- The copies of controls have the identifiers that are drawn for them, one for each. -/
theorem map_id_copies {κ σ : Type} [Coordinate κ] (gen : IdGenerator σ) (base lowest : Int)
    (dx dy : κ) (s : σ) (objects : List (Control κ)) :
    (copies gen base lowest dx dy s objects).1.map (·.id) = gen.drawn s objects.length ∧
      (copies gen base lowest dx dy s objects).2 = gen.after s objects.length := by
  induction objects generalizing s with
  | nil => exact ⟨rfl, rfl⟩
  | cons c rest ih =>
    obtain ⟨hids, hstate⟩ := ih (gen.next s).2
    rw [List.length_cons, gen.drawn_succ, ← hids]
    exact ⟨rfl, hstate⟩

/-- The copy of each control has its place above the lowest one, added to the base. -/
theorem forall₂_copies {κ σ : Type} [Coordinate κ] (gen : IdGenerator σ) (base lowest : Int)
    (dx dy : κ) (s : σ) (objects : List (Control κ)) :
    List.Forall₂ (fun c copy => copy = c.copy copy.id (base + 1 + (c.zIndex - lowest)) dx dy)
      objects (copies gen base lowest dx dy s objects).1 := by
  induction objects generalizing s with
  | nil => exact .nil
  | cons c rest ih => exact .cons rfl (ih _)

namespace SequentialIds

theorem after_generator (s : SequentialIds) (count : Nat) :
    generator.after s count = s.advance count := by
  induction count generalizing s with
  | zero => rfl
  | succ count ih => exact (ih (s.advance 1)).trans (s.advance_advance_one count)

theorem drawn_generator (s : SequentialIds) (count : Nat) :
    generator.drawn s count = s.issued count := by
  simp only [IdGenerator.drawn, after_generator]
  rfl

end SequentialIds

/-- The copies of controls have the identifiers that the source gives out for them. -/
theorem ids_copies {κ : Type} [Coordinate κ] (base lowest : Int) (dx dy : κ) (s : SequentialIds)
    (objects : List (Control κ)) :
    ((copies SequentialIds.generator base lowest dx dy s objects).1.map (·.id)) =
        s.issued objects.length ∧
      (copies SequentialIds.generator base lowest dx dy s objects).2 =
        s.advance objects.length := by
  rw [← s.drawn_generator, ← s.after_generator]
  exact map_id_copies SequentialIds.generator base lowest dx dy s objects

end BandedReport
