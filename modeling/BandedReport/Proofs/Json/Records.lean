import Mathlib.Data.List.Nodup
import BandedReport.Json.Decode
import BandedReport.Proofs.Json.RoundTrip

/-!
# Records in JSON

A record is written as an object of the fields that have a value. When their names differ, each
field that was written is found again under its name, and the others are found to be absent.
-/

namespace BandedReport.Json

/-! ## §1 Records -/

/-- The fields that have a value. -/
def present (entries : List (String × Option Json)) : List (String × Json) :=
  entries.flatMap fun entry => optionalField entry.1 entry.2

/-- The object of the fields that have a value. -/
def recordOf (entries : List (String × Option Json)) : Json := .object (present entries)

theorem present_cons (name : String) (value : Option Json)
    (entries : List (String × Option Json)) :
    present ((name, value) :: entries) = optionalField name value ++ present entries := rfl

theorem mem_present {entries : List (String × Option Json)} {f : String × Json} :
    f ∈ present entries ↔ (f.1, some f.2) ∈ entries := by
  obtain ⟨name, j⟩ := f
  simp only [present, List.mem_flatMap, Prod.exists]
  constructor
  · rintro ⟨_, _ | _, hmem, hfield⟩
    · simp [optionalField] at hfield
    · obtain ⟨rfl, rfl⟩ : name = _ ∧ j = _ := by simpa [optionalField] using hfield
      exact hmem
  · intro hmem
    exact ⟨name, some j, hmem, by simp [optionalField]⟩

/-- No field is written under a name that is no entry's. -/
theorem lookup_present_eq_none {name : String} {entries : List (String × Option Json)}
    (h : name ∉ entries.map Prod.fst) : (present entries).lookup name = none := by
  rw [List.lookup_eq_none_iff]
  intro field hfield
  have hmem : field.1 ∈ entries.map Prod.fst :=
    List.mem_map_of_mem (f := Prod.fst) (mem_present.mp hfield)
  exact bne_iff_ne.mpr fun heq => h (heq.symm ▸ hmem)

/-- A field is found under its name if it was written, and absent if not. -/
theorem lookup_present {name : String} {value : Option Json}
    {entries : List (String × Option Json)} (hnodup : (entries.map Prod.fst).Nodup)
    (hmem : (name, value) ∈ entries) : (present entries).lookup name = value := by
  induction entries with
  | nil => simp at hmem
  | cons entry entries ih =>
    obtain ⟨first, firstValue⟩ := entry
    obtain ⟨hfirst, hnodup⟩ := List.nodup_cons.mp hnodup
    rw [present_cons, List.lookup_append]
    -- Its name is that of no other entry, so only the entry itself can answer.
    rcases List.mem_cons.mp hmem with heq | hrest
    · obtain ⟨rfl, rfl⟩ := Prod.mk.inj heq
      rw [lookup_present_eq_none hfirst, Option.or_none]
      cases value <;> simp [optionalField]
    · have hne : (name == first) = false := by
        have hname : name ∈ entries.map Prod.fst := List.mem_map_of_mem (f := Prod.fst) hrest
        exact beq_eq_false_iff_ne.mpr fun heq => hfirst (heq ▸ hname)
      have hother : (optionalField first firstValue).lookup name = none := by
        cases firstValue <;> simp [optionalField, List.lookup_cons, hne]
      rw [hother, Option.none_or, ih hnodup hrest]

/-- The names that are written are names of entries, in their order. -/
theorem map_fst_present_sublist (entries : List (String × Option Json)) :
    ((present entries).map Prod.fst).Sublist (entries.map Prod.fst) := by
  induction entries with
  | nil => exact .slnil
  | cons entry entries ih =>
    obtain ⟨name, value⟩ := entry
    cases value with
    | none => exact .cons name ih
    | some j => exact .cons_cons name ih

/-- Every name is written at most once. -/
theorem countP_present_le {entries : List (String × Option Json)}
    (hnodup : (entries.map Prod.fst).Nodup) (name : String) :
    (present entries).countP (·.1 == name) ≤ 1 := by
  have hcount : (present entries).countP (·.1 == name) =
      ((present entries).map Prod.fst).count name := by
    rw [List.count, List.countP_map]
    rfl
  rw [hcount]
  exact List.nodup_iff_count_le_one.mp ((map_fst_present_sublist entries).nodup hnodup) name

/-- The fields of a record are those it was written with. -/
theorem fields?_recordOf {names : List String} (entries : List (String × Option Json))
    (hnames : entries.map Prod.fst = names) (hnodup : names.Nodup) :
    fields? names (recordOf entries) = some (entries.map Prod.snd) := by
  subst hnames
  have honce : (entries.map Prod.fst).all
      (fun name => (present entries).countP (·.1 == name) ≤ 1) = true := by
    simp [countP_present_le hnodup]
  simp only [fields?, recordOf]
  rw [if_pos honce, List.map_map]
  congr 1
  refine List.map_congr_left fun entry hentry => ?_
  exact lookup_present hnodup hentry

/-! ## §2 What a record is made of -/

theorem writable_recordOf {p : Float → Prop} {entries : List (String × Option Json)}
    (h : ∀ entry ∈ entries, ∀ j ∈ entry.2, Writable p j) : Writable p (recordOf entries) :=
  .object fun field hfield => h (field.1, some field.2) (mem_present.mp hfield) field.2 rfl

theorem readableItems_of_forall {items : List Json} (h : ∀ j ∈ items, j.isReadable = true) :
    isReadable.readableItems items = true := by
  induction items with
  | nil => rfl
  | cons j items ih =>
    obtain ⟨hj, hitems⟩ := List.forall_mem_cons.mp h
    simp [isReadable.readableItems, hj, ih hitems]

theorem readableFields_of_forall {fields : List (String × Json)}
    (h : ∀ field ∈ fields, field.2.isReadable = true) :
    isReadable.readableFields fields = true := by
  induction fields with
  | nil => rfl
  | cons field fields ih =>
    obtain ⟨hfield, hfields⟩ := List.forall_mem_cons.mp h
    simp [isReadable.readableFields, hfield, ih hfields]

/-- What can be written can be read. -/
theorem isReadable_of_writable {p : Float → Prop} {j : Json} (h : Writable p j) :
    j.isReadable = true := by
  induction h with
  | array _ ih =>
    rw [isReadable]
    exact readableItems_of_forall ih
  | object _ ih =>
    rw [isReadable]
    exact readableFields_of_forall ih
  | _ => rfl

/-- An object is one level deeper than its deepest field. -/
theorem depth_object_le {fields : List (String × Json)} {n : Nat}
    (h : ∀ field ∈ fields, field.2.depth ≤ n) : (object fields).depth ≤ n + 1 := by
  rw [depth]
  refine Nat.succ_le_succ ?_
  induction fields with
  | nil => exact Nat.zero_le n
  | cons field fields ih =>
    obtain ⟨hfield, hfields⟩ := List.forall_mem_cons.mp h
    exact Nat.max_le.mpr ⟨hfield, ih hfields⟩

theorem depth_recordOf_le {entries : List (String × Option Json)} {n : Nat}
    (h : ∀ entry ∈ entries, ∀ j ∈ entry.2, j.depth ≤ n) : (recordOf entries).depth ≤ n + 1 :=
  depth_object_le fun field hfield =>
    h (field.1, some field.2) (mem_present.mp hfield) field.2 rfl

/-! ## §3 Values in fields -/

theorem asNat?_integer {n bound : Nat} (h : n < bound) :
    asNat? bound (.integer n) = some n := by
  have hbound : (n : Int) < bound := Int.ofNat_lt.mpr h
  simp [asNat?, hbound]

theorem asInt?_integer {n low high : Int} (h : low ≤ n ∧ n ≤ high) :
    asInt? low high (.integer n) = some n := by
  simp [asInt?, h.1, h.2]

/-- A field that need not be there is read back, if what is written is never null. -/
theorem optional_map {α : Type} {encode : α → Json} {decode : Decoder α} {value : Option α}
    (h : ∀ a ∈ value, decode (encode a) = some a) (hnull : ∀ a, encode a ≠ .null) :
    optional decode (value.map encode) = some value := by
  -- What is there is not encoded as null, so it is not taken for a gap.
  cases value with
  | none => rfl
  | some a =>
    have ha := h a rfl
    rw [Option.map_some]
    unfold optional
    split
    · contradiction
    · rename_i hj
      exact absurd (Option.some.inj hj) (hnull a)
    · rename_i hj
      rw [← Option.some.inj hj, ha, Option.map_some]

/-- Items are read back if each one is. -/
theorem asList?_map {α : Type} {encode : α → Json} {decode : Decoder α} {items : List α}
    (h : ∀ a ∈ items, decode (encode a) = some a) :
    asList? decode (.array (items.map encode)) = some items := by
  induction items with
  | nil => rfl
  | cons a items ih =>
    obtain ⟨ha, hitems⟩ := List.forall_mem_cons.mp h
    have hrest : (items.map encode).mapM decode = some items := ih hitems
    simp [asList?, ha, hrest]

/-- A value is found again under its name. -/
theorem asNamed?_name {α : Type} {name : α → String} {all : List α} {a : α}
    (hnames : (all.map name).Nodup) (ha : a ∈ all) :
    asNamed? name all (.string (name a)) = some a := by
  have hinj : ∀ b ∈ all, name b = name a → b = a := fun b hb heq =>
    List.inj_on_of_nodup_map hnames hb ha heq
  show all.find? (name · == name a) = some a
  have hsome : (all.find? (name · == name a)).isSome = true :=
    List.find?_isSome.mpr ⟨a, ha, beq_self_eq_true (name a)⟩
  obtain ⟨b, hfind⟩ := Option.isSome_iff_exists.mp hsome
  rw [hfind, hinj b (List.mem_of_find?_eq_some hfind) (by simpa using List.find?_some hfind)]

end BandedReport.Json
