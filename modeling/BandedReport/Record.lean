import BandedReport.Scalar

/-!
# Records

A record is one row of data: field names with their values, each name once. The fields are kept
in the order of their names, which is the order in which they are listed and written.
-/

namespace BandedReport

/-- One row of data. -/
structure Record where
  /-- Names and values, in strictly increasing order of the names. -/
  fields : List (String × Scalar)
deriving BEq, Inhabited

namespace Record

/-- The record without fields. -/
def empty : Record := ⟨[]⟩

/-- Put a value into a list of fields sorted by name. -/
private def put (name : String) (value : Scalar) : List (String × Scalar) → List (String × Scalar)
  | [] => [(name, value)]
  | (key, old) :: rest =>
    if name < key then (name, value) :: (key, old) :: rest
    else if key == name then (name, value) :: rest
    else (key, old) :: put name value rest

/-- Set a field, in place of the value it had. -/
def insert (r : Record) (name : String) (value : Scalar) : Record := ⟨put name value r.fields⟩

/-- The record of a list of fields; of a repeated name the last value counts. -/
def ofList (fields : List (String × Scalar)) : Record :=
  fields.foldl (fun r (name, value) => r.insert name value) empty

/-- The value of a field. -/
def get? (r : Record) (name : String) : Option Scalar := r.fields.lookup name

/-- The field names in order. -/
def names (r : Record) : List String := r.fields.map (·.1)

private theorem lookup_put_self (name : String) (value : Scalar) (fields : List (String × Scalar)) :
    (put name value fields).lookup name = some value := by
  induction fields with
  | nil => simp [put]
  | cons field rest ih =>
    obtain ⟨key, old⟩ := field
    simp only [put]
    split
    · simp
    · split
      · simp
      · rename_i _ hne
        rw [List.lookup_cons]
        have : (name == key) = false := by
          simp only [beq_iff_eq] at hne
          simpa using fun h => hne h.symm
        simp [this, ih]

private theorem lookup_put_of_ne {name other : String} (h : other ≠ name) (value : Scalar)
    (fields : List (String × Scalar)) :
    (put name value fields).lookup other = fields.lookup other := by
  induction fields with
  | nil =>
    have : (other == name) = false := by simpa using h
    simp [put, List.lookup_cons, this]
  | cons field rest ih =>
    obtain ⟨key, old⟩ := field
    simp only [put]
    split
    · have : (other == name) = false := by simpa using h
      simp [List.lookup_cons, this]
    · split
      · rename_i _ heq
        have heq : key = name := by simpa using heq
        subst heq
        have : (other == key) = false := by simpa using h
        simp [List.lookup_cons, this]
      · simp [List.lookup_cons, ih]

private theorem map_fst_put {name : String} (value : Scalar) {fields : List (String × Scalar)}
    (h : fields.lookup name = none) :
    ((put name value fields).map (·.1)).Perm (name :: fields.map (·.1)) := by
  induction fields with
  | nil => simp [put]
  | cons field rest ih =>
    obtain ⟨key, old⟩ := field
    rw [List.lookup_cons] at h
    split at h
    · simp at h
    · rename_i hne
      have hkey : (key == name) = false := by
        rwa [BEq.comm]
      simp only [put, hkey]
      split
      · exact .refl _
      · simpa using ((ih h).cons key).trans (.swap ..)

private theorem mem_map_fst_put (name : String) (value : Scalar) (fields : List (String × Scalar))
    (other : String) :
    other ∈ (put name value fields).map (·.1) ↔ other = name ∨ other ∈ fields.map (·.1) := by
  induction fields with
  | nil => simp [put]
  | cons field rest ih =>
    obtain ⟨key, old⟩ := field
    simp only [put]
    split
    · simp
    · split
      · rename_i _ heq
        have heq : key = name := by simpa using heq
        subst heq
        simp
      · simp only [List.map_cons, List.mem_cons, ih]
        exact or_left_comm

private theorem pairwise_put (name : String) (value : Scalar) {fields : List (String × Scalar)}
    (h : (fields.map (·.1)).Pairwise (· < ·)) :
    ((put name value fields).map (·.1)).Pairwise (· < ·) := by
  induction fields with
  | nil => simp [put]
  | cons field rest ih =>
    obtain ⟨key, old⟩ := field
    obtain ⟨hkey, hrest⟩ := List.pairwise_cons.mp h
    simp only [put]
    split
    · rename_i hlt
      refine List.pairwise_cons.mpr ⟨fun other hother => ?_, h⟩
      rcases List.mem_cons.mp hother with rfl | hother
      · exact hlt
      · exact String.lt_trans hlt (hkey other hother)
    · split
      · rename_i _ heq
        have heq : key = name := by simpa using heq
        subst heq
        exact h
      · rename_i hle hne
        refine List.pairwise_cons.mpr ⟨fun other hother => ?_, ih hrest⟩
        rcases (mem_map_fst_put name value rest other).mp hother with rfl | hother
        · -- The new name is neither before the first nor the same.
          apply Decidable.byContradiction
          intro hnot
          have heq := String.le_antisymm (String.not_lt.mp hnot) (String.not_lt.mp hle)
          simp [heq] at hne
        · exact hkey other hother

/-- A field that was set has the value it was set to. -/
@[simp] theorem get?_insert_self (r : Record) (name : String) (value : Scalar) :
    (r.insert name value).get? name = some value :=
  lookup_put_self name value r.fields

/-- Setting a field leaves the others alone. -/
theorem get?_insert_of_ne {name other : String} (h : other ≠ name) (r : Record) (value : Scalar) :
    (r.insert name value).get? other = r.get? other :=
  lookup_put_of_ne h value r.fields

/-- Setting a field that was not there adds its name. -/
theorem names_insert_of_none {r : Record} {name : String} (h : r.get? name = none)
    (value : Scalar) : (r.insert name value).names.Perm (name :: r.names) :=
  map_fst_put value h

/-- Setting a field adds its name to those there are. -/
theorem mem_names_insert {r : Record} {name other : String} {value : Scalar} :
    other ∈ (r.insert name value).names ↔ other = name ∨ other ∈ r.names :=
  mem_map_fst_put name value r.fields other

/-- Setting a field keeps the names in order. -/
theorem pairwise_names_insert {r : Record} (h : r.names.Pairwise (· < ·)) (name : String)
    (value : Scalar) : (r.insert name value).names.Pairwise (· < ·) :=
  pairwise_put name value h

end Record

end BandedReport
