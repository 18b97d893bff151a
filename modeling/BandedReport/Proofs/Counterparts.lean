import Mathlib.Data.List.Forall2
import BandedReport.Proofs.Outcome

/-!
# Lists whose members are counterparts

Two lists may correspond member by member: what holds between counterparts carries over to what is
made of the lists.
-/

namespace BandedReport

/-- What every member of a list makes its counterpart satisfy, all counterparts satisfy. -/
theorem forall_mem_of_forall₂ {α β : Type} {R : α → β → Prop} {P : β → Prop}
    {l : List α} {l' : List β} (h : List.Forall₂ R l l') (hP : ∀ a ∈ l, ∀ b, R a b → P b) :
    ∀ b ∈ l', P b := by
  induction h with
  | nil => nofun
  | cons hab _ ih =>
    obtain ⟨ha, has⟩ := List.forall_mem_cons.mp hP
    exact List.forall_mem_cons.mpr ⟨ha _ hab, ih has⟩

/-- Lists that correspond piece by piece correspond as a whole. -/
theorem forall₂_flatMap {α β γ : Type} {R : β → γ → Prop} {f : α → List β}
    {g : α → List γ} {l : List α} (h : ∀ a ∈ l, List.Forall₂ R (f a) (g a)) :
    List.Forall₂ R (l.flatMap f) (l.flatMap g) := by
  induction l with
  | nil => exact .nil
  | cons a as ih =>
    obtain ⟨ha, has⟩ := List.forall_mem_cons.mp h
    rw [List.flatMap_cons, List.flatMap_cons]
    exact List.rel_append ha (ih has)

/-- Lists that correspond member by member still do with the same things beside their members. -/
theorem forall₂_zip_same {α β γ : Type} {R : α → β → Prop} {l : List α} {l' : List β}
    (things : List γ) (h : List.Forall₂ R l l') :
    List.Forall₂ (fun x y => R x.1 y.1 ∧ x.2 = y.2) (l.zip things) (l'.zip things) := by
  induction h generalizing things with
  | nil => exact .nil
  | cons hab _ ih =>
    cases things with
    | nil => exact .nil
    | cons thing rest => exact .cons ⟨hab, rfl⟩ (ih rest)

theorem map_eq_of_forall₂ {α β γ : Type} {f : α → γ} {g : β → γ} {l : List α} {l' : List β}
    (h : List.Forall₂ (fun a b => g b = f a) l l') : l'.map g = l.map f := by
  induction h with
  | nil => rfl
  | cons hhead _ ih => rw [List.map_cons, List.map_cons, hhead, ih]

theorem map_flatMap_eq_of_forall₂ {α β γ γ' δ : Type} {f : α → List γ} {g : β → List γ'}
    {u : γ → δ} {v : γ' → δ} {l : List α} {l' : List β}
    (h : List.Forall₂ (fun a b => (g b).map v = (f a).map u) l l') :
    (l'.flatMap g).map v = (l.flatMap f).map u := by
  rw [List.map_flatMap, List.map_flatMap, List.flatMap_def, List.flatMap_def, map_eq_of_forall₂ h]

/-- A list is computed if its members give their counterparts. -/
theorem mapM_eq_ok_of_forall₂ {ε α β : Type} {f : α → Except ε β} {l : List α} {bs : List β}
    (h : List.Forall₂ (fun a b => f a = .ok b) l bs) : l.mapM f = .ok bs := by
  induction h with
  | nil => rfl
  | cons hb _ ih => exact mapM_cons_eq_ok_iff.mpr ⟨_, _, hb, ih, rfl⟩

/-- Computations that match on counterparts match on the lists. -/
theorem Matches.mapM {ε α β γ δ : Type} {R : γ → δ → Prop} {f : α → Except ε γ}
    {g : β → Except ε δ} {l : List α} {l' : List β}
    (h : List.Forall₂ (fun a b => Matches R (f a) (g b)) l l') :
    Matches (List.Forall₂ R) (l.mapM f) (l'.mapM g) := by
  induction h with
  | nil => exact .ok .nil
  | cons hab _ ih =>
    rw [List.mapM_cons, List.mapM_cons]
    exact hab.bind fun _ _ hc => ih.bind fun _ _ hcs => .ok (.cons hc hcs)

end BandedReport
