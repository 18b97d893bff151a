/-!
# Computations that may fail

Facts about computations that give a value or an error: what a sequence of two gives, and which
errors it can fail with.
-/

namespace BandedReport

variable {ε α β : Type}

theorem bind_eq_ok_iff {x : Except ε α} {f : α → Except ε β} {b : β} :
    x >>= f = .ok b ↔ ∃ a, x = .ok a ∧ f a = .ok b := by
  cases x <;> simp [bind, Except.bind]

theorem pure_eq_ok_iff {a b : α} : (pure a : Except ε α) = .ok b ↔ a = b := by
  simp [pure, Except.pure]

/-- Computations that are the same on every member of a list are the same on the list. -/
theorem mapM_congr {m : Type → Type} [Monad m] [LawfulMonad m] {l : List α} {f g : α → m β}
    (h : ∀ a ∈ l, f a = g a) : l.mapM f = l.mapM g := by
  induction l with
  | nil => rfl
  | cons a as ih =>
    obtain ⟨ha, has⟩ := List.forall_mem_cons.mp h
    rw [List.mapM_cons, List.mapM_cons, ha, ih has]

/-- Computations that give a value on every member of a list give these values on the list. -/
theorem mapM_eq_ok {l : List α} {f : α → Except ε β} {g : α → β} (h : ∀ a ∈ l, f a = .ok (g a)) :
    l.mapM f = .ok (l.map g) := by
  rw [mapM_congr h]
  exact List.mapM_pure

/-- A list is computed if its first member and the others are. -/
theorem mapM_cons_eq_ok_iff {a : α} {l : List α} {f : α → Except ε β} {bs : List β} :
    (a :: l).mapM f = .ok bs ↔
      ∃ b rest, f a = .ok b ∧ l.mapM f = .ok rest ∧ b :: rest = bs := by
  simp only [List.mapM_cons, bind_eq_ok_iff, pure_eq_ok_iff, exists_and_left]

/-- A list is computed only if every member is. -/
theorem exists_ok_of_mapM {l : List α} {f : α → Except ε β} {bs : List β}
    (h : l.mapM f = .ok bs) : ∀ a ∈ l, ∃ b, f a = .ok b := by
  induction l generalizing bs with
  | nil => exact List.forall_mem_nil _
  | cons a as ih =>
    obtain ⟨b, rest, hb, hrest, -⟩ := mapM_cons_eq_ok_iff.mp h
    exact List.forall_mem_cons.mpr ⟨⟨b, hb⟩, ih hrest⟩

/-- A list is computed up to the first error, or to the values of all its members. -/
theorem mapM_eq_findSome? {l : List α} {f : α → Except ε β} {error? : α → Option ε}
    {value : α → β} (h : ∀ a ∈ l, f a = (error? a).elim (.ok (value a)) .error) :
    l.mapM f = (l.findSome? error?).elim (.ok (l.map value)) .error := by
  induction l with
  | nil => rfl
  | cons a as ih =>
    obtain ⟨ha, has⟩ := List.forall_mem_cons.mp h
    rw [List.mapM_cons, ha, ih has, List.findSome?_cons]
    cases error? a with
    | some e => rfl
    | none => cases as.findSome? error? <;> rfl

/-- Every error that the computation fails with is of a kind. -/
def FailsOnly (kind : ε → Prop) (x : Except ε α) : Prop := ∀ e, x = .error e → kind e

namespace FailsOnly

variable {kind : ε → Prop}

theorem ok (a : α) : FailsOnly kind (.ok a) := nofun

theorem pure (a : α) : FailsOnly kind (Pure.pure a : Except ε α) := nofun

theorem error {e : ε} (h : kind e) : FailsOnly kind (.error e : Except ε α) := by
  rintro _ ⟨⟩
  exact h

theorem mono {kind' : ε → Prop} {x : Except ε α} (h : FailsOnly kind x)
    (hkind : ∀ e, kind e → kind' e) : FailsOnly kind' x :=
  fun e he => hkind e (h e he)

/-- A sequence fails as its first part does, or as the second does on the value of the first. -/
theorem bind_of_ok {x : Except ε α} {f : α → Except ε β} (hx : FailsOnly kind x)
    (hf : ∀ a, x = .ok a → FailsOnly kind (f a)) : FailsOnly kind (x >>= f) := by
  intro e he
  cases x with
  | error fault =>
    obtain rfl : fault = e := by simpa [Bind.bind, Except.bind] using he
    exact hx _ rfl
  | ok a => exact hf a rfl e he

theorem bind {x : Except ε α} {f : α → Except ε β} (hx : FailsOnly kind x)
    (hf : ∀ a, FailsOnly kind (f a)) : FailsOnly kind (x >>= f) :=
  hx.bind_of_ok fun a _ => hf a

theorem ite {p : Prop} [Decidable p] {x y : Except ε α} (hx : FailsOnly kind x)
    (hy : FailsOnly kind y) : FailsOnly kind (if p then x else y) := by
  split
  · exact hx
  · exact hy

theorem mapM {f : α → Except ε β} {l : List α} (h : ∀ a ∈ l, FailsOnly kind (f a)) :
    FailsOnly kind (l.mapM f) := by
  induction l with
  | nil => exact ok _
  | cons a as ih =>
    obtain ⟨ha, has⟩ := List.forall_mem_cons.mp h
    rw [List.mapM_cons]
    exact bind ha fun _ => bind (ih has) fun _ => pure _

end FailsOnly

/-- Two computations that fail with the same error, or give values that are related. -/
inductive Matches {γ : Type} (R : β → γ → Prop) : Except ε β → Except ε γ → Prop where
  | ok {b : β} {c : γ} : R b c → Matches R (.ok b) (.ok c)
  | error (e : ε) : Matches R (.error e) (.error e)

namespace Matches

variable {γ δ : Type} {R : α → β → Prop} {S : γ → δ → Prop} {x : Except ε α} {y : Except ε β}

theorem refl {Q : α → α → Prop} (h : ∀ a, Q a a) (x : Except ε α) : Matches Q x x := by
  cases x with
  | ok a => exact .ok (h a)
  | error e => exact .error e

/-- Sequences that give the same from related values are the same. -/
theorem bind_eq {f : α → Except ε γ} {g : β → Except ε γ} (h : Matches R x y)
    (hfg : ∀ a b, R a b → f a = g b) : x >>= f = y >>= g := by
  cases h with
  | ok hab => exact hfg _ _ hab
  | error e => rfl

theorem bind {f : α → Except ε γ} {g : β → Except ε δ} (h : Matches R x y)
    (hfg : ∀ a b, R a b → Matches S (f a) (g b)) : Matches S (x >>= f) (y >>= g) := by
  cases h with
  | ok hab => exact hfg _ _ hab
  | error e => exact .error e

end Matches

end BandedReport
