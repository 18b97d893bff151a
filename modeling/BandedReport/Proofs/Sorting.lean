import Mathlib.Data.List.Basic

/-!
# Lists sorted by a key and lists without repetitions

Sorting by a key is stable: the members of a key stay in the order in which they were. So a sorted
list is known by what it holds at each key, whatever procedure made it. Erasing repetitions leaves
none.
-/

namespace BandedReport

variable {α : Type} (key : α → Int)

/-- Sorting by a key sorts. -/
theorem pairwise_mergeSort_key (l : List α) :
    (l.mergeSort fun a b => key a ≤ key b).Pairwise fun a b => key a ≤ key b := by
  have hsorted : (l.mergeSort fun a b => key a ≤ key b).Pairwise
      fun a b => decide (key a ≤ key b) :=
    List.pairwise_mergeSort (by simp only [decide_eq_true_eq]; omega)
      (by simp only [Bool.or_eq_true, decide_eq_true_eq]; omega) l
  simpa only [decide_eq_true_eq] using hsorted

/-- Sorting leaves the members of a key in their order. -/
theorem filter_mergeSort_key (k : Int) (l : List α) :
    (l.mergeSort fun a b => key a ≤ key b).filter (key · == k) = l.filter (key · == k) := by
  -- Members of one key are sorted already.
  have hsorted : (l.filter (key · == k)).Pairwise fun a b => decide (key a ≤ key b) := by
    refine List.pairwise_of_forall_mem_list fun a ha b hb => ?_
    have hka : key a = k := eq_of_beq (List.mem_filter.mp ha).2
    have hkb : key b = k := eq_of_beq (List.mem_filter.mp hb).2
    exact decide_eq_true (by omega)
  -- The sort is stable, so these members are in the sorted list as they are, and no others.
  have hstable := List.sublist_mergeSort (by simp only [decide_eq_true_eq]; omega)
    (by simp only [Bool.or_eq_true, decide_eq_true_eq]; omega) hsorted List.filter_sublist
  have hsub := hstable.filter (key · == k)
  rw [List.filter_filter] at hsub
  simp only [Bool.and_self] at hsub
  have hperm := (List.mergeSort_perm l fun a b => decide (key a ≤ key b)).filter (key · == k)
  exact (hsub.eq_of_length hperm.length_eq.symm).symm

/-- What a sorted list begins with has the least key. -/
private theorem key_head_le {a b : α} {l l' : List α}
    (hl : (a :: l).Pairwise fun x y => key x ≤ key y)
    (h : ∀ k, (a :: l).filter (key · == k) = (b :: l').filter (key · == k)) : key a ≤ key b := by
  have hmem : b ∈ (a :: l).filter (key · == key b) := by
    rw [h]
    simp
  rcases List.mem_cons.mp (List.mem_of_mem_filter hmem) with rfl | hb
  · exact Int.le_refl _
  · exact List.rel_of_pairwise_cons hl hb

/-- A list sorted by a key is known by what it holds at each key. -/
theorem eq_of_filter_key_eq {l l' : List α} (hl : l.Pairwise fun x y => key x ≤ key y)
    (hl' : l'.Pairwise fun x y => key x ≤ key y)
    (h : ∀ k, l.filter (key · == k) = l'.filter (key · == k)) : l = l' := by
  induction l generalizing l' with
  | nil =>
    -- Without members on one side there is none of any key on the other.
    cases l' with
    | nil => rfl
    | cons b bs => simpa using h (key b)
  | cons a as ih =>
    cases l' with
    | nil => simpa using h (key a)
    | cons b bs =>
      have hkey : key a = key b :=
        Int.le_antisymm (key_head_le key hl h) (key_head_le key hl' fun k => (h k).symm)
      -- Both heads are the first members of their common key.
      have hheads : a :: as.filter (key · == key a) = b :: bs.filter (key · == key a) := by
        simpa [hkey] using h (key a)
      obtain ⟨rfl, -⟩ := List.cons.inj hheads
      -- Without their heads the two lists still agree on every key.
      refine congrArg (a :: ·) (ih hl.of_cons hl'.of_cons fun k => ?_)
      have hk := h k
      simp only [List.filter_cons] at hk
      split at hk
      · exact (List.cons.inj hk).2
      · exact hk

/-- A list without its repetitions has no repetition. -/
theorem nodup_eraseDups {β : Type} [BEq β] [LawfulBEq β] (l : List β) : l.eraseDups.Nodup := by
  match l with
  | [] => exact List.nodup_nil
  | a :: as =>
    have hshorter : (as.filter fun b => !b == a).length < as.length + 1 :=
      Nat.lt_succ_of_le (List.length_filter_le ..)
    rw [List.eraseDups_cons, List.nodup_cons]
    exact ⟨by simp, nodup_eraseDups _⟩
termination_by l.length

/-- To append one after the other what is not there yet is to append what is new, each once, in the
order in which it comes. -/
theorem foldl_appendNew {β : Type} [BEq β] [LawfulBEq β] (seen l : List β) :
    l.foldl (fun seen a => if seen.contains a then seen else seen ++ [a]) seen =
      seen ++ (l.removeAll seen).eraseDups := by
  induction l generalizing seen with
  | nil => exact (List.append_nil seen).symm
  | cons a rest ih =>
    rw [List.foldl_cons, ih]
    -- What was seen before is passed over, and what is new is put behind.
    by_cases ha : a ∈ seen
    · have hpassed : (a :: rest).removeAll seen = rest.removeAll seen := by
        simp [List.removeAll, ha]
      rw [if_pos (List.contains_iff_mem.mpr ha), hpassed]
    · have hfound : (a :: rest).removeAll seen = a :: rest.removeAll seen := by
        simp [List.removeAll, ha]
      -- Further ones of the same are no longer new.
      have hlater : rest.removeAll (seen ++ [a]) =
          (rest.removeAll seen).filter fun later => !later == a := by
        rw [List.removeAll, List.removeAll, List.filter_filter]
        refine List.filter_congr fun later _ => ?_
        rw [Bool.eq_iff_iff]
        simp [and_comm]
      rw [if_neg (mt List.contains_iff_mem.mp ha), hfound, List.eraseDups_cons, hlater,
        List.append_assoc]
      rfl

end BandedReport
