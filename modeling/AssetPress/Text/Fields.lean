/-!
# Cutting lists at a separator

What stands between the occurrences of a separator does not hold it (`not_mem_of_mem_splitOn`).  A
list can also be cut at the first occurrence alone (`cut`); main statement: `cut_append`.
-/

namespace AssetPress

variable {α : Type} [DecidableEq α]

/-! ### Every occurrence -/

theorem not_mem_of_mem_splitOn {sep : α} {xs part : List α} (h : part ∈ xs.splitOn sep) :
    sep ∉ part := by
  induction xs generalizing part with
  | nil =>
      rw [List.splitOn_nil, List.mem_singleton] at h
      rw [h]
      exact List.not_mem_nil
  | cons x rest ih =>
      rw [List.splitOn_cons_eq_if_modifyHead] at h
      split at h
      · rcases List.mem_cons.mp h with rfl | h
        · exact List.not_mem_nil
        · exact ih h
      case isFalse hx =>
        obtain ⟨first, more, hparts⟩ := List.exists_cons_of_ne_nil (List.splitOn_ne_nil sep rest)
        rw [hparts] at ih
        rw [hparts, List.modifyHead_cons] at h
        rcases List.mem_cons.mp h with rfl | h
        · have hfirst : sep ∉ first := ih List.mem_cons_self
          have hne : sep ≠ x := fun heq => hx (beq_iff_eq.mpr heq.symm)
          simp [hne, hfirst]
        · exact ih (List.mem_cons_of_mem first h)

/-! ### The first occurrence -/

/-- What stands before the first `sep`, and what stands behind it if it occurs. -/
def cut (sep : α) : List α → List α × Option (List α)
  | [] => ([], none)
  | x :: rest =>
      if x = sep then ([], some rest)
      else
        let (before, behind) := cut sep rest
        (x :: before, behind)

theorem cut_of_not_mem {sep : α} {xs : List α} (h : sep ∉ xs) : cut sep xs = (xs, none) := by
  induction xs with
  | nil => rfl
  | cons x rest ih =>
      have hx : x ≠ sep := fun heq => h (heq ▸ List.mem_cons_self)
      simp [cut, hx, ih fun hmem => h (List.mem_cons_of_mem _ hmem)]

theorem cut_append {sep : α} {xs : List α} (h : sep ∉ xs) (rest : List α) :
    cut sep (xs ++ sep :: rest) = (xs, some rest) := by
  induction xs with
  | nil => simp [cut]
  | cons x more ih =>
      have hx : x ≠ sep := fun heq => h (heq ▸ List.mem_cons_self)
      simp [cut, hx, ih fun hmem => h (List.mem_cons_of_mem _ hmem)]

end AssetPress
