import AssetPress.Text.Fields

/-!
# Parts of appended and joined lists

Appending lists makes one part of the last part of the first one and the first part of the other
(`splitOn_append`).  Joined lists hold what their parts hold and separators (`mem_intercalate`).
-/

namespace AssetPress

variable {α : Type} {sep : α}

/-! ### Joined parts -/

theorem mem_intercalate {a : α} {xs : List (List α)} (h : a ∈ [sep].intercalate xs) :
    a = sep ∨ ∃ x ∈ xs, a ∈ x := by
  induction xs with
  | nil => cases h
  | cons x more ih =>
      by_cases hmore : more = []
      · subst hmore
        rw [List.intercalate_singleton] at h
        exact Or.inr ⟨x, List.mem_cons_self, h⟩
      · rw [List.intercalate_cons_of_ne_nil hmore, List.append_assoc] at h
        rcases List.mem_append.mp h with hx | hrest
        · exact Or.inr ⟨x, List.mem_cons_self, hx⟩
        · rcases List.mem_cons.mp hrest with hsep | hrest
          · exact Or.inl hsep
          · rcases ih hrest with hsep | ⟨y, hy, ha⟩
            · exact Or.inl hsep
            · exact Or.inr ⟨y, List.mem_cons_of_mem x hy, ha⟩

theorem mem_intercalate_of_mem {a : α} {x : List α} {xs : List (List α)} (hx : x ∈ xs)
    (ha : a ∈ x) : a ∈ [sep].intercalate xs := by
  induction xs with
  | nil => cases hx
  | cons y more ih =>
      by_cases hmore : more = []
      · subst hmore
        rw [List.mem_singleton.mp hx] at ha
        rwa [List.intercalate_singleton]
      · rw [List.intercalate_cons_of_ne_nil hmore, List.append_assoc]
        rcases List.mem_cons.mp hx with rfl | hx
        · exact List.mem_append_left _ ha
        · exact List.mem_append_right _ (List.mem_cons_of_mem sep (ih hx))

theorem intercalate_prefix {xs : List (List α)} (hne : xs ≠ []) (ys : List (List α)) :
    [sep].intercalate xs <+: [sep].intercalate (xs ++ ys) := by
  induction xs with
  | nil => exact absurd rfl hne
  | cons x more ih =>
      by_cases hmore : more = []
      · subst hmore
        by_cases hys : ys = []
        · subst hys
          exact List.prefix_rfl
        · rw [List.singleton_append, List.intercalate_cons_of_ne_nil hys,
            List.intercalate_singleton, List.append_assoc]
          exact List.prefix_append x _
      · have hmore' : more ++ ys ≠ [] := fun hnil => hmore (List.append_eq_nil_iff.mp hnil).1
        rw [List.cons_append, List.intercalate_cons_of_ne_nil hmore,
          List.intercalate_cons_of_ne_nil hmore']
        exact (List.prefix_append_right_inj _).mpr (ih hmore)

variable [DecidableEq α]

/-! ### Appended lists -/

/-- The last part of `xs` and the first one of `ys` become one part of `xs ++ ys`. -/
theorem splitOn_append {xs ys last first : List α} {front more : List (List α)}
    (hx : xs.splitOn sep = front ++ [last]) (hy : ys.splitOn sep = first :: more) :
    (xs ++ ys).splitOn sep = front ++ (last ++ first) :: more := by
  induction xs generalizing front last with
  | nil =>
      rw [List.splitOn_nil] at hx
      obtain ⟨rfl, rfl⟩ : front = [] ∧ last = [] := by
        cases front <;> simp_all
      simpa using hy
  | cons x rest ih =>
      rw [List.cons_append, List.splitOn_cons_eq_if_modifyHead]
      rw [List.splitOn_cons_eq_if_modifyHead] at hx
      by_cases hxs : (x == sep) = true
      · rw [if_pos hxs] at hx ⊢
        cases front with
        | nil =>
            exact absurd (by simpa using congrArg List.tail hx) (List.splitOn_ne_nil sep rest)
        | cons f front =>
            rw [List.cons_append, List.cons.injEq] at hx
            rw [ih hx.2, ← hx.1, List.cons_append]
      · rw [if_neg hxs] at hx ⊢
        obtain ⟨part, after, hparts⟩ := List.exists_cons_of_ne_nil (List.splitOn_ne_nil sep rest)
        rw [hparts, List.modifyHead_cons] at hx
        cases front with
        | nil =>
            rw [List.nil_append, List.cons.injEq] at hx
            have hone : rest.splitOn sep = [] ++ [part] := by rw [hparts, hx.2]; rfl
            rw [ih hone, ← hx.1]
            rfl
        | cons f front =>
            rw [List.cons_append, List.cons.injEq] at hx
            have hmany : rest.splitOn sep = (part :: front) ++ [last] := by
              rw [hparts, hx.2]
              rfl
            rw [ih hmany, ← hx.1]
            rfl

/-! ### Cut lists -/

/-- What stands before the first separator, the separator and what stands behind it are all there
is. -/
theorem cut_spec (sep : α) (xs : List α) :
    xs = (cut sep xs).1 ++ ((cut sep xs).2.map (sep :: ·)).getD [] := by
  induction xs with
  | nil => rfl
  | cons x rest ih =>
      by_cases hx : x = sep
      · subst hx
        simp [cut]
      · rw [cut, if_neg hx]
        exact congrArg (x :: ·) ih

end AssetPress
