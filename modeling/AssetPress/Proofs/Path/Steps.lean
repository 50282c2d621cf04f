import AssetPress.Proofs.Text.Fields
import AssetPress.Tree.Walk

/-!
# The steps of a path

The steps of a joined path are those of the left side and then those of the right one
(`steps_join`), and the walk starts where the left side lets it start (`start_join`).  Behind both
stands a law about fields: appending lists makes one field of the last field of the first one and
the first field of the other (`splitOn_append`).  What stands above a name in a directory is the
same for all names (`parent?_join`).
-/

namespace AssetPress

/-! ### Steps -/

theorem Step.bytes_of_ofPiece {piece : Bytes} {n : Name} (h : Step.ofPiece piece = .name n) :
    n.bytes = piece := by
  unfold ofPiece at h
  split at h
  · cases h
  · split at h
    · cases h
    · split at h
      case _ hn =>
        cases h
        exact Name.bytes_of_ofBytes? hn
      case _ => cases h

namespace Path

/-- What is written at the beginning of a path that is not refused is not refused either. -/
theorem refused?_of_isPrefix {p q : Path} (hq : q.bytes <+: p.bytes) (hne : q.bytes ≠ [])
    (hp : p.refused? = none) : q.refused? = none := by
  unfold refused? at hp ⊢
  split at hp
  case isTrue => cases hp
  case isFalse hzero =>
    split at hp
    case isTrue => cases hp
    case isFalse hlong =>
      have hzero' : 0 ∉ q.bytes := fun hmem => hzero (hq.subset hmem)
      have hlong' : ¬ maxLength ≤ q.bytes.length := fun hle =>
        hlong (Nat.le_trans hle hq.length_le)
      rw [if_neg hzero', if_neg hlong', if_neg hne]

/-- The steps that pieces between slashes stand for; an empty piece is none. -/
def stepsOf (pieces : List Bytes) : List Step :=
  (pieces.filter fun piece => !piece.isEmpty).map Step.ofPiece

theorem steps_eq (p : Path) : p.steps = stepsOf (split p.bytes) := rfl

theorem stepsOf_append (ps qs : List Bytes) : stepsOf (ps ++ qs) = stepsOf ps ++ stepsOf qs := by
  simp [stepsOf]

theorem stepsOf_singleton {piece : Bytes} (h : piece ≠ []) :
    stepsOf [piece] = [Step.ofPiece piece] := by
  simp [stepsOf, h]

/-! ### Joined paths -/

variable {dir name : Path}

theorem isAbsolute_join (h : name.isAbsolute = false) :
    (dir.join name).isAbsolute = dir.isAbsolute := by
  obtain ⟨bytes⟩ := dir
  cases bytes with
  | nil =>
      simp only [join, h]
      exact h
  | cons b rest =>
      obtain ⟨sep, -, hjoin⟩ :
          ∃ sep, _ ∧ ((⟨b :: rest⟩ : Path).join name).bytes = b :: rest ++ sep ++ name.bytes :=
        join_bytes_of_relative h
      simp [isAbsolute, hjoin]

theorem start_join (h : name.isAbsolute = false) (base : Location) :
    (dir.join name).start base = dir.start base := by
  unfold start
  rw [isAbsolute_join h]

theorem steps_join (h : name.isAbsolute = false) :
    (dir.join name).steps = dir.steps ++ name.steps := by
  have hsep : ∀ left : Bytes, (⟨left ++ slash :: name.bytes⟩ : Path).steps =
      (⟨left⟩ : Path).steps ++ name.steps := by
    intro left
    rw [steps_eq, steps_eq, steps_eq, split, List.splitOn_append_cons_self, stepsOf_append]
    rfl
  unfold join
  rw [h, if_neg Bool.false_ne_true]
  split
  case isTrue hbare =>
    rcases Bool.or_eq_true_iff.mp hbare with hempty | hslash
    · have hdir : dir.bytes = [] := List.isEmpty_iff.mp hempty
      simp [steps_eq, hdir, split, List.splitOn_nil, stepsOf]
    · obtain ⟨front, hfront⟩ := List.getLast?_eq_some_iff.mp (beq_iff_eq.mp hslash)
      have hdir : dir.steps = (⟨front⟩ : Path).steps := by
        rw [steps_eq, hfront, split, List.splitOn_append_cons_self, stepsOf_append]
        simp [steps_eq, split, List.splitOn_nil, stepsOf]
      rw [hdir, hfront, List.append_assoc, List.singleton_append, hsep]
  case isFalse => exact hsep dir.bytes

/-! ### What stands above a joined path -/

theorem isAbsolute_of_not_mem (h : slash ∉ name.bytes) : name.isAbsolute = false := by
  refine beq_eq_false_iff_ne.mpr fun hhead => h ?_
  exact List.mem_of_mem_head? hhead

/-- The pieces of a joined path are those of the left side, but for an empty one at its end, and
then the right side. -/
theorem exists_split_join (dir : Path) (h : slash ∉ name.bytes) :
    ∃ before, split (dir.join name).bytes = before ++ [name.bytes] ∧
      (before = [] ∧ dir.bytes = [] ∨
        before ≠ [] ∧ (split dir.bytes = before ∨ split dir.bytes = before ++ [[]])) := by
  have hright : split name.bytes = [name.bytes] := List.splitOn_eq_singleton h
  unfold join
  rw [isAbsolute_of_not_mem h, if_neg Bool.false_ne_true]
  split
  case isTrue hbare =>
    rcases Bool.or_eq_true_iff.mp hbare with hempty | hslash
    · have hdir : dir.bytes = [] := List.isEmpty_iff.mp hempty
      exact ⟨[], by simpa [hdir] using hright, Or.inl ⟨rfl, hdir⟩⟩
    · obtain ⟨front, hfront⟩ := List.getLast?_eq_some_iff.mp (beq_iff_eq.mp hslash)
      refine ⟨split front, ?_, Or.inr ⟨split_ne_nil front, Or.inr ?_⟩⟩
      · rw [hfront, List.append_assoc, List.singleton_append, split, List.splitOn_append_cons_self]
        exact congrArg (split front ++ ·) hright
      · rw [hfront, split, List.splitOn_append_cons_self]
        rfl
  case isFalse =>
    refine ⟨split dir.bytes, ?_, Or.inr ⟨split_ne_nil dir.bytes, Or.inl rfl⟩⟩
    rw [split, List.splitOn_append_cons_self]
    exact congrArg (split dir.bytes ++ ·) hright

theorem isSome_ofPiece? {piece : Bytes} (h : 2 < piece.length) (leading : Bool) :
    (Component.ofPiece? leading piece).isSome = true := by
  have hne : ∀ short : Bytes, short.length ≤ 2 → piece ≠ short := by
    rintro short hshort rfl
    omega
  rw [Component.ofPiece?, if_neg (hne [] (by decide)), if_neg (hne [dot] (by decide)),
    if_neg (hne [dot, dot] (by decide))]
  rfl

/-- The stems of a joined path are the path itself and then those of its left side, if the right
side is a name. -/
theorem allStems_join (dir : Path) (hname : slash ∉ name.bytes) (hlong : 2 < name.bytes.length) :
    (dir.join name).allStems = dir.join name :: dir.allStems := by
  have hrelative := isAbsolute_of_not_mem hname
  obtain ⟨before, hsplit, hbefore⟩ := exists_split_join dir hname
  have hwhole : joinPieces (before ++ [name.bytes]) = (dir.join name).bytes :=
    hsplit ▸ joinPieces_split _
  have hname' := isSome_ofPiece? hlong
  unfold allStems
  rw [hsplit, isAbsolute_join hrelative, List.reverse_append]
  rcases hbefore with ⟨rfl, hdir⟩ | ⟨hne, hdir⟩
  · have hbytes := hwhole.symm.trans (joinPieces_singleton name.bytes)
    have hself : dir.join name = ⟨name.bytes⟩ := congrArg Path.mk hbytes
    have hfirst : stems [name.bytes] = [⟨name.bytes⟩] := if_pos (hname' true)
    rw [hself, hdir]
    exact congrArg (· ++ _) hfirst
  · obtain ⟨piece, more, hcons⟩ := List.exists_cons_of_ne_nil (List.reverse_ne_nil_iff.mpr hne)
    have hstems : stems (split dir.bytes).reverse = stems before.reverse := by
      rcases hdir with hdir | hdir
      · rw [hdir]
      · rw [hdir, List.reverse_append, hcons]
        rfl
    have hfirst : stems (name.bytes :: before.reverse) =
        dir.join name :: stems before.reverse := by
      rw [hcons, stems, if_pos (hname' false), ← hcons, List.reverse_cons, List.reverse_reverse,
        hwhole]
      exact List.cons_ne_nil piece more
    rw [hstems]
    exact congrArg (· ++ _) hfirst

theorem parent?_join (dir : Path) (hname : slash ∉ name.bytes) (hlong : 2 < name.bytes.length) :
    (dir.join name).parent? =
      match dir.allStems with
      | [] => if dir.isAbsolute then none else some ⟨[]⟩
      | above :: _ => some above := by
  rw [parent?, allStems_join dir hname hlong, isAbsolute_join (isAbsolute_of_not_mem hname)]
  cases dir.allStems <;> rfl

end Path
end AssetPress
