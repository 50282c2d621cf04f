import AssetPress.Proofs.Path.Steps

/-!
# The lineage of a path

What is made before a path is the text of the path cut behind each of its components, while a walk
takes its steps; and `.` is a step, but no component unless it comes first.  So the two are compared
(`Along`): each path of the lineage is walked along the steps of the one before it, up to the last
of them, but for steps that stay where they are (`along_allStems`).  Each of them is written at the
beginning of the path (`begins_of_mem_allStems`), so it can be used where the path can; and from the
nearest of them the path is reached by the steps that it lacks (`exists_steps_of_parent?`).
-/

namespace AssetPress

/-! ### Steps that stay -/

/-- All the steps stay where they are. -/
def Step.Idle (steps : List Step) : Prop := ∀ s ∈ steps, s = .stay

theorem Step.idle_nil : Idle [] := fun _ hs => by cases hs

theorem Step.Idle.append {xs ys : List Step} (hx : Idle xs) (hy : Idle ys) : Idle (xs ++ ys) :=
  fun s hs => (List.mem_append.mp hs).elim (hx s) (hy s)

theorem Step.ofPiece_eq_stay_iff {piece : Bytes} : ofPiece piece = .stay ↔ piece = [dot] := by
  unfold ofPiece
  split
  case isTrue h => exact ⟨fun _ => h, fun _ => rfl⟩
  case isFalse h =>
    refine ⟨fun heq => ?_, fun heq => absurd heq h⟩
    split at heq
    · cases heq
    · split at heq <;> cases heq

theorem Step.ofPiece_ne_refused {piece : Bytes} (hne : piece ≠ []) (hslash : slash ∉ piece)
    (hzero : 0 ∉ piece) (hlength : piece.length ≤ Name.maxLength) (why : OsError) :
    ofPiece piece ≠ .refused why := by
  unfold ofPiece
  split
  case isTrue => exact Step.noConfusion
  case isFalse hstay =>
    split
    case isTrue => exact Step.noConfusion
    case isFalse hup =>
      have hname : Name.ofBytes? piece = some ⟨piece, hne, hstay, hup, hslash, hzero, hlength⟩ :=
        dif_pos _
      rw [hname]
      exact Step.noConfusion

namespace Path

theorem isSome_ofPiece?_true {piece : Bytes} :
    (Component.ofPiece? true piece).isSome = true ↔ piece ≠ [] := by
  unfold Component.ofPiece?
  split
  case isTrue h => simp [h]
  case isFalse h =>
    refine ⟨fun _ => h, fun _ => ?_⟩
    split
    · rfl
    · split <;> rfl

theorem isSome_ofPiece?_false {piece : Bytes} :
    (Component.ofPiece? false piece).isSome = true ↔ piece ≠ [] ∧ piece ≠ [dot] := by
  unfold Component.ofPiece?
  split
  case isTrue h => simp [h]
  case isFalse h =>
    split
    case isTrue hdot => simp [hdot]
    case isFalse hdot =>
      refine ⟨fun _ => ⟨h, hdot⟩, fun _ => ?_⟩
      split <;> rfl

/-! ### Usable paths -/

/-- No tree refuses the path: something is written, without a zero byte, and neither the whole nor a
piece is too long. -/
structure Usable (p : Path) : Prop where
  ne_nil : p.bytes ≠ []
  noZero : 0 ∉ p.bytes
  length_lt : p.bytes.length < maxLength
  length_le : ∀ piece ∈ split p.bytes, piece.length ≤ Name.maxLength

instance (p : Path) : Decidable p.Usable :=
  decidable_of_iff (p.bytes ≠ [] ∧ 0 ∉ p.bytes ∧ p.bytes.length < maxLength ∧
      ∀ piece ∈ split p.bytes, piece.length ≤ Name.maxLength)
    ⟨fun ⟨hne, hzero, hlt, hle⟩ => ⟨hne, hzero, hlt, hle⟩,
      fun h => ⟨h.ne_nil, h.noZero, h.length_lt, h.length_le⟩⟩

variable {p q : Path}

theorem Usable.refused?_eq_none (h : p.Usable) : p.refused? = none := by
  rw [refused?, if_neg h.noZero, if_neg (Nat.not_le_of_lt h.length_lt), if_neg h.ne_nil]

theorem Usable.refused_not_mem (h : p.Usable) (why : OsError) : .refused why ∉ p.steps := by
  intro hmem
  obtain ⟨piece, hpiece, heq⟩ := List.mem_map.mp hmem
  obtain ⟨hsplit, hne⟩ := List.mem_filter.mp hpiece
  have hzero : 0 ∉ piece := fun hz =>
    h.noZero (joinPieces_split p.bytes ▸ mem_intercalate_of_mem hsplit hz)
  exact Step.ofPiece_ne_refused (by simpa using hne) (not_mem_of_mem_splitOn hsplit) hzero
    (h.length_le piece hsplit) why heq

/-! ### Along the steps -/

/-- The paths lead along the steps: the first one takes them all but for some that stay, the next
one those of the first up to its last step, and so on.  Where no path is left all steps stay. -/
def Along : List Step → List Path → Prop
  | steps, [] => Step.Idle steps
  | steps, q :: above =>
      (∃ idle, Step.Idle idle ∧ steps = q.steps ++ idle) ∧
        (q.steps.getLast? = some .stay → q.steps = [.stay]) ∧ Along q.steps.dropLast above

theorem Along.append {steps idle : List Step} {ps : List Path} (h : Along steps ps)
    (hidle : Step.Idle idle) : Along (steps ++ idle) ps := by
  cases ps with
  | nil => exact Step.Idle.append h hidle
  | cons q above =>
      obtain ⟨⟨first, hfirst, hsteps⟩, hlast, habove⟩ := h
      refine ⟨⟨first ++ idle, hfirst.append hidle, ?_⟩, hlast, habove⟩
      rw [hsteps, List.append_assoc]

theorem steps_joinPieces {pieces : List Bytes} (hne : pieces ≠ [])
    (hslash : ∀ piece ∈ pieces, slash ∉ piece) :
    (⟨joinPieces pieces⟩ : Path).steps = stepsOf pieces := by
  rw [steps_eq, split, joinPieces, List.splitOn_intercalate _ hslash hne]

theorem along_stems {pieces : List Bytes} (hslash : ∀ piece ∈ pieces, slash ∉ piece) :
    Along (stepsOf pieces.reverse) (stems pieces) := by
  induction pieces with
  | nil => exact Step.idle_nil
  | cons piece before ih =>
      have hsteps : (⟨joinPieces (piece :: before).reverse⟩ : Path).steps = _ :=
        steps_joinPieces (by simp) fun other hother => hslash other (List.mem_reverse.mp hother)
      rw [List.reverse_cons, stepsOf_append] at hsteps ⊢
      have hbefore := ih fun other hother => hslash other (List.mem_cons_of_mem piece hother)
      cases before with
      | nil =>
          -- The first piece counts unless nothing is written.
          rw [stems]
          split
          case isTrue hcounts =>
            rw [List.reverse_nil, List.nil_append, joinPieces_singleton,
              stepsOf_singleton (isSome_ofPiece?_true.mp hcounts)] at hsteps
            have hself : (⟨piece⟩ : Path).steps = [Step.ofPiece piece] := hsteps
            rw [stepsOf_singleton (isSome_ofPiece?_true.mp hcounts)]
            refine ⟨⟨[], Step.idle_nil, by rw [hself]; rfl⟩, fun hstay => ?_, ?_⟩
            · rw [hself] at hstay ⊢
              exact congrArg (fun s => [s]) (Option.some.inj hstay)
            · rw [hself]
              exact Step.idle_nil
          case isFalse hempty =>
            have hnil : piece = [] := Decidable.byContradiction fun hne =>
              hempty (isSome_ofPiece?_true.mpr hne)
            subst hnil
            exact Step.idle_nil
      | cons other more =>
          rw [stems]
          · split
            case isTrue hcounts =>
              obtain ⟨hne, hdot⟩ := isSome_ofPiece?_false.mp hcounts
              rw [stepsOf_singleton hne] at hsteps ⊢
              rw [List.reverse_cons (a := piece)]
              refine ⟨⟨[], Step.idle_nil, ?_⟩, fun hstay => ?_, ?_⟩
              · rw [hsteps, List.append_nil]
              · rw [hsteps, List.getLast?_concat] at hstay
                exact absurd (Step.ofPiece_eq_stay_iff.mp (Option.some.inj hstay)) hdot
              · rw [hsteps, List.dropLast_concat]
                exact hbefore
            case isFalse hempty =>
              refine hbefore.append fun s hs => ?_
              by_cases hnil : piece = []
              · subst hnil
                cases hs
              · have hdot : piece = [dot] := Decidable.byContradiction fun hdot =>
                  hempty (isSome_ofPiece?_false.mpr ⟨hnil, hdot⟩)
                subst hdot
                exact List.mem_singleton.mp hs
          · simp

theorem Along.concat_root {steps : List Step} {ps : List Path} (h : Along steps ps) :
    Along steps (ps ++ [⟨[slash]⟩]) := by
  induction ps generalizing steps with
  | nil => exact ⟨⟨steps, h, rfl⟩, fun hstay => (by cases hstay), Step.idle_nil⟩
  | cons q above ih => exact ⟨h.1, h.2.1, ih h.2.2⟩

/-- The stems of a path lead along its steps. -/
theorem along_allStems (p : Path) : Along p.steps p.allStems := by
  have hstems : Along p.steps (stems (split p.bytes).reverse) := by
    have hslash : ∀ piece ∈ (split p.bytes).reverse, slash ∉ piece := fun piece hpiece =>
      not_mem_of_mem_splitOn (List.mem_reverse.mp hpiece)
    have halong := along_stems hslash
    rw [List.reverse_reverse] at halong
    exact halong
  unfold allStems
  split
  · exact hstems.concat_root
  · rw [List.append_nil]
    exact hstems

/-! ### The stems of a path -/

/-- `q` is written at the beginning of `p` and ends where one of the pieces of `p` does. -/
structure Begins (q p : Path) : Prop where
  ne_nil : q.bytes ≠ []
  isPrefix : q.bytes <+: p.bytes
  split_subset : split q.bytes ⊆ split p.bytes

theorem Begins.isAbsolute_eq (h : q.Begins p) : q.isAbsolute = p.isAbsolute := by
  obtain ⟨b, rest, hcons⟩ := List.exists_cons_of_ne_nil h.ne_nil
  obtain ⟨more, hmore⟩ := h.isPrefix
  rw [isAbsolute, isAbsolute, ← hmore, hcons]
  rfl

theorem Begins.start_eq (h : q.Begins p) (base : Location) : q.start base = p.start base := by
  rw [start, start, h.isAbsolute_eq]

theorem Begins.refused?_eq_none (h : q.Begins p) (hp : p.refused? = none) : q.refused? = none :=
  refused?_of_isPrefix h.isPrefix h.ne_nil hp

theorem Begins.usable (h : q.Begins p) (hp : p.Usable) : q.Usable where
  ne_nil := h.ne_nil
  noZero hzero := hp.noZero (h.isPrefix.subset hzero)
  length_lt := Nat.lt_of_le_of_lt h.isPrefix.length_le hp.length_lt
  length_le piece hpiece := hp.length_le piece (h.split_subset hpiece)

theorem begins_of_pieces {front after : List Bytes} {piece : Bytes}
    (hsplit : split p.bytes = (front ++ [piece]) ++ after) (hne : piece ≠ []) :
    (⟨joinPieces (front ++ [piece])⟩ : Path).Begins p where
  ne_nil := by
    obtain ⟨b, rest, hcons⟩ := List.exists_cons_of_ne_nil hne
    have hb : b ∈ joinPieces (front ++ [piece]) :=
      mem_intercalate_of_mem (x := piece) (by simp) (by simp [hcons])
    exact List.ne_nil_of_mem hb
  isPrefix := by
    rw [← joinPieces_split p.bytes, hsplit]
    exact intercalate_prefix (by simp) after
  split_subset := by
    have hslash : ∀ x ∈ front ++ [piece], slash ∉ x := fun x hx =>
      not_mem_of_mem_splitOn (show x ∈ split p.bytes from hsplit ▸ List.mem_append_left after hx)
    rw [hsplit, split, joinPieces, List.splitOn_intercalate _ hslash (by simp)]
    exact List.subset_append_left _ after

theorem begins_root (h : p.isAbsolute = true) : (⟨[slash]⟩ : Path).Begins p := by
  obtain ⟨rest, hrest⟩ := List.head?_eq_some_iff.mp (beq_iff_eq.mp h)
  have hsplit : split p.bytes = [] :: split rest := by
    have hempty : slash ∉ ([] : Bytes) := List.not_mem_nil
    rw [hrest, split, split]
    exact List.splitOn_append_cons_self_of_not_mem hempty rest
  have hroot : split [slash] = [[], []] := rfl
  refine ⟨List.cons_ne_nil slash [], ⟨rest, hrest.symm⟩, fun piece hpiece => ?_⟩
  rw [hroot] at hpiece
  have hnil : piece = [] := by simpa using hpiece
  rw [hsplit, hnil]
  exact List.mem_cons_self

theorem of_mem_stems {pieces : List Bytes} (h : q ∈ stems pieces) :
    ∃ piece before, piece ≠ [] ∧ piece :: before <:+ pieces ∧
      q = ⟨joinPieces (piece :: before).reverse⟩ := by
  induction pieces with
  | nil => cases h
  | cons piece before ih =>
      cases before with
      | nil =>
          rw [stems] at h
          split at h
          case isTrue hcounts =>
            refine ⟨piece, [], isSome_ofPiece?_true.mp hcounts, List.suffix_rfl, ?_⟩
            rw [List.reverse_singleton, joinPieces_singleton]
            exact List.mem_singleton.mp h
          case isFalse => cases h
      | cons other more =>
          have hlater (hq : q ∈ stems (other :: more)) : ∃ last front, last ≠ [] ∧
              last :: front <:+ piece :: other :: more ∧
                q = ⟨joinPieces (last :: front).reverse⟩ := by
            obtain ⟨last, front, hne, hsuffix, heq⟩ := ih hq
            exact ⟨last, front, hne, hsuffix.trans (List.suffix_cons _ _), heq⟩
          rw [stems] at h
          · split at h
            case isTrue hcounts =>
              rcases List.mem_cons.mp h with rfl | hq
              · exact ⟨piece, other :: more, (isSome_ofPiece?_false.mp hcounts).1,
                  List.suffix_rfl, rfl⟩
              · exact hlater hq
            case isFalse => exact hlater h
          · simp

theorem begins_of_mem_allStems (hq : q ∈ p.allStems) : q.Begins p := by
  rcases List.mem_append.mp hq with hstem | hroot
  · obtain ⟨piece, before, hne, ⟨after, hafter⟩, rfl⟩ := of_mem_stems hstem
    have hsplit : split p.bytes = (before.reverse ++ [piece]) ++ after.reverse := by
      rw [← List.reverse_reverse (split p.bytes), ← hafter]
      simp
    rw [List.reverse_cons]
    exact begins_of_pieces hsplit hne
  · split at hroot
    case isTrue habsolute =>
      rw [List.mem_singleton.mp hroot]
      exact begins_root habsolute
    case isFalse => cases hroot

/-! ### What stands above a path -/

/-- The parent of a path begins the path, and some steps lead from it to the path itself; none do
only where the parent has no steps either. -/
theorem exists_steps_of_parent? {above : Path} (h : p.parent? = some above)
    (hne : above.isEmpty = false) :
    above.Begins p ∧ ∃ ys, p.steps = above.steps ++ ys ∧ (ys = [] → above.steps = []) := by
  have halong := p.along_allStems
  unfold parent? at h
  split at h
  case _ => cases h
  case _ =>
    -- Above a single component nothing is written.
    split at h
    · cases h
    · cases h
      cases hne
  case _ q above' more hstems =>
    cases h
    rw [hstems] at halong
    obtain ⟨⟨idle, -, hsteps⟩, -, ⟨between, -, habove⟩, -⟩ := halong
    refine ⟨begins_of_mem_allStems (hstems ▸ List.mem_cons_of_mem q List.mem_cons_self), ?_⟩
    rcases List.eq_nil_or_concat q.steps with hnil | ⟨way, last, hway⟩
    · rw [hnil] at habove
      have hbare := (List.append_eq_nil_iff.mp habove.symm).1
      exact ⟨p.steps, by rw [hbare, List.nil_append], fun _ => hbare⟩
    · rw [hway, List.concat_eq_append] at hsteps habove
      rw [List.dropLast_concat] at habove
      refine ⟨between ++ last :: idle, ?_, fun hys => ?_⟩
      · rw [hsteps, habove]
        simp
      · simp at hys

end Path
end AssetPress
