import AssetPress.Build.Request
import AssetPress.Proofs.Tree.Linkless

/-!
# The names of the two artifacts

Both artifacts of a build are named after the version, which may hold slashes: then what stands
behind the first of them are further steps, the same for both artifacts (`exists_steps_output`).
In a tree without links the two paths lead to the same file exactly if these steps climb back over
the names in which they differ (`climbsOut`, `location_eq_iff`).  A version without a slash never
does (`climbsOut_of_not_mem`).
-/

namespace AssetPress

/-- Whether a version climbs, between its first slash and its last, over what stands before. -/
def climbsOut (version : String) : Bool :=
  Step.climbs 0 (Path.stepsOf ((Path.split (Utf8.encode version)).drop 1).dropLast)

theorem climbsOut_of_not_mem {version : String} (h : slash ∉ Utf8.encode version) :
    climbsOut version = false := by
  rw [climbsOut, Path.split, List.splitOn_eq_singleton h]
  rfl

example : climbsOut "/../x" = true := by decide

/-! ### Steps of names -/

theorem Step.climbs_append_singleton (depth : Nat) (steps : List Step) {s : Step} (hs : s ≠ .up) :
    climbs depth (steps ++ [s]) = climbs depth steps := by
  induction steps generalizing depth with
  | nil =>
      cases s with
      | up => exact absurd rfl hs
      | _ => simp [climbs]
  | cons s' rest ih =>
      cases s' with
      | up =>
          cases depth with
          | zero => simp [climbs]
          | succ depth => simpa [climbs] using ih depth
      | _ => simp [climbs, ih]

theorem Step.ofPiece_of_long {piece : Bytes} (h : 2 < piece.length) :
    (∃ n : Name, n.bytes = piece ∧ Step.ofPiece piece = .name n) ∨
      ∃ why, Step.ofPiece piece = .refused why := by
  have hdot : piece ≠ [dot] := by
    rintro rfl
    simp at h
  have hdots : piece ≠ [dot, dot] := by
    rintro rfl
    simp at h
  rw [ofPiece, if_neg hdot, if_neg hdots]
  cases hn : Name.ofBytes? piece with
  | none => exact Or.inr ⟨_, rfl⟩
  | some n => exact Or.inl ⟨n, Name.bytes_of_ofBytes? hn, rfl⟩

theorem Path.stepsOf_cons {piece : Bytes} (h : piece ≠ []) (rest : List Bytes) :
    stepsOf (piece :: rest) = Step.ofPiece piece :: stepsOf rest := by
  simp [stepsOf, h]

theorem isAbsolute_output {stem : String} (version : String) (hne : Utf8.encode stem ≠ [])
    (hslash : slash ∉ Utf8.encode stem) :
    (Path.ofString (stem ++ version ++ artifactEnding)).isAbsolute = false := by
  rw [Path.isAbsolute, Path.ofString, Utf8.encode_append, Utf8.encode_append]
  cases hs : Utf8.encode stem with
  | nil => exact absurd hs hne
  | cons b rest =>
      have hb : b ≠ slash := fun heq => hslash (by rw [hs, heq]; exact List.mem_cons_self)
      simpa using hb

/-- The steps of an artifact's name: only the first of them depends on the stem. -/
theorem exists_steps_output (version : String) : ∃ piece after,
    (∀ stem : String, Utf8.encode stem ≠ [] → slash ∉ Utf8.encode stem →
      (Path.ofString (stem ++ version ++ artifactEnding)).steps =
        Step.ofPiece (Utf8.encode stem ++ piece) :: after) ∧
    Step.climbs 0 after = climbsOut version := by
  obtain ⟨front, last, hversion⟩ : ∃ front last,
      (Utf8.encode version).splitOn slash = front ++ [last] :=
    ⟨_, _, (List.dropLast_concat_getLast (List.splitOn_ne_nil slash _)).symm⟩
  have hending : (Utf8.encode artifactEnding).splitOn slash = [Utf8.encode artifactEnding] :=
    List.splitOn_eq_singleton (by decide)
  have htail := splitOn_append hversion hending
  have hlong : 2 < (last ++ Utf8.encode artifactEnding).length := by
    have : (Utf8.encode artifactEnding).length = 7 := by decide
    rw [List.length_append]
    omega
  have hstem : ∀ stem : String, slash ∉ Utf8.encode stem →
      (Utf8.encode stem).splitOn slash = [] ++ [Utf8.encode stem] :=
    fun _ => List.splitOn_eq_singleton
  have hsteps : ∀ stem : String, (Path.ofString (stem ++ version ++ artifactEnding)).steps =
      Path.stepsOf ((Utf8.encode stem ++
        (Utf8.encode version ++ Utf8.encode artifactEnding)).splitOn slash) := by
    intro stem
    rw [Path.steps_eq, Path.ofString, Utf8.encode_append, Utf8.encode_append, List.append_assoc,
      Path.split]
  cases front with
  | nil =>
      -- Without a slash in the version the name is one piece.
      refine ⟨last ++ Utf8.encode artifactEnding, [], fun stem hne hslash => ?_, ?_⟩
      · rw [hsteps, splitOn_append (hstem stem hslash) htail]
        exact Path.stepsOf_singleton (by simp [hne])
      · rw [climbsOut, Path.split, hversion]
        rfl
  | cons v mid =>
      refine ⟨v, Path.stepsOf (mid ++ [last ++ Utf8.encode artifactEnding]),
        fun stem hne hslash => ?_, ?_⟩
      · rw [hsteps, splitOn_append (hstem stem hslash) htail]
        exact Path.stepsOf_cons (by simp [hne]) _
      · have hname : Step.ofPiece (last ++ Utf8.encode artifactEnding) ≠ .up := by
          rcases Step.ofPiece_of_long hlong with ⟨n, -, hn⟩ | ⟨why, hwhy⟩
          · rw [hn]
            simp
          · rw [hwhy]
            simp
        rw [climbsOut, Path.split, hversion, Path.stepsOf_append,
          Path.stepsOf_singleton (List.ne_nil_of_length_pos (by omega)),
          Step.climbs_append_singleton _ _ hname]
        simp

/-! ### Where artifacts lie -/

namespace Tree

variable {t : Tree} {base : Location}

/-- An artifact's file lies below the name that begins with its stem. -/
theorem location_of_output (ht : t.NoLinks) {dir : Path} {stem version : String}
    {piece : Bytes} {after : List Step} (hstem : 2 < (Utf8.encode stem).length)
    (hslash : slash ∉ Utf8.encode stem)
    (hsteps : (Path.ofString (stem ++ version ++ artifactEnding)).steps =
      Step.ofPiece (Utf8.encode stem ++ piece) :: after) {spot : Spot}
    (h : t.resolve base false (dir.join (.ofString (stem ++ version ++ artifactEnding))) =
      .ok spot) :
    ∃ x : Name, x.bytes = Utf8.encode stem ++ piece ∧
      spot.location = (((dir.start base).follow dir.steps) ++ [x]).follow after := by
  have hrelative := isAbsolute_output version (List.ne_nil_of_length_pos (by omega)) hslash
  obtain ⟨hlocation, hrefused, -⟩ := location_of_resolve ht h
  rw [Path.start_join hrelative, Path.steps_join hrelative, hsteps] at hlocation
  rw [Path.steps_join hrelative, hsteps] at hrefused
  have hlong : 2 < (Utf8.encode stem ++ piece).length := by
    rw [List.length_append]
    omega
  rcases Step.ofPiece_of_long hlong with ⟨x, hbytes, hx⟩ | ⟨why, hwhy⟩
  · refine ⟨x, hbytes, ?_⟩
    rw [hlocation, Location.follow_append, hx]
    rfl
  · rw [hwhy] at hrefused
    exact absurd (List.mem_append_right _ List.mem_cons_self) (hrefused why)

/-- In a tree without links the paths of the two artifacts lead to the same place exactly if the
version climbs. -/
theorem location_eq_iff (ht : t.NoLinks) {dir : Path} {version : String} {a b : Spot}
    (ha : t.resolve base false (dir.join (.ofString (scriptOutput version))) = .ok a)
    (hb : t.resolve base false (dir.join (.ofString (styleOutput version))) = .ok b) :
    a.location = b.location ↔ climbsOut version = true := by
  obtain ⟨piece, after, hsteps, hclimbs⟩ := exists_steps_output version
  obtain ⟨x, hx, hloca⟩ := location_of_output ht (by decide) (by decide)
    (hsteps scriptStem (by decide) (by decide)) ha
  obtain ⟨y, hy, hlocb⟩ := location_of_output ht (by decide) (by decide)
    (hsteps styleStem (by decide) (by decide)) hb
  have hxy : x ≠ y := by
    intro heq
    have hlength := congrArg (fun n : Name => n.bytes.length) heq
    have hscript : (Utf8.encode scriptStem).length = 5 := by decide
    have hstyle : (Utf8.encode styleStem).length = 9 := by decide
    simp only [hx, hy, List.length_append, hscript, hstyle] at hlength
    omega
  rw [hloca, hlocb, ← hclimbs]
  exact Location.follow_eq_iff hxy _ [] after

end Tree
end AssetPress
