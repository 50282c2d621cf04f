import AssetPress.Proofs.Tree.Following

/-!
# Directories and the ways to them

A walk that arrives can be taken in two parts, also where it follows links: its first steps lead to
a directory, and the others go on from there (`exists_walk_of_append`).  So making a directory that
is there is refused because it exists, however its path is spelled (`makeDir_of_isDir`).  Where
there are no links, two walks of which one begins where the other ends make one walk
(`walk_append`), and a directory that has been made is found by its path (`isDir_of_makeDir`).
-/

namespace AssetPress
namespace Tree

variable {t u : Tree} {creating creating' strict strict' : Bool} {links links' : Nat}

/-! ### Walks in two parts -/

theorem walkWith_append (ht : t.NoLinks)
    {follow follow' : Location → Path → List Step → Bool → Except OsError Spot} {d l : Location}
    {xs ys : List Step} (hys : creating' = false ∨ ys ≠ [])
    (h : t.walkWith creating follow strict d xs = .ok (.dir l)) :
    t.walkWith creating' follow' strict' d (xs ++ ys) =
      t.walkWith creating' follow' strict' l ys := by
  induction xs generalizing d with
  | nil =>
      cases h
      rfl
  | cons s rest ih =>
      cases s with
      | stay => exact ih h
      | up => exact ih h
      | refused why =>
          unfold walkWith at h
          split at h <;> cases h
      | name n =>
          -- No name of the first part is the last one of a walk that may create it.
          have hfree : (creating' && strict' && (rest ++ ys).isEmpty) = false := by
            rcases hys with hc | hys
            · simp [hc]
            · simp [hys]
          rw [List.cons_append, walkWith, hfree]
          unfold walkWith at h
          split at h
          case isTrue => cases h
          case isFalse =>
            cases hn : t.get? (d ++ [n]) with
            | none =>
                simp only [hn] at h
                split at h <;> cases h
            | some e =>
                cases e with
                | dir =>
                    simp only [hn] at h
                    exact ih h
                | file content =>
                    simp only [hn] at h
                    split at h <;> cases h
                | link target => exact absurd hn (ht _ _)

theorem walk_append (ht : t.NoLinks) {d l : Location} {xs ys : List Step}
    (hys : creating' = false ∨ ys ≠ []) (h : t.walk creating links strict d xs = .ok (.dir l)) :
    t.walk creating' links' strict' d (xs ++ ys) = t.walk creating' links' strict' l ys := by
  rw [walk_eq_of_noLinks ht] at h
  rw [walk_eq_of_noLinks ht, walk_eq_of_noLinks ht links' l ys]
  exact walkWith_append ht hys h

/-- `Reached` is what is known of the directory where the first steps end: by walking on from there,
or, if a link is met before, by following it. -/
theorem exists_walkWith_of_append
    {follow follow' : Location → Path → List Step → Bool → Except OsError Spot} {d : Location}
    {xs ys : List Step} (hys : ys ≠ []) {spot : Spot} {Reached : Location → Prop}
    (hreached : ∀ l, t.walkWith creating follow strict l ys = .ok spot → Reached l)
    (hfollow : ∀ d target rest, follow d target (rest ++ ys) strict = .ok spot →
      ∃ l, follow' d target rest strict' = .ok (.dir l) ∧ Reached l)
    (h : t.walkWith creating follow strict d (xs ++ ys) = .ok spot) :
    ∃ l, t.walkWith false follow' strict' d xs = .ok (.dir l) ∧ Reached l := by
  induction xs generalizing d with
  | nil => exact ⟨d, rfl, hreached d h⟩
  | cons s rest ih =>
      have hmore : (rest ++ ys).isEmpty = false := by simp [hys]
      cases s with
      | stay => exact ih h
      | up => exact ih h
      | refused why =>
          rw [List.cons_append, walkWith] at h
          split at h <;> cases h
      | name n =>
          rw [List.cons_append, walkWith, hmore] at h
          rw [walkWith]
          cases hn : t.get? (d ++ [n]) with
          | none => simp [hn] at h
          | some e =>
              cases e with
              | dir =>
                  simp only [hn, Bool.and_false] at h
                  exact ih h
              | file content => simp [hn] at h
              | link target =>
                  simp only [hn, Bool.and_false] at h
                  exact hfollow d target rest h

/-- The steps before the last ones of a walk lead to a directory, from which it goes on with the
links that may still be followed. -/
theorem exists_walk_of_append {d : Location} {xs ys : List Step} (hys : ys ≠ []) {spot : Spot}
    (h : t.walk creating links strict d (xs ++ ys) = .ok spot) :
    ∃ l, t.walk false links strict' d xs = .ok (.dir l) ∧
      ∃ more, t.walk creating more strict l ys = .ok spot := by
  induction links generalizing strict' d xs with
  | zero =>
      refine exists_walkWith_of_append hys (fun l hl => ⟨0, hl⟩) (fun _ _ _ hf => ?_) h
      cases hf
  | succ links ih =>
      refine exists_walkWith_of_append hys (fun l hl => ⟨links + 1, hl⟩)
        (fun d target rest hf => ?_) h
      -- Behind a link there are steps to go, so a slash at the end of its target does not count.
      have hmore : (rest ++ ys).isEmpty = false := by simp [hys]
      rw [hmore, Bool.false_and, Bool.or_false, ← List.append_assoc] at hf
      exact ih hf

theorem isSome_get?_of_walk {d : Location} {n : Name} {l : Location}
    (h : t.walk creating links strict d [.name n] = .ok (.dir l)) :
    (t.get? (d ++ [n])).isSome = true := by
  cases hn : t.get? (d ++ [n]) with
  | some e => rfl
  | none =>
      cases links <;>
      · rw [walk, walkWith, hn] at h
        split at h <;> cases h

theorem walk_refused (d : Location) (why : OsError) (rest : List Step) :
    t.walk false links strict d (.refused why :: rest) = .error why := by
  cases links <;> rfl

/-! ### Paths to directories -/

variable {base : Location} {p : Path}

theorem resolve_of_refused?_eq_none (hp : p.refused? = none) :
    t.resolve base creating p =
      t.walk creating maxLinks p.endsWithSlash (p.start base) p.steps := by
  rw [resolve, hp]

theorem refused?_of_resolve {spot : Spot} (h : t.resolve base creating p = .ok spot) :
    p.refused? = none := by
  cases hp : p.refused? with
  | none => rfl
  | some why =>
      rw [resolve, hp] at h
      cases h

theorem isDir_iff : t.isDir base p = true ↔ ∃ l, t.resolve base false p = .ok (.dir l) := by
  unfold isDir
  split
  case _ l hl => exact ⟨fun _ => ⟨l, hl⟩, fun _ => rfl⟩
  case _ hother => exact ⟨fun h => (by cases h), fun ⟨l, hl⟩ => absurd hl (hother l)⟩

theorem Keeps.isDir (hk : t.Keeps u) (h : t.isDir base p = true) : u.isDir base p = true := by
  obtain ⟨l, hl⟩ := isDir_iff.mp h
  exact isDir_iff.mpr ⟨l, resolve_of_keeps hk (fun hf => hf) hl (.dir l)⟩

theorem walkToDir_eq_ok_iff {d l : Location} {steps : List Step} :
    t.walkToDir d steps = .ok l ↔ t.walk false maxLinks true d steps = .ok (.dir l) := by
  unfold walkToDir
  split <;> simp [*]

theorem of_placeOf {d : Location} {n : Name} (h : t.placeOf base p = .ok (d, n)) :
    p.refused? = none ∧ t.walk false maxLinks true (p.start base) p.steps.dropLast = .ok (.dir d) ∧
      p.steps = p.steps.dropLast ++ [.name n] := by
  unfold placeOf at h
  cases hp : p.refused? with
  | some why =>
      rw [hp] at h
      cases h
  | none =>
      rw [hp] at h
      simp only at h
      cases hway : t.walkToDir (p.start base) p.steps.dropLast with
      | error why =>
          rw [hway] at h
          cases h
      | ok l =>
          rw [hway] at h
          simp only at h
          split at h
          case _ m hlast =>
            cases h
            refine ⟨rfl, walkToDir_eq_ok_iff.mp hway, ?_⟩
            obtain ⟨way, hsteps⟩ := List.getLast?_eq_some_iff.mp hlast
            rw [hsteps, List.dropLast_concat]
          case _ => cases h
          case _ => cases h

theorem makeDir_of_isDir (h : t.isDir base p = true) :
    t.makeDir base p = .error .alreadyExists := by
  obtain ⟨l, hl⟩ := isDir_iff.mp h
  have hp := refused?_of_resolve hl
  rw [resolve_of_refused?_eq_none hp] at hl
  rcases List.eq_nil_or_concat p.steps with hnil | ⟨way, last, hsteps⟩
  · have hway : t.walkToDir (p.start base) [] = .ok (p.start base) := walkToDir_eq_ok_iff.mpr rfl
    simp [makeDir, make, placeOf, hp, hnil, hway]
  · rw [List.concat_eq_append] at hsteps
    rw [hsteps] at hl
    obtain ⟨d, hd, more, hlast⟩ := exists_walk_of_append (List.cons_ne_nil last []) hl
    have hway : t.walkToDir (p.start base) way = .ok d := walkToDir_eq_ok_iff.mpr hd
    cases last with
    | stay => simp [makeDir, make, placeOf, hp, hsteps, hway]
    | up => simp [makeDir, make, placeOf, hp, hsteps, hway]
    | refused why =>
        rw [walk_refused] at hlast
        cases hlast
    | name n =>
        have hthere := isSome_get?_of_walk hlast
        simp [makeDir, make, placeOf, hp, hsteps, hway, hthere]

theorem isDir_of_makeDir (ht : t.NoLinks) (hb : t.get? base = some .dir)
    (h : t.makeDir base p = .ok u) : u.isDir base p = true := by
  have hadds := addsDirs_of_makeDir h
  unfold makeDir make at h
  cases hplace : t.placeOf base p with
  | error why =>
      rw [hplace] at h
      cases h
  | ok place =>
      obtain ⟨d, n⟩ := place
      rw [hplace] at h
      simp only at h
      split at h
      case isTrue => cases h
      case isFalse hfree =>
        cases h
        obtain ⟨hp, hway, hlast⟩ := of_placeOf hplace
        have hd : t.get? d = some .dir := holds_of_walk (get?_start hb p) hway
        have hthere : (t.insert d n .dir).get? (d ++ [n]) = some .dir :=
          get?_insert_self ⟨hd, Or.inl rfl⟩
        have hway' := walk_of_keeps hadds.keeps (fun hf => hf) hway (.dir d)
        refine isDir_iff.mpr ⟨d ++ [n], ?_⟩
        rw [resolve_of_refused?_eq_none hp, hlast,
          walk_append (hadds.noLinks ht) (Or.inl rfl) hway', walk_eq_of_noLinks (hadds.noLinks ht),
          walk, walkWith, hthere]
        rfl

end Tree
end AssetPress
