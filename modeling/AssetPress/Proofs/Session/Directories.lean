import AssetPress.Proofs.Session.Again
import AssetPress.Proofs.Tree.Making

/-!
# Directories with all that is above them

Where nothing but directories stands in the way of a usable path, they are made along it, one for
each of its components, and nothing else is done to the tree (`perform_makeDirs_of_along`).  The
components are not all of the steps: a `.` at the end is none.  So the directory before it is not
made, and if it is not there either the path cannot be reached; that is the only way to fail
(`perform_ensureDir_of_passable`).
-/

namespace AssetPress
namespace Session

variable {base : Location} {p : Path} {s : Session}

/-! ### One directory -/

section one
variable (ht : s.tree.NoLinks) (hb : s.tree.get? base = some .dir) (hp : p.Usable)
  (hpass : s.tree.Passable (p.start base) p.steps)
include ht hb hp hpass

theorem exists_made_of_paved {f : OsError → ExceptT OsError (StateM Session) Unit}
    (hf : perform s (f .alreadyExists) = perform s ((disk base).unlessDir p .alreadyExists))
    (hway : s.tree.Paved (p.start base) p.steps.dropLast) :
    ∃ u, perform s (tryCatch ((disk base).makeDir p) f) = (.ok (), { s with tree := u }) ∧
      s.tree.Makes u (p.start base) p.steps := by
  rw [perform_tryCatch, perform_makeDir]
  rcases Tree.makeDir_cases ht hb hp hpass with
    ⟨hpaved, hmake⟩ | ⟨u, -, hmake, hmakes⟩ | ⟨hbroken, -⟩
  · have hdir := (Tree.isDir_iff_paved ht hb hp hpass).mpr hpaved
    rw [hmake]
    simp only
    rw [hf, perform_unlessDir, if_pos hdir]
    exact ⟨s.tree, rfl, Tree.makes_of_paved hpaved⟩
  · rw [hmake]
    exact ⟨u, rfl, hmakes⟩
  · exact absurd hway hbroken

theorem perform_makeDir_of_broken (hway : ¬ s.tree.Paved (p.start base) p.steps.dropLast) :
    perform s ((disk base).makeDir p) = (.error .notFound, s) := by
  rw [perform_makeDir]
  rcases Tree.makeDir_cases ht hb hp hpass with ⟨hpaved, -⟩ | ⟨u, hpaved, -⟩ | ⟨-, hmake⟩
  · exact absurd (hpaved.of_isPrefix (List.dropLast_prefix _)) hway
  · exact absurd hpaved hway
  · rw [hmake]

/-! ### With all that is above it -/

/-- What happens to a directory once those above it have been made: it is made if the way to it is
paved then, and otherwise its place is not found. -/
theorem perform_makeDirs_cons {above : List Path} {way : List Step} {u : Tree}
    (hway : way <+: p.steps.dropLast)
    (habove : perform s ((disk base).makeDirs above) = (.ok (), { s with tree := u }))
    (hmakes : s.tree.Makes u (p.start base) way) :
    (u.Paved (p.start base) p.steps.dropLast → ∃ v,
      perform s ((disk base).makeDirs (p :: above)) = (.ok (), { s with tree := v }) ∧
        s.tree.Makes v (p.start base) p.steps) ∧
    (¬ u.Paved (p.start base) p.steps.dropLast →
      perform s ((disk base).makeDirs (p :: above)) =
        (.error .notFound, { s with tree := u })) := by
  have hsteps : p.steps.dropLast <+: p.steps := List.dropLast_prefix _
  have hadds := hmakes.addsDirs (hpass.of_isPrefix (hway.trans hsteps))
  have hu : u.NoLinks := hadds.noLinks ht
  have hbu : u.get? base = some .dir := hadds.keeps.get?_dir hb
  have hpassu : u.Passable (p.start base) p.steps := hadds.passable hpass
  by_cases hbegun : s.tree.Paved (p.start base) p.steps.dropLast
  · refine ⟨fun _ => ?_, fun hbroken => absurd (hadds.paved hbegun) hbroken⟩
    unfold Disk.makeDirs
    exact exists_made_of_paved ht hb hp hpass rfl hbegun
  · -- The first attempt fails, and the second one is made in the tree `u`.
    have hagain : perform s ((disk base).makeDirs (p :: above)) =
        perform { s with tree := u }
          (tryCatch ((disk base).makeDir p) ((disk base).unlessDir p)) := by
      rw [Disk.makeDirs, perform_tryCatch, perform_makeDir_of_broken ht hb hp hpass hbegun]
      simp only [if_true]
      rw [perform_bind, habove]
    rw [hagain]
    refine ⟨fun hpaved => ?_, fun hbroken => ?_⟩
    · obtain ⟨v, hv, hmakesv⟩ := exists_made_of_paved (s := { s with tree := u }) hu hbu hp hpassu
        (f := (disk base).unlessDir p) rfl hpaved
      exact ⟨v, hv, hmakes.trans hmakesv (hway.trans hsteps)⟩
    · have hdir : u.isDir base p = false := Bool.eq_false_iff.mpr fun hdir =>
        hbroken (((Tree.isDir_iff_paved hu hbu hp hpassu).mp hdir).of_isPrefix hsteps)
      rw [perform_tryCatch,
        perform_makeDir_of_broken (s := { s with tree := u }) hu hbu hp hpassu hbroken]
      simp only
      rw [perform_unlessDir, if_neg (by rw [hdir]; exact Bool.false_ne_true)]

end one

/-- Paths that lead along passable steps are made, and so is the way along the steps. -/
theorem perform_makeDirs_of_along (ht : s.tree.NoLinks) (hb : s.tree.get? base = some .dir)
    {ps : List Path} {steps : List Step} {d : Location} (hd : s.tree.get? d = some .dir)
    (hps : ∀ q ∈ ps, q.Usable ∧ q.start base = d) (halong : Path.Along steps ps)
    (hpass : s.tree.Passable d steps) :
    ∃ u, perform s ((disk base).makeDirs ps) = (.ok (), { s with tree := u }) ∧
      s.tree.Makes u d steps := by
  induction ps generalizing steps with
  | nil =>
      have hpaved : s.tree.Paved d ([] ++ steps) := (Tree.paved_nil hd).append halong
      exact ⟨s.tree, rfl, Tree.makes_of_paved hpaved⟩
  | cons q above ih =>
      obtain ⟨⟨idle, hidle, rfl⟩, -, habove⟩ := halong
      obtain ⟨hq, rfl⟩ := hps q List.mem_cons_self
      have hpassq : s.tree.Passable (q.start base) q.steps :=
        hpass.of_isPrefix (List.prefix_append _ idle)
      obtain ⟨u, hu, hmakes⟩ := ih (fun r hr => hps r (List.mem_cons_of_mem q hr)) habove
        (hpassq.of_isPrefix (List.dropLast_prefix _))
      obtain ⟨v, hv, hmakesv⟩ :=
        (perform_makeDirs_cons ht hb hq hpassq List.prefix_rfl hu hmakes).1 hmakes.paved
      exact ⟨v, hv, hmakesv.append hidle⟩

/-! ### The directory of a path -/

theorem dropLast_prefix_append {α : Type} (xs ys : List α) :
    xs.dropLast <+: (xs ++ ys).dropLast := by
  by_cases hys : ys = []
  · have hsame : xs ++ ys = xs := by rw [hys, List.append_nil]
    exact hsame.symm ▸ List.prefix_rfl
  · rw [List.dropLast_append_of_ne_nil hys]
    exact (List.dropLast_prefix xs).trans (List.prefix_append xs _)

/-- What is above a usable path can be made; then the path itself can, unless it is stranded. -/
theorem perform_lineage (ht : s.tree.NoLinks) (hb : s.tree.get? base = some .dir) (hp : p.Usable)
    (hpass : s.tree.Passable (p.start base) p.steps) :
    (¬ s.tree.Stranded (p.start base) p.steps → ∃ u,
      perform s ((disk base).makeDirs p.lineage) = (.ok (), { s with tree := u }) ∧
        s.tree.Makes u (p.start base) p.steps) ∧
    (s.tree.Stranded (p.start base) p.steps → ∃ u way, way <+: p.steps ∧
      perform s ((disk base).makeDirs p.lineage) = (.error .notFound, { s with tree := u }) ∧
        s.tree.Makes u (p.start base) way) := by
  have hd := Tree.get?_start hb p
  have halong := p.along_allStems
  unfold Path.lineage
  cases hstems : p.allStems with
  | nil =>
      rw [hstems] at halong
      have hpaved : s.tree.Paved (p.start base) ([] ++ p.steps) :=
        (Tree.paved_nil hd).append halong
      refine ⟨fun _ => ⟨s.tree, rfl, Tree.makes_of_paved hpaved⟩, fun hstranded => ?_⟩
      obtain ⟨way, n, idle, hsteps, -⟩ := hstranded
      have hname := halong (.name n) (by rw [hsteps]; simp)
      cases hname
  | cons q above =>
      rw [hstems] at halong
      obtain ⟨⟨idle, hidle, hsteps⟩, hlast, habove⟩ := halong
      have hstem : ∀ r ∈ p.allStems, r.Usable ∧ r.start base = p.start base := fun r hr =>
        ⟨(Path.begins_of_mem_allStems hr).usable hp, (Path.begins_of_mem_allStems hr).start_eq base⟩
      have hfirst : q.steps <+: p.steps := hsteps ▸ List.prefix_append _ idle
      have hq : q.Usable := (hstem q (hstems ▸ List.mem_cons_self)).1
      obtain ⟨u, hu, hmakes⟩ := perform_makeDirs_of_along ht hb hd
        (fun r hr => hstem r (hstems ▸ List.mem_cons_of_mem q hr)) habove
        (hpass.of_isPrefix ((List.dropLast_prefix _).trans hfirst))
      have hway : q.steps.dropLast <+: p.steps.dropLast :=
        hsteps ▸ dropLast_prefix_append q.steps idle
      obtain ⟨hmade, hfails⟩ := perform_makeDirs_cons ht hb hp hpass hway hu hmakes
      rw [hsteps] at hpass
      refine ⟨fun hnot => hmade ?_, fun hstranded => ?_⟩
      · refine Classical.byContradiction fun hbroken => hnot ?_
        rw [hsteps] at hbroken ⊢
        exact hmakes.stranded_of_broken hpass hq.refused_not_mem hidle hbroken
      · rw [hsteps] at hstranded
        have hbroken := hmakes.broken_of_stranded hlast hstranded
        rw [← hsteps] at hbroken
        exact ⟨u, q.steps.dropLast, (List.dropLast_prefix _).trans hfirst, hfails hbroken, hmakes⟩

/-- Making the directory of a usable path on which nothing but directories stands in the way.
Unless the path is stranded this succeeds: the path leads to a directory then, whatever is on the
way to it is a directory, everything else is as it was, and doing it again changes nothing.  If
the path is stranded, as it can be only if it ends in a dot, what is above has been made and the
failure is that the path is not found. -/
theorem perform_ensureDir_of_passable (ht : s.tree.NoLinks) (hb : s.tree.get? base = some .dir)
    (hp : p.Usable) (hpass : s.tree.Passable (p.start base) p.steps) :
    ∃ result u, perform s ((disk base).ensureDir p) = (result, { s with tree := u }) ∧
      s.tree.AddsDirs u ∧
      (¬ s.tree.Stranded (p.start base) p.steps → result = .ok () ∧ u.isDir base p = true ∧
        s.tree.Makes u (p.start base) p.steps ∧
        ∀ z : Session, z.tree = u → perform z ((disk base).ensureDir p) = (.ok (), z)) ∧
      (s.tree.Stranded (p.start base) p.steps →
        result = .error ⟨.makeDir, p, OsError.notFound.message⟩ ∧
          ∃ way, way <+: p.steps ∧ s.tree.Makes u (p.start base) way) ∧
      (p.steps.getLast? ≠ some .stay → ¬ s.tree.Stranded (p.start base) p.steps) := by
  obtain ⟨hmade, hfails⟩ := perform_lineage ht hb hp hpass
  by_cases hstranded : s.tree.Stranded (p.start base) p.steps
  · obtain ⟨u, way, hway, hperform, hmakes⟩ := hfails hstranded
    refine ⟨_, u, ?_, hmakes.addsDirs (hpass.of_isPrefix hway), fun hnot => absurd hstranded hnot,
      fun _ => ⟨rfl, way, hway, hmakes⟩, Tree.not_stranded_of_getLast?_ne⟩
    rw [Disk.ensureDir, perform_adapt, hperform]
    rfl
  · obtain ⟨u, hperform, hmakes⟩ := hmade hstranded
    have hadds := hmakes.addsDirs hpass
    have hensure : perform s ((disk base).ensureDir p) = (.ok (), { s with tree := u }) := by
      rw [Disk.ensureDir, perform_adapt, hperform]
      rfl
    have hdir : u.isDir base p = true :=
      (Tree.isDir_iff_paved (hadds.noLinks ht) (hadds.keeps.get?_dir hb) hp
        (hadds.passable hpass)).mpr hmakes.paved
    refine ⟨_, u, hensure, hadds, fun _ => ⟨rfl, hdir, hmakes, fun z hz => ?_⟩,
      fun h => absurd h hstranded, Tree.not_stranded_of_getLast?_ne⟩
    refine perform_ensureDir_again ht hb hensure ?_
    rw [hz]
    exact ⟨Tree.Keeps.refl u, hadds.noLinks ht⟩

/-- A path with a name that is left again, two slashes in a row and one at its end. -/
theorem perform_ensureDir_of_passable_spelled :
    let p := Path.ofString "new/../sub//dir/"
    let t := Tree.ofFiles [("a.js", "1")]
    t.NoLinks ∧ p.Usable ∧ t.Passable (p.start []) p.steps ∧ p.steps.getLast? ≠ some .stay ∧
      ∃ u, perform (.ofTree t) ((disk []).ensureDir p) = (.ok (), .ofTree u) ∧
        u.isDir [] p = true ∧ t.Makes u (p.start []) p.steps := by
  intro p t
  have ht : t.NoLinks := Tree.noLinks_ofFiles _
  have hp : p.Usable := by decide
  have hpass : t.Passable (p.start []) p.steps := by decide +kernel
  have hlast : p.steps.getLast? ≠ some .stay := by decide
  obtain ⟨result, u, hperform, -, hmade, -, hnot⟩ :=
    perform_ensureDir_of_passable (s := .ofTree t) ht t.get?_root hp hpass
  obtain ⟨rfl, hdir, hmakes, -⟩ := hmade (hnot hlast)
  exact ⟨ht, hp, hpass, hlast, u, hperform, hdir, hmakes⟩

/-- In an empty tree nothing stands in the way of `x/.`, and yet its directory is not made. -/
theorem perform_ensureDir_dot :
    let p := Path.ofString "x/."
    let t := Tree.empty
    t.NoLinks ∧ p.Usable ∧ t.Passable (p.start []) p.steps ∧
      perform (.ofTree t) ((disk []).ensureDir p) =
        (.error ⟨.makeDir, p, "No such file or directory (os error 2)"⟩, .ofTree t) := by
  intro p t
  have ht : t.NoLinks := Tree.noLinks_ofFiles []
  have hresult : (perform (.ofTree t) ((disk []).ensureDir p)).1 =
      .error ⟨.makeDir, p, "No such file or directory (os error 2)"⟩ := by decide +kernel
  have htree : (perform (.ofTree t) ((disk []).ensureDir p)).2 = .ofTree t := by rfl
  exact ⟨ht, by decide, by decide, Prod.ext hresult htree⟩

end Session
end AssetPress
