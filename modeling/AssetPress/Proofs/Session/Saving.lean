import AssetPress.Proofs.Path.Lineage
import AssetPress.Proofs.Session.Again
import AssetPress.Proofs.Tree.Linkless

/-!
# Saving a file

A file is saved by making the directory above its path and then writing where the path leads: along
links, and also to a place where nothing stands yet.  What stands above a path that can be followed
is a directory (`isDir_of_parent?`), so saving by such a path is no more than writing
(`perform_save_of_resolve`).  The path of a saved file can be followed; that is why saving it again
changes nothing.  Main statement: saving leaves the file where the path leads and otherwise adds
nothing but directories, and where it fails it has added nothing else either (`saved_of_save`).
-/

namespace AssetPress

/-! ### What stands above a path -/

theorem Tree.isDir_of_parent? {t : Tree} {base : Location} {creating : Bool} {p above : Path}
    {spot : Spot} (h : t.resolve base creating p = .ok spot) (habove : p.parent? = some above)
    (hne : above.isEmpty = false) : t.isDir base above = true := by
  have hp := refused?_of_resolve h
  obtain ⟨hbegins, ys, hsteps, hnil⟩ := Path.exists_steps_of_parent? habove hne
  rw [resolve_of_refused?_eq_none hp, hsteps] at h
  rw [isDir_iff, resolve_of_refused?_eq_none (hbegins.refused?_eq_none hp), hbegins.start_eq]
  by_cases hys : ys = []
  · rw [hnil hys]
    exact ⟨p.start base, rfl⟩
  · obtain ⟨l, hl, -⟩ := exists_walk_of_append hys h
    exact ⟨l, hl⟩

namespace Session

variable {base : Location} {s s' : Session} {p : Path} {content : Bytes}

theorem perform_ensureParent_of_resolve {creating : Bool} {spot : Tree.Spot}
    (h : s.tree.resolve base creating p = .ok spot) :
    perform s (ensureParent base p) = (.ok (), s) := by
  unfold ensureParent
  cases hp : p.parent? with
  | none => rfl
  | some above =>
      simp only
      cases hempty : above.isEmpty with
      | true => rfl
      | false => exact perform_ensureDir_of_isDir (Tree.isDir_of_parent? h hp hempty)

/-! ### Saving by a path that can be followed -/

theorem perform_save_of_resolve {spot : Tree.Spot} (h : s.tree.resolve base true p = .ok spot) :
    perform s ((disk base).save p content) =
      match s.tree.writeSpot content spot with
      | .error why => (.error ⟨.write, p, why.message⟩, s)
      | .ok u => (.ok (), { s with tree := u }) := by
  have hwrite : s.tree.write base p content = s.tree.writeSpot content spot := by
    rw [Tree.write, h]
    rfl
  rw [save_eq, perform_bind, perform_ensureParent_of_resolve h]
  simp only
  rw [perform_adapt, perform_write, hwrite]
  cases s.tree.writeSpot content spot <;> rfl

theorem perform_save_of_write {u : Tree} (h : s.tree.write base p content = .ok u) :
    perform s ((disk base).save p content) = (.ok (), { s with tree := u }) := by
  unfold Tree.write at h
  cases hr : s.tree.resolve base true p with
  | error why =>
      rw [hr] at h
      cases h
  | ok spot =>
      rw [hr] at h
      have hspot : s.tree.writeSpot content spot = .ok u := h
      rw [perform_save_of_resolve hr, hspot]

/-- By a path that leads to a regular file, or to where one can be made, that file is saved and
nothing else happens. -/
theorem exists_puts_perform_save {spot : Tree.Spot} (hb : s.tree.get? base = some .dir)
    (h : s.tree.resolve base true p = .ok spot) (hspot : ∀ l, spot ≠ .dir l) (content : Bytes) :
    ∃ u, perform s ((disk base).save p content) = (.ok (), { s with tree := u }) ∧
      s.tree.Puts u spot.location content := by
  have hs := Tree.holds_of_resolve hb h
  obtain ⟨d, n, hplace, hlocation⟩ : ∃ d n,
      (spot = .vacant d n ∨ ∃ old, spot = .file d n old) ∧ spot.location = d ++ [n] := by
    cases spot with
    | dir l => exact absurd rfl (hspot l)
    | file d n old => exact ⟨d, n, Or.inr ⟨old, rfl⟩, rfl⟩
    | vacant d n => exact ⟨d, n, Or.inl rfl, rfl⟩
  obtain ⟨u, hwrite, hputs⟩ := Tree.exists_puts_writeSpot hs hplace content
  refine ⟨u, ?_, hlocation ▸ hputs⟩
  rw [perform_save_of_resolve h, hwrite]

/-! ### Saved files -/

/-- A saved file stands where the path leads, and could be written there again without change. -/
theorem exists_saves_of_perform_save (hb : s.tree.get? base = some .dir)
    (h : perform s ((disk base).save p content) = (.ok (), s')) :
    ∃ d n, s'.tree.resolve base false p = .ok (.file d n content) ∧
      s.tree.Saves s'.tree (d ++ [n]) content ∧
      s'.tree.write base p content = .ok s'.tree := by
  obtain ⟨v, hadds, hwrite⟩ := of_perform_save_ok h
  obtain ⟨d, n, hputs, hleads, hagain⟩ :=
    Tree.exists_puts_leads_of_write (hadds.keeps.get?_dir hb) hwrite
  have hself := hputs.get?_self
  obtain ⟨x, hrewrite, hsame⟩ := hagain s'.tree hputs.keeps (Or.inr ⟨content, hself⟩)
  rw [hsame.eq_of_get? hself] at hrewrite
  exact ⟨d, n, hleads s'.tree content hputs.keeps hself, hadds.saves hputs, hrewrite⟩

/-- What saving a file does to any tree, links included.  If it succeeds the path leads to a regular
file with the content; nothing else has changed but that directories may have been added; and saving
again succeeds and changes nothing.  If it fails directories may have been added, and that is all.
It does succeed, without adding directories, where the path led to a regular file or to a vacant
place before. -/
theorem saved_of_save {result : Except FileError Unit} (hb : s.tree.get? base = some .dir)
    (h : perform s ((disk base).save p content) = (result, s')) :
    (result = .ok () → ∃ d n, s'.tree.resolve base false p = .ok (.file d n content) ∧
      s.tree.Saves s'.tree (d ++ [n]) content ∧
      ∀ z : Session, z.tree = s'.tree → perform z ((disk base).save p content) = (.ok (), z)) ∧
    (∀ e, result = .error e → s.tree.AddsDirs s'.tree) ∧
    ∀ spot, s.tree.resolve base true p = .ok spot → (∀ l, spot ≠ .dir l) →
      result = .ok () ∧ s.tree.Puts s'.tree spot.location content := by
  refine ⟨fun hok => ?_, fun e he => ?_, fun spot hresolve hspot => ?_⟩
  · rw [hok] at h
    obtain ⟨d, n, hleads, hsaves, hrewrite⟩ := exists_saves_of_perform_save hb h
    refine ⟨d, n, hleads, hsaves, fun z hz => ?_⟩
    rw [← hz] at hrewrite
    exact perform_save_of_write hrewrite
  · rw [he] at h
    exact (of_perform_save_error h).1
  · obtain ⟨u, hsave, hputs⟩ := exists_puts_perform_save hb hresolve hspot content
    rw [hsave] at h
    obtain ⟨rfl, rfl⟩ := Prod.mk.inj h
    exact ⟨rfl, hputs⟩

/-- A path that leaves the directory made for it again and ends at a link to nothing, and one on
which a regular file stands in the way of that. -/
theorem saved_of_save_dangling :
    let link : Name := ⟨Utf8.encode "l", by decide⟩
    let target : Name := ⟨Utf8.encode "b.js", by decide⟩
    let made : Name := ⟨Utf8.encode "new", by decide⟩
    let t := (Tree.ofFiles [("a.js", "1")]).insert [] link (.link (.ofString "b.js"))
    let p := Path.ofString "new/../l"
    let q := Path.ofString "new/../a.js/x"
    let content := Utf8.encode "2"
    t.get? [] = some .dir ∧
      (∃ u, perform (.ofTree t) ((disk []).save p content) = (.ok (), u) ∧
        u.tree.get? [made] = some .dir ∧ u.tree.get? [link] = some (.link (.ofString "b.js")) ∧
        u.tree.resolve [] false p = .ok (.file [] target content) ∧
        t.Saves u.tree [target] content ∧
        perform u ((disk []).save p content) = (.ok (), u)) ∧
      ∃ e u, perform (.ofTree t) ((disk []).save q content) = (.error e, u) ∧
        u.tree.get? [made] = some .dir ∧ t.AddsDirs u.tree := by
  intro link target made t p q content
  have hsaved : (perform (.ofTree t) ((disk []).save p content)).1 = .ok () ∧
      (perform (.ofTree t) ((disk []).save p content)).2.tree.get? [made] = some .dir ∧
      (perform (.ofTree t) ((disk []).save p content)).2.tree.get? [link] =
        some (.link (.ofString "b.js")) ∧
      (perform (.ofTree t) ((disk []).save p content)).2.tree.resolve [] false p =
        .ok (.file [] target content) := by decide +kernel
  have hblocked : (perform (.ofTree t) ((disk []).save q content)).1 =
        .error ⟨.makeDir, .ofString "new/../a.js", OsError.alreadyExists.message⟩ ∧
      (perform (.ofTree t) ((disk []).save q content)).2.tree.get? [made] = some .dir := by
    decide +kernel
  rcases hu : perform (.ofTree t) ((disk []).save p content) with ⟨result, u⟩
  rcases hw : perform (.ofTree t) ((disk []).save q content) with ⟨refusal, w⟩
  rw [hu] at hsaved
  rw [hw] at hblocked
  obtain ⟨rfl, hmade, hlink, hresolve⟩ := hsaved
  obtain ⟨rfl, hmade'⟩ := hblocked
  obtain ⟨hsuccess, -, -⟩ := saved_of_save (s := .ofTree t) t.get?_root hu
  obtain ⟨-, hfailure, -⟩ := saved_of_save (s := .ofTree t) t.get?_root hw
  obtain ⟨d, n, hleads, hsaves, hagain⟩ := hsuccess rfl
  have hplace := Tree.Spot.file.inj (Except.ok.inj (hleads.symm.trans hresolve))
  rw [hplace.1, hplace.2.1] at hsaves
  exact ⟨t.get?_root, ⟨u, hu, hmade, hlink, hresolve, hsaves, hagain u rfl⟩,
    _, w, hw, hmade', hfailure _ rfl⟩

end Session
end AssetPress
