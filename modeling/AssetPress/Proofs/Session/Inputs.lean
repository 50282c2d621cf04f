import AssetPress.Proofs.Results
import AssetPress.Proofs.Tree.Inside

/-!
# What a compression depends on

Before a compression writes anything it has read its sources and shrunk them, and what it has in
hand then (`Tree.prepared`) depends on the texts of the sources alone.  It decides how the
compression fails early (`perform_pressFrom_error_iff`) and what a successful one tells and writes
(`of_perform_pressFrom_eq_ok`).  So two sessions in which the sources of a job are the same treat
the job alike, whatever else their trees hold (`alike_of_same_inputs`).
-/

namespace AssetPress

/-- The texts of the sources and the shrunk bundle, or why there is none of it. -/
def Tree.prepared (t : Tree) (base : Location) (shrink : List String → Except CompressError String)
    (ps : List Path) : Except CompressError (List String × String) := do
  let texts ← ps.mapM fun p => (t.readText base p).mapError (CompressError.readSource p)
  let code ← shrink texts
  return (texts, code)

theorem Tree.prepared_congr {t u : Tree} {base : Location} {ps : List Path}
    (h : ∀ p ∈ ps, t.readText base p = u.readText base p)
    (shrink : List String → Except CompressError String) :
    t.prepared base shrink ps = u.prepared base shrink ps := by
  rw [prepared, prepared, mapM_congr_of_mem fun p hp => by rw [h p hp]]

theorem CompressError.IsEarly.not_isLate {kind : AssetKind} {e : CompressError}
    (h : e.IsEarly kind) : ¬ e.IsLate := by
  cases e with
  | filesystem why =>
      rintro (hmake | hwrite)
      · exact absurd (h.2.symm.trans hmake) (by decide)
      · exact absurd (h.2.symm.trans hwrite) (by decide)
  | _ => exact id

namespace Session

variable {base : Location} {minify : Minifier} {s s' : Session}

/-! ### Sources -/

theorem exists_perform_readSources (base : Location) (minify : Minifier) (s : Session)
    (ps : List Path) :
    ∃ events, perform s ((workbench base minify).readSources ps) =
      (ps.mapM fun p => (s.tree.readText base p).mapError (CompressError.readSource p),
        ⟨s.tree, events⟩) := by
  induction ps generalizing s with
  | nil => exact ⟨s.events, rfl⟩
  | cons p more ih =>
      rw [Workbench.readSources, perform_bind, perform_readSource, List.mapM_cons]
      cases htext : s.tree.readText base p with
      | error why => exact ⟨s.events ++ [.reading p], rfl⟩
      | ok text =>
          obtain ⟨events, hmore⟩ := ih ⟨s.tree, s.events ++ [.reading p]⟩
          refine ⟨events, ?_⟩
          show perform _ ((workbench base minify).readSources more >>= fun texts =>
            pure (text :: texts)) = _
          rw [perform_bind, hmore]
          cases more.mapM fun p =>
            (s.tree.readText base p).mapError (CompressError.readSource p) <;> rfl

section pressFrom
variable {kind : AssetKind} {buildDir : Path} {output version : String} {ps : List Path}

variable (base minify kind buildDir output version ps) in
theorem exists_perform_pressFrom (s : Session) :
    ∃ events, perform s (pressFrom base minify kind buildDir output version ps) =
      match s.tree.prepared base (minify.shrink kind output) ps with
      | .error e => (.error e, ⟨s.tree, events⟩)
      | .ok (texts, code) => perform ⟨s.tree, events⟩
          ((workbench base minify).emit kind buildDir output version code texts) := by
  obtain ⟨events, hread⟩ := exists_perform_readSources base minify s ps
  refine ⟨events, ?_⟩
  rw [pressFrom, perform_bind, hread, Tree.prepared]
  cases ps.mapM fun p => (s.tree.readText base p).mapError (CompressError.readSource p) with
  | error e => rfl
  | ok texts =>
      show perform _ (ExceptT.mk (pure (minify.shrink kind output texts)) >>= _) = _
      rw [perform_bind, perform_mk_pure]
      cases hcode : minify.shrink kind output texts <;>
        simp [hcode, bind, Except.bind, pure, Except.pure]

theorem perform_pressFrom_error_iff {e : CompressError} (he : e.IsEarly kind) :
    (perform s (pressFrom base minify kind buildDir output version ps)).1 = .error e ↔
      s.tree.prepared base (minify.shrink kind output) ps = .error e := by
  obtain ⟨events, hpress⟩ :=
    exists_perform_pressFrom base minify kind buildDir output version ps s
  rw [hpress]
  cases s.tree.prepared base (minify.shrink kind output) ps with
  | error why => simp
  | ok hand =>
      obtain ⟨texts, code⟩ := hand
      rcases hemit : perform ⟨s.tree, events⟩
        ((workbench base minify).emit kind buildDir output version code texts) with ⟨why | a, z⟩
      · have hlate := (of_perform_emit_error hemit).1
        simp only [hemit, Except.error.injEq, reduceCtorEq, iff_false]
        rintro rfl
        exact he.not_isLate hlate
      · simp [hemit]

/-- A compression that succeeds tells of what it had in hand, and the file to which the path of its
artifact leads holds that. -/
theorem of_perform_pressFrom_eq_ok {a : Artifact} (hb : s.tree.get? base = some .dir)
    (h : perform s (pressFrom base minify kind buildDir output version ps) = (.ok a, s')) :
    ∃ texts code, s.tree.prepared base (minify.shrink kind output) ps = .ok (texts, code) ∧
      a = .ofBytes kind buildDir output texts (Workbench.content version code) ∧
      s'.tree.read base a.path = .ok (Workbench.content version code) := by
  obtain ⟨events, hpress⟩ :=
    exists_perform_pressFrom base minify kind buildDir output version ps s
  rw [hpress] at h
  cases hprepared : s.tree.prepared base (minify.shrink kind output) ps with
  | error why =>
      rw [hprepared] at h
      cases h
  | ok hand =>
      obtain ⟨texts, code⟩ := hand
      rw [hprepared] at h
      obtain ⟨ha, v, hadds, hwrite⟩ := write_of_perform_emit h
      obtain ⟨d, n, hputs, hleads⟩ := Tree.exists_puts_of_write (hadds.keeps.get?_dir hb) hwrite
      refine ⟨texts, code, rfl, ha, ?_⟩
      rw [Tree.read, hleads.resolve_eq hputs.get?_self]
      rfl

end pressFrom

/-! ### Two sessions -/

/-- From both sessions a compression fails early in the same ways, and if it succeeds from both, it
tells the same and writes the same bytes. -/
def Alike (base : Location) (kind : AssetKind) (s s' : Session)
    (x : ExceptT CompressError (StateM Session) Artifact) : Prop :=
  (∀ e : CompressError, e.IsEarly kind →
    ((perform s x).1 = .error e ↔ (perform s' x).1 = .error e)) ∧
  ∀ a a', (perform s x).1 = .ok a → (perform s' x).1 = .ok a' → a = a' ∧
    ∃ content, (perform s x).2.tree.read base a.path = .ok content ∧
      (perform s' x).2.tree.read base a'.path = .ok content

theorem alike_pressFrom {kind : AssetKind} {ps : List Path} (hb : s.tree.get? base = some .dir)
    (hb' : s'.tree.get? base = some .dir)
    (h : ∀ p ∈ ps, s.tree.readText base p = s'.tree.readText base p)
    (buildDir : Path) (output version : String) :
    Alike base kind s s' (pressFrom base minify kind buildDir output version ps) := by
  have hprepared := Tree.prepared_congr h (minify.shrink kind output)
  refine ⟨fun e he => ?_, fun a a' ha ha' => ?_⟩
  · rw [perform_pressFrom_error_iff he, perform_pressFrom_error_iff he, hprepared]
  · obtain ⟨texts, code, hhand, htold, hread⟩ := of_perform_pressFrom_eq_ok hb (Prod.ext ha rfl)
    obtain ⟨texts', code', hhand', htold', hread'⟩ :=
      of_perform_pressFrom_eq_ok hb' (Prod.ext ha' rfl)
    rw [hprepared, hhand'] at hhand
    cases hhand
    exact ⟨htold.trans htold'.symm, _, hread, hread'⟩

/-- A compression depends on its declared inputs alone.  A script job is treated alike in any two
sessions in which every listed path reads the same, as a text or as the same failure; a stylesheet
job in any two in which its source leads to directories with the same stylesheets, that is, regular
files of the same names and contents among those with their extension. -/
theorem alike_of_same_inputs (hb : s.tree.get? base = some .dir)
    (hb' : s'.tree.get? base = some .dir) :
    (∀ job : ScriptJob,
      (∀ p ∈ job.files.pathsIn job.source, s.tree.readText base p = s'.tree.readText base p) →
        Alike base .script s s' ((workbench base minify).pressScripts job)) ∧
    ∀ (job : StyleJob) (d d' : Location), s.tree.resolve base false job.source = .ok (.dir d) →
      s'.tree.resolve base false job.source = .ok (.dir d') →
      s.tree.SameFiles styleExtension d s'.tree d' →
        Alike base .stylesheet s s' ((workbench base minify).pressStyles job) := by
  refine ⟨fun job hsame => ?_, fun job d d' hdir hdir' hsame => ?_⟩
  · rw [pressScripts_eq]
    exact alike_pressFrom hb hb' hsame job.buildDir job.output job.version
  · have hpaths : s.tree.pathsIn base job.source styleExtension = _ := Tree.pathsIn_of_dir hdir
    have hpaths' := (hsame.pathsIn_eq hdir hdir').symm.trans hpaths
    unfold Alike
    rw [perform_pressStyles_of_pathsIn hpaths, perform_pressStyles_of_pathsIn hpaths']
    split
    case isTrue => exact ⟨fun _ _ => Iff.rfl, fun _ _ ha => nomatch ha⟩
    case isFalse =>
      exact alike_pressFrom hb hb' (fun p hp => hsame.readText_eq hdir hdir' hpaths hp)
        job.buildDir job.output job.version

/-- A script that is not listed, and a directory and a link with names of stylesheets, are nothing
to either compression. -/
theorem alike_of_same_inputs_crowded :
    let more : Name := ⟨Utf8.encode "More.js", by decide⟩
    let dir : Name := ⟨Utf8.encode "b.css", by decide⟩
    let link : Name := ⟨Utf8.encode "c.css", by decide⟩
    let t := Tree.ofFiles [("a.js", "1"), ("a.css", "a{}")]
    let u := ((t.insert [] more (.file [])).insert [] dir .dir).insert [] link
      (.link (.ofString "a.css"))
    let scripts : ScriptJob := ⟨.ofString "/", "a.min.js", .ofString "/out", "1", ⟨["a.js"]⟩⟩
    let styles : StyleJob := ⟨.ofString "/", "b.min.js", .ofString "/out", "1"⟩
    t.get? [] = some .dir ∧ u.get? [] = some .dir ∧
      (∀ n ∈ [more, dir, link], t.get? [n] = none ∧ (u.get? [n]).isSome) ∧
      (∀ p ∈ scripts.files.pathsIn scripts.source, t.readText [] p = u.readText [] p) ∧
      t.resolve [] false styles.source = .ok (.dir []) ∧
      u.resolve [] false styles.source = .ok (.dir []) ∧
      t.SameFiles styleExtension [] u [] ∧
      (perform (.ofTree u) ((workbench []).pressScripts scripts)).1.toOption.isSome ∧
      (perform (.ofTree u) ((workbench []).pressStyles styles)).1.toOption.isSome ∧
      Alike [] .script (.ofTree t) (.ofTree u) ((workbench []).pressScripts scripts) ∧
      Alike [] .stylesheet (.ofTree t) (.ofTree u) ((workbench []).pressStyles styles) := by
  intro more dir link t u scripts styles
  have hscripts : ∀ p ∈ scripts.files.pathsIn scripts.source,
      t.readText [] p = u.readText [] p := by
    intro p hp
    obtain rfl := List.mem_singleton.mp hp
    rfl
  have hdir : t.resolve [] false styles.source = .ok (.dir []) := rfl
  have hdir' : u.resolve [] false styles.source = .ok (.dir []) := rfl
  have hothers : ∀ n ∈ [dir, link], ∀ content, t.get? ([] ++ [n]) ≠ some (.file content) ∧
      u.get? ([] ++ [n]) ≠ some (.file content) := by
    have hnone : ∀ n ∈ [dir, link], t.get? ([] ++ [n]) = none ∧
        (u.get? ([] ++ [n]) = some .dir ∨
          u.get? ([] ++ [n]) = some (.link (.ofString "a.css"))) := by decide +kernel
    intro n hn content
    obtain ⟨ht, hu | hu⟩ := hnone n hn <;> rw [ht, hu] <;> exact ⟨nofun, nofun⟩
  have hsame : t.SameFiles styleExtension [] u [] := by
    intro n content hext
    by_cases hn : n ∈ [dir, link]
    · simp only [(hothers n hn content).1, (hothers n hn content).2]
    · have hmore : n ≠ more := by
        rintro rfl
        exact absurd hext (by decide)
      simp only [List.mem_cons, List.not_mem_nil, or_false, not_or] at hn
      rw [Tree.get?_insert_ne (by simpa using hn.2), Tree.get?_insert_ne (by simpa using hn.1),
        Tree.get?_insert_ne (by simpa using hmore)]
  have halike := @alike_of_same_inputs [] .standard (.ofTree t) (.ofTree u) t.get?_root u.get?_root
  exact ⟨t.get?_root, u.get?_root, by decide +kernel, hscripts, hdir, hdir', hsame,
    by decide +kernel, by decide +kernel, halike.1 scripts hscripts,
    halike.2 styles [] [] hdir hdir' hsame⟩

end Session
end AssetPress
