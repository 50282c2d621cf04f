import AssetPress.Proofs.Session.Listing
import AssetPress.Proofs.Tree.Texts

/-!
# How compressions fail

A compression can fail at its listing, for want of stylesheets, at a source that is no text, at a
malformed bundle, or while it writes, and the first of these that goes wrong decides
(`FailsInOrder`).  Only a failure while writing leaves anything behind, and that is directories:
every file that could be read before holds the same afterwards.  Main statement:
`failsInOrder_of_press`.
-/

namespace AssetPress

/-! ### What comes to be in hand -/

section prepared
variable {minify : Minifier} {kind : AssetKind} {output : String} {t : Tree} {base : Location}
  {ps : List Path}

/-- Nothing comes to be in hand exactly for want of a source, of which the first is named, or
because the bundle of the sources is malformed. -/
theorem Tree.prepared_eq_error_iff {e : CompressError} :
    t.prepared base (minify.shrink kind output) ps = .error e ↔
      (∃ p why, t.FirstUnread base ps p why ∧ e = .readSource p why) ∨
        ∃ texts reason, t.Reads base ps texts ∧ minify kind (bundle texts) = .error reason ∧
          e = .malformed kind output reason := by
  have hpure : ∀ texts,
      (minify.shrink kind output texts >>= fun code => pure (texts, code)) = .error e ↔
        minify.shrink kind output texts = .error e := by
    intro texts
    simp [bind_eq_error_iff, pure, Except.pure]
  rw [prepared, bind_eq_error_iff, mapM_readText_eq_error_iff]
  simp only [hpure, Minifier.shrink_eq_error_iff, mapM_readText_eq_ok_iff]
  constructor
  · rintro (hread | ⟨texts, htexts, reason, hreason, he⟩)
    · exact Or.inl hread
    · exact Or.inr ⟨texts, reason, htexts, hreason, he⟩
  · rintro (hread | ⟨texts, reason, htexts, hreason, he⟩)
    · exact Or.inl hread
    · exact Or.inr ⟨texts, htexts, reason, hreason, he⟩

end prepared

/-! ### Files that are kept -/

theorem Tree.AddsDirs.read_eq_ok {t u : Tree} {base : Location} {p : Path} {content : Bytes}
    (h : t.AddsDirs u) (hb : t.get? base = some .dir) (hread : t.read base p = .ok content) :
    u.read base p = .ok content := by
  rw [read] at hread ⊢
  cases hspot : t.resolve base false p with
  | error why =>
      rw [hspot] at hread
      cases hread
  | ok spot =>
      rw [hspot] at hread
      cases spot with
      | dir l => cases hread
      | vacant d n => cases hread
      | file d n old =>
          cases hread
          have hfile : t.get? (d ++ [n]) = some (.file content) := holds_of_resolve hb hspot
          have hfile' : u.get? (d ++ [n]) = some (.file content) := by
            rcases h (d ++ [n]) with heq | ⟨hnone, -⟩
            · rw [heq, hfile]
            · rw [hnone] at hfile
              cases hfile
          rw [resolve_of_keeps h.keeps id hspot (.file content hfile')]
          rfl

namespace Session

/-- A compression of the given kind fails at the first thing that goes wrong: the listing of its
sources, an empty list of stylesheets, the first source on the list that is no text, the bundle, or
the writing of its artifact.  It answers `result` and takes tree `t` to tree `u`. -/
structure FailsInOrder (base : Location) (minify : Minifier) (kind : AssetKind) (source : Path)
    (output : String) (listing : Except FileError (List Path)) (t u : Tree)
    (result : Except CompressError Artifact) : Prop where
  unlisted : ∀ why, (result = .error (.filesystem why) ∧ why.action = .list) ↔
    listing = .error why
  empty : ∀ dir, result = .error (.noStylesheets dir) ↔
    kind = .stylesheet ∧ dir = source ∧ listing = .ok []
  unread : ∀ p why, result = .error (.readSource p why) ↔
    ∃ ps, listing = .ok ps ∧ t.FirstUnread base ps p why
  exists_unread : (∃ p why, result = .error (.readSource p why)) ↔
    ∃ ps, listing = .ok ps ∧ ∃ p ∈ ps, ¬ t.IsText base p
  malformed : ∀ name reason, result = .error (.malformed kind name reason) ↔
    name = output ∧ ∃ ps texts, listing = .ok ps ∧ (kind = .stylesheet → ps ≠ []) ∧
      t.Reads base ps texts ∧ minify kind (bundle texts) = .error reason
  fails : ∀ e, result = .error e → Fails kind t u e
  kept : t.get? base = some .dir → ∀ e, result = .error e →
    ∀ p content, t.read base p = .ok content → u.read base p = .ok content

variable {base : Location} {minify : Minifier} {s : Session}

section pressFrom
variable {kind : AssetKind} {buildDir : Path} {output version : String} {ps : List Path}
  {e : CompressError}

theorem perform_pressFrom_early_iff (he : e.IsEarly kind) :
    (perform s (pressFrom base minify kind buildDir output version ps)).1 = .error e ↔
      (∃ p why, s.tree.FirstUnread base ps p why ∧ e = .readSource p why) ∨
        ∃ texts reason, s.tree.Reads base ps texts ∧ minify kind (bundle texts) = .error reason ∧
          e = .malformed kind output reason :=
  (perform_pressFrom_error_iff he).trans Tree.prepared_eq_error_iff

theorem ne_of_perform_pressFrom_early (he : e.IsEarly kind)
    (h : (perform s (pressFrom base minify kind buildDir output version ps)).1 =
      .error e) : (∀ why, e ≠ .filesystem why) ∧ ∀ dir, e ≠ .noStylesheets dir := by
  rcases (perform_pressFrom_early_iff he).mp h with ⟨p, why, -, rfl⟩ | ⟨texts, reason, -, -, rfl⟩
  · exact ⟨nofun, nofun⟩
  · cases kind <;> exact ⟨nofun, nofun⟩

theorem fails_of_perform_pressFrom
    (h : (perform s (pressFrom base minify kind buildDir output version ps)).1 =
      .error e) :
    Fails kind s.tree
      (perform s (pressFrom base minify kind buildDir output version ps)).2.tree e :=
  of_perform_pressFrom_error (Prod.ext h rfl)

theorem perform_pressFrom_unread_iff {p : Path} {why : FileError} :
    (perform s (pressFrom base minify kind buildDir output version ps)).1 =
      .error (.readSource p why) ↔ s.tree.FirstUnread base ps p why := by
  have hearly : (CompressError.readSource p why).IsEarly kind := trivial
  rw [perform_pressFrom_early_iff hearly]
  constructor
  · rintro (⟨q, why', hfirst, he⟩ | ⟨texts, reason, -, -, he⟩)
    · cases he
      exact hfirst
    · cases kind <;> cases he
  · intro hfirst
    exact Or.inl ⟨p, why, hfirst, rfl⟩

/-- A compression that knows where its sources are fails in order, after the listing that has told
it. -/
theorem failsInOrder_pressFrom (hempty : kind = .stylesheet → ps ≠ []) (source buildDir : Path)
    (output version : String) :
    FailsInOrder base minify kind source output (.ok ps) s.tree
      (perform s (pressFrom base minify kind buildDir output version ps)).2.tree
      (perform s (pressFrom base minify kind buildDir output version ps)).1 := by
  constructor
  case unlisted =>
    intro why
    constructor
    · rintro ⟨he, haction⟩
      rcases fails_of_perform_pressFrom he with ⟨hearly, -⟩ | ⟨hmake | hwrite, -⟩
      · exact absurd rfl ((ne_of_perform_pressFrom_early hearly he).1 why)
      · rw [hmake] at haction
        cases haction
      · rw [hwrite] at haction
        cases haction
    · exact nofun
  case empty =>
    intro dir
    constructor
    · intro he
      rcases fails_of_perform_pressFrom he with ⟨hearly, -⟩ | ⟨hlate, -⟩
      · exact absurd rfl ((ne_of_perform_pressFrom_early hearly he).2 dir)
      · exact hlate.elim
    · rintro ⟨hkind, -, hnil⟩
      exact absurd (Except.ok.inj hnil) (hempty hkind)
  case unread =>
    intro p why
    rw [perform_pressFrom_unread_iff]
    simp only [Except.ok.injEq, exists_eq_left']
  case exists_unread =>
    simp only [perform_pressFrom_unread_iff, Except.ok.injEq, exists_eq_left']
    exact Tree.exists_firstUnread_iff
  case malformed =>
    intro name reason
    rw [perform_pressFrom_early_iff CompressError.isEarly_malformed]
    constructor
    · rintro (⟨_, _, -, hne⟩ | ⟨texts, why, hreads, hwhy, he⟩)
      · cases kind <;> cases hne
      · obtain ⟨rfl, rfl⟩ := CompressError.malformed_eq_iff.mp he
        exact ⟨rfl, ps, texts, rfl, hempty, hreads, hwhy⟩
    · rintro ⟨rfl, ps', texts, hps, -, hreads, hwhy⟩
      cases hps
      exact Or.inr ⟨texts, reason, hreads, hwhy, rfl⟩
  case fails => exact fun e he => fails_of_perform_pressFrom he
  case kept =>
    intro hb e he p content hread
    exact (fails_of_perform_pressFrom he).addsDirs.read_eq_ok hb hread

end pressFrom

theorem failsInOrder_of_listing {t : Tree} {source : Path} {output : String} {e : CompressError}
    {listing : Except FileError (List Path)}
    (h : (∃ why, listing = .error why ∧ why.action = .list ∧ e = .filesystem why) ∨
      listing = .ok [] ∧ e = .noStylesheets source) :
    FailsInOrder base minify .stylesheet source output listing t t (.error e) := by
  have hearly : e.IsEarly .stylesheet := by
    rcases h with ⟨why, -, haction, rfl⟩ | ⟨-, rfl⟩
    · exact ⟨rfl, haction⟩
    · rfl
  constructor
  case unlisted =>
    intro why
    rcases h with ⟨why', rfl, haction, rfl⟩ | ⟨rfl, rfl⟩
    · simp only [Except.error.injEq, CompressError.filesystem.injEq, and_iff_left_iff_imp]
      rintro rfl
      exact haction
    · simp
  case empty =>
    intro dir
    rcases h with ⟨why, rfl, -, rfl⟩ | ⟨rfl, rfl⟩
    · simp
    · simp [eq_comm]
  case unread =>
    intro p why
    rcases h with ⟨why', rfl, -, rfl⟩ | ⟨rfl, rfl⟩
    · simp
    · simp [Tree.FirstUnread]
  case exists_unread =>
    rcases h with ⟨why', rfl, -, rfl⟩ | ⟨rfl, rfl⟩ <;> simp
  case malformed =>
    intro name reason
    rcases h with ⟨why', rfl, -, rfl⟩ | ⟨rfl, rfl⟩ <;> simp [CompressError.malformed]
  case fails =>
    rintro _ ⟨⟩
    exact Or.inl ⟨hearly, rfl⟩
  case kept => exact fun _ _ _ _ _ hread => hread

/-- Compressions fail at the first thing that goes wrong, of stylesheets after a listing in the
order of their names, and a failure costs no file. -/
theorem failsInOrder_of_press (base : Location) (minify : Minifier) (s : Session) :
    (∀ job : ScriptJob, FailsInOrder base minify .script job.source job.output
      (.ok (job.files.pathsIn job.source)) s.tree
      (perform s ((workbench base minify).pressScripts job)).2.tree
      (perform s ((workbench base minify).pressScripts job)).1) ∧
    ∀ job : StyleJob, FailsInOrder base minify .stylesheet job.source job.output
      (perform s ((disk base).listWithExtension job.source styleExtension)).1 s.tree
      (perform s ((workbench base minify).pressStyles job)).2.tree
      (perform s ((workbench base minify).pressStyles job)).1 ∧
      ∀ ps, (perform s ((disk base).listWithExtension job.source styleExtension)).1 = .ok ps →
        (∃ d, s.tree.resolve base false job.source = .ok (.dir d) ∧
          s.tree.Lists job.source d styleExtension ps) ∨
        ∃ d n content, s.tree.resolve base false job.source = .ok (.file d n content) ∧
          ps = [] := by
  refine ⟨fun job => ?_, fun job => ⟨?_, ?_⟩⟩
  · rw [pressScripts_eq]
    refine failsInOrder_pressFrom (fun hkind => ?_) job.source job.buildDir job.output job.version
    cases hkind
  · have htree : s.tree =
        (perform s ((disk base).listWithExtension job.source styleExtension)).2.tree :=
      moves_listWithExtension job.source styleExtension s
    rw [pressStyles_eq, perform_bind, perform_adapt]
    rcases hlist : perform s ((disk base).listWithExtension job.source styleExtension)
      with ⟨why | ps, m⟩
    · have haction := action_of_perform_listWithExtension hlist
      rw [hlist] at htree
      rw [htree]
      exact failsInOrder_of_listing (.inl ⟨why, rfl, haction, rfl⟩)
    · rw [hlist] at htree
      rw [htree]
      cases ps with
      | nil => exact failsInOrder_of_listing (.inr ⟨rfl, rfl⟩)
      | cons p more =>
          exact failsInOrder_pressFrom (fun _ => List.cons_ne_nil p more) job.source job.buildDir
            job.output job.version
  · intro ps hps
    rw [perform_listWithExtension] at hps
    cases hpaths : s.tree.pathsIn base job.source styleExtension with
    | error why =>
        rw [hpaths] at hps
        cases hps
    | ok found =>
        rw [hpaths] at hps
        cases hps
        exact Tree.lists_of_pathsIn (by decide) hpaths

/-- Of two scripts that cannot be read the first on the list is named, and a build directory that
cannot be made stops a compression of stylesheets. -/
theorem failsInOrder_of_press_blocked :
    let broken : Name := ⟨Utf8.encode "b.js", by decide⟩
    let t := (Tree.ofFiles [("a.js", "1"), ("a.css", "a{}"), ("out", "")]).insert [] broken
      (.file [255])
    let scripts : ScriptJob := ⟨.ofString "/", "1.js", .ofString "/new", "1",
      ⟨["a.js", "b.js", "c.js"]⟩⟩
    let styles : StyleJob := ⟨.ofString "/", "2.js", .ofString "/out/deep", "2"⟩
    (perform (.ofTree t) ((workbench []).pressScripts scripts)).1 =
        .error (.readSource (.ofString "/b.js") ⟨.read, .ofString "/b.js", notText⟩) ∧
      (perform (.ofTree t) ((workbench []).pressStyles styles)).1 = .error (.filesystem
        ⟨.makeDir, .ofString "/out/deep", OsError.notDirectory.message⟩) ∧
      FailsInOrder [] .standard .script scripts.source "1.js"
        (.ok (scripts.files.pathsIn scripts.source)) t
        (perform (.ofTree t) ((workbench []).pressScripts scripts)).2.tree
        (perform (.ofTree t) ((workbench []).pressScripts scripts)).1 ∧
      FailsInOrder [] .standard .stylesheet styles.source "2.js"
        (perform (.ofTree t) ((disk []).listWithExtension styles.source styleExtension)).1 t
        (perform (.ofTree t) ((workbench []).pressStyles styles)).2.tree
        (perform (.ofTree t) ((workbench []).pressStyles styles)).1 := by
  intro broken t scripts styles
  have horder := failsInOrder_of_press [] .standard (.ofTree t)
  exact ⟨by decide +kernel, by decide +kernel, horder.1 scripts, (horder.2 styles).1⟩

end Session
end AssetPress
