import AssetPress.Proofs.Session.Disk

/-!
# Compressions in a session

What a compression does to the tree of a session.  One that succeeds has made directories and
written one file, of which the artifact tells the truth (`Delivers`); one that fails has left
the tree alone, unless it failed while writing and has added directories (`CompressError.IsEarly`,
`CompressError.IsLate`).
-/

namespace AssetPress

/-! ### When a compression fails -/

/-- How a compression of the given kind fails while it finds, reads and shrinks its sources, before
anything is made or written. -/
def CompressError.IsEarly (kind : AssetKind) : CompressError → Prop
  | .readSource _ _ => True
  | .noStylesheets _ => kind = .stylesheet
  | .malformedScript _ _ => kind = .script
  | .malformedStyle _ _ => kind = .stylesheet
  | .filesystem e => kind = .stylesheet ∧ e.action = .list

/-- How a compression fails while it makes directories and writes its artifact. -/
def CompressError.IsLate : CompressError → Prop
  | .filesystem e => e.action = .makeDir ∨ e.action = .write
  | _ => False

/-- What is told about an artifact that holds `bytes`, made from the given sources. -/
def Artifact.ofBytes (kind : AssetKind) (buildDir : Path) (output : String) (texts : List String)
    (bytes : Bytes) : Artifact :=
  ⟨kind, output, buildDir.join (.ofString output), texts.length, AssetPress.sourceSize texts,
    bytes.length, Sha256.hexDigest bytes⟩

/-! ### Shrinking -/

section shrink
variable {minify : Minifier} {kind : AssetKind} {output name reason : String} {texts : List String}

theorem CompressError.malformed_eq_iff {other : String} {why : String} :
    malformed kind name reason = malformed kind other why ↔ name = other ∧ reason = why := by
  cases kind <;> simp [malformed]

theorem CompressError.isEarly_malformed : (malformed kind name reason).IsEarly kind := by
  cases kind <;> rfl

theorem Minifier.shrink_eq_error_iff {e : CompressError} :
    minify.shrink kind output texts = .error e ↔
      ∃ why, minify kind (bundle texts) = .error why ∧ e = .malformed kind output why := by
  unfold shrink
  cases minify kind (bundle texts) with
  | error why =>
      constructor
      · intro h
        cases h
        exact ⟨why, rfl, rfl⟩
      · rintro ⟨_, h, rfl⟩
        cases h
        rfl
  | ok code =>
      constructor
      · exact nofun
      · rintro ⟨_, h, -⟩
        cases h

theorem Minifier.isEarly_of_shrink {e : CompressError}
    (h : minify.shrink kind output texts = .error e) : e.IsEarly kind := by
  obtain ⟨why, -, rfl⟩ := shrink_eq_error_iff.mp h
  exact CompressError.isEarly_malformed

end shrink

namespace Session

variable {base : Location} {minify : Minifier}

/-- Artifact `a` with the given version in its banner is written from tree `t` to tree `u`: first
directories are made, then the file. -/
def Delivers (base : Location) (kind : AssetKind) (buildDir : Path) (output version : String)
    (t u : Tree) (a : Artifact) : Prop :=
  ∃ texts code v, a = .ofBytes kind buildDir output texts (Workbench.content version code) ∧
    t.AddsDirs v ∧ v.write base a.path (Workbench.content version code) = .ok u

/-- A compression fails with `e` and leaves tree `u` behind where it found `t`. -/
def Fails (kind : AssetKind) (t u : Tree) (e : CompressError) : Prop :=
  e.IsEarly kind ∧ u = t ∨ e.IsLate ∧ t.AddsDirs u

theorem Fails.addsDirs {kind : AssetKind} {t u : Tree} {e : CompressError}
    (h : Fails kind t u e) : t.AddsDirs u := by
  rcases h with ⟨-, rfl⟩ | ⟨-, hadds⟩
  · exact Tree.AddsDirs.refl u
  · exact hadds

/-! ### Reading sources -/

theorem moves_readSource (p : Path) : Moves Eq ((workbench base minify).readSource p) :=
  Moves.bind (R := Eq) (fun _ _ _ => Eq.trans) (fun _ => rfl) fun _ =>
    (moves_readText p).adapt _

theorem moves_readSources (ps : List Path) : Moves Eq ((workbench base minify).readSources ps) := by
  induction ps with
  | nil => exact fun _ => rfl
  | cons p more ih =>
      exact Moves.bind (R := Eq) (fun _ _ _ => Eq.trans) (moves_readSource p) fun _ =>
        Moves.bind (R := Eq) (fun _ _ _ => Eq.trans) ih fun _ _ => rfl

theorem of_perform_readSources_error {s s' : Session} {ps : List Path} {e : CompressError}
    (h : perform s ((workbench base minify).readSources ps) = (.error e, s')) :
    ∃ p source, e = .readSource p source := by
  induction ps generalizing s with
  | nil => cases h
  | cons p more ih =>
      rcases of_perform_bind_error h with hread | ⟨text, m, -, hrest⟩
      · rcases of_perform_bind_error hread with hlog | ⟨_, m, -, htext⟩
        · cases hlog
        · obtain ⟨why, rfl, -⟩ := of_perform_adapt_error htext
          exact ⟨p, why, rfl⟩
      · rcases of_perform_bind_error hrest with hmore | ⟨texts, m', -, hend⟩
        · exact ih hmore
        · cases hend

/-! ### Writing artifacts -/

/-- What has been emitted is told, and written after directories have been made. -/
theorem write_of_perform_emit {s s' : Session} {kind : AssetKind} {buildDir : Path}
    {output version code : String} {texts : List String} {a : Artifact}
    (h : perform s ((workbench base minify).emit kind buildDir output version code texts) =
      (.ok a, s')) :
    a = .ofBytes kind buildDir output texts (Workbench.content version code) ∧
      ∃ v, s.tree.AddsDirs v ∧
        v.write base a.path (Workbench.content version code) = .ok s'.tree := by
  obtain ⟨path, m, hstore, hend⟩ := of_perform_bind_ok h
  cases hend
  have hstore := of_perform_adapt_ok hstore
  obtain ⟨_, m₁, hdir, hrest⟩ := of_perform_bind_ok hstore
  obtain ⟨_, m₂, hsave, hlog⟩ := of_perform_bind_ok hrest
  cases hlog
  obtain ⟨v, hadds, hwrite⟩ := of_perform_save_ok hsave
  have hmoves := (moves_ensureDir buildDir).of_perform hdir
  exact ⟨rfl, v, hmoves.trans hadds, hwrite⟩

theorem of_perform_emit_ok {s s' : Session} {kind : AssetKind} {buildDir : Path}
    {output version code : String} {texts : List String} {a : Artifact}
    (h : perform s ((workbench base minify).emit kind buildDir output version code texts) =
      (.ok a, s')) :
    Delivers base kind buildDir output version s.tree s'.tree a := by
  obtain ⟨ha, v, hadds, hwrite⟩ := write_of_perform_emit h
  exact ⟨texts, code, v, ha, hadds, hwrite⟩

theorem of_perform_emit_error {s s' : Session} {kind : AssetKind} {buildDir : Path}
    {output version code : String} {texts : List String} {e : CompressError}
    (h : perform s ((workbench base minify).emit kind buildDir output version code texts) =
      (.error e, s')) : e.IsLate ∧ s.tree.AddsDirs s'.tree := by
  rcases of_perform_bind_error h with hstore | ⟨path, m, -, hend⟩
  · obtain ⟨why, rfl, hwork⟩ := of_perform_adapt_error hstore
    rcases of_perform_bind_error hwork with hdir | ⟨_, m, hdir, hrest⟩
    · exact ⟨Or.inl (action_of_perform_ensureDir hdir),
        (moves_ensureDir buildDir).of_perform hdir⟩
    · have hmoves := (moves_ensureDir buildDir).of_perform hdir
      rcases of_perform_bind_error hrest with hsave | ⟨_, m', -, hlog⟩
      · obtain ⟨hadds, haction⟩ := of_perform_save_error hsave
        exact ⟨haction, hmoves.trans hadds⟩
      · cases hlog
  · cases hend

/-! ### Jobs -/

/-- What a compression does once it knows where its sources are. -/
def pressFrom (base : Location) (minify : Minifier) (kind : AssetKind) (buildDir : Path)
    (output version : String) (ps : List Path) :
    ExceptT CompressError (StateM Session) Artifact := do
  let texts ← (workbench base minify).readSources ps
  let code ← ExceptT.mk (pure (minify.shrink kind output texts))
  (workbench base minify).emit kind buildDir output version code texts

variable {s s' : Session}

section pressFrom
variable {kind : AssetKind} {buildDir : Path} {output version : String} {ps : List Path}

theorem of_perform_pressFrom_ok {a : Artifact}
    (h : perform s (pressFrom base minify kind buildDir output version ps) = (.ok a, s')) :
    Delivers base kind buildDir output version s.tree s'.tree a := by
  obtain ⟨texts, m, hread, hrest⟩ := of_perform_bind_ok h
  obtain ⟨code, m', hshrink, hemit⟩ := of_perform_bind_ok hrest
  have htree := (moves_readSources ps).of_perform hread
  rw [perform_mk_pure] at hshrink
  obtain ⟨-, rfl⟩ := Prod.mk.inj hshrink
  rw [htree]
  exact of_perform_emit_ok hemit

theorem of_perform_pressFrom_error {e : CompressError}
    (h : perform s (pressFrom base minify kind buildDir output version ps) = (.error e, s')) :
    Fails kind s.tree s'.tree e := by
  rcases of_perform_bind_error h with hread | ⟨texts, m, hread, hrest⟩
  · obtain ⟨p, source, rfl⟩ := of_perform_readSources_error hread
    exact Or.inl ⟨trivial, ((moves_readSources ps).of_perform hread).symm⟩
  · have htree := (moves_readSources ps).of_perform hread
    rcases of_perform_bind_error hrest with hcode | ⟨code, m', hcode, hemit⟩
    · rw [perform_mk_pure] at hcode
      obtain ⟨hfail, rfl⟩ := Prod.mk.inj hcode
      exact Or.inl ⟨Minifier.isEarly_of_shrink hfail, htree.symm⟩
    · rw [perform_mk_pure] at hcode
      obtain ⟨-, rfl⟩ := Prod.mk.inj hcode
      rw [htree]
      exact Or.inr (of_perform_emit_error hemit)

end pressFrom

theorem pressScripts_eq (job : ScriptJob) :
    (workbench base minify).pressScripts job =
      pressFrom base minify .script job.buildDir job.output job.version
        (job.files.pathsIn job.source) := rfl

theorem pressStyles_eq (job : StyleJob) :
    (workbench base minify).pressStyles job =
      ((disk base).listWithExtension job.source styleExtension).adapt .filesystem >>= fun paths =>
        if paths.isEmpty then throw (.noStylesheets job.source)
        else pressFrom base minify .stylesheet job.buildDir job.output job.version paths := rfl

theorem of_perform_pressScripts_ok {job : ScriptJob} {a : Artifact}
    (h : perform s ((workbench base minify).pressScripts job) = (.ok a, s')) :
    Delivers base .script job.buildDir job.output job.version s.tree s'.tree a :=
  of_perform_pressFrom_ok (pressScripts_eq job ▸ h)

theorem of_perform_pressScripts_error {job : ScriptJob} {e : CompressError}
    (h : perform s ((workbench base minify).pressScripts job) = (.error e, s')) :
    Fails .script s.tree s'.tree e := by
  rw [pressScripts_eq] at h
  exact of_perform_pressFrom_error h

theorem of_perform_pressStyles_ok {job : StyleJob} {a : Artifact}
    (h : perform s ((workbench base minify).pressStyles job) = (.ok a, s')) :
    Delivers base .stylesheet job.buildDir job.output job.version s.tree s'.tree a := by
  rw [pressStyles_eq] at h
  obtain ⟨paths, m, hlist, hrest⟩ := of_perform_bind_ok h
  have htree := (moves_listWithExtension job.source styleExtension).of_perform
    (of_perform_adapt_ok hlist)
  rw [htree]
  split at hrest
  · cases hrest
  · exact of_perform_pressFrom_ok hrest

theorem of_perform_pressStyles_error {job : StyleJob} {e : CompressError}
    (h : perform s ((workbench base minify).pressStyles job) = (.error e, s')) :
    Fails .stylesheet s.tree s'.tree e := by
  rw [pressStyles_eq] at h
  rcases of_perform_bind_error h with hlist | ⟨paths, m, hlist, hrest⟩
  · obtain ⟨why, rfl, hfail⟩ := of_perform_adapt_error hlist
    exact Or.inl ⟨⟨rfl, action_of_perform_listWithExtension hfail⟩,
      (moves_listWithExtension job.source styleExtension).of_perform hfail |>.symm⟩
  · have htree := (moves_listWithExtension job.source styleExtension).of_perform
      (of_perform_adapt_ok hlist)
    rw [htree]
    split at hrest
    · cases hrest
      exact Or.inl ⟨rfl, rfl⟩
    · exact of_perform_pressFrom_error hrest

end Session
end AssetPress
