import AssetPress.Proofs.Session.Jobs
import AssetPress.Proofs.Session.Log
import AssetPress.Proofs.Tree.Directory
import AssetPress.Proofs.Tree.Listing

/-!
# Doing things again in a session

What has been done once can be done again in every later tree without links: a directory that has
been made is passed over (`perform_ensureDir_again`), and a file is written to the same place.  A
compression that succeeds makes directories and then writes its artifact, and gives the same
artifact wherever the directories are there and it reads the same sources (`Stage`), so in
particular where its artifact has been written before (`Settles`).
-/

namespace AssetPress

/-! ### What is read from a tree -/

namespace Tree

/-- The text of the regular file that a path leads to, or why there is none. -/
def readText (t : Tree) (base : Location) (p : Path) : Except FileError String :=
  match t.read base p with
  | .error why => .error ⟨.read, p, why.message⟩
  | .ok bytes =>
      match Utf8.decode? bytes with
      | some text => .ok text
      | none => .error ⟨.read, p, notText⟩

/-- The sources that are texts in `t` are the same texts in `w`. -/
def SameTexts (base : Location) (ps : List Path) (t w : Tree) : Prop :=
  ∀ p ∈ ps, ∀ text, t.readText base p = .ok text → w.readText base p = .ok text

/-- A later tree without links. -/
structure After (u w : Tree) : Prop where
  keeps : u.Keeps w
  noLinks : w.NoLinks

theorem readText_eq_ok_iff {t : Tree} {base : Location} {p : Path} {text : String} :
    t.readText base p = .ok text ↔ ∃ d n content,
      t.resolve base false p = .ok (.file d n content) ∧ Utf8.decode? content = some text := by
  unfold readText read
  cases t.resolve base false p with
  | error why => simp [bind, Except.bind]
  | ok spot =>
      cases spot with
      | dir l => simp [bind, Except.bind, readSpot]
      | vacant d n => simp [bind, Except.bind, readSpot]
      | file d n content =>
          simp only [bind, Except.bind, readSpot]
          constructor
          · intro h
            split at h
            case _ text' htext =>
              cases h
              exact ⟨d, n, content, rfl, htext⟩
            case _ => cases h
          · rintro ⟨_, _, _, hfile, htext⟩
            cases hfile
            rw [htext]

theorem SameTexts.map_eq {base : Location} {ps : List Path} {t w : Tree} {texts : List String}
    (h : SameTexts base ps t w) (htexts : ps.map (t.readText base) = texts.map .ok) :
    ps.map (w.readText base) = texts.map .ok := by
  rw [← htexts]
  refine List.map_congr_left fun p hp => ?_
  have hmem : t.readText base p ∈ texts.map Except.ok := htexts ▸ List.mem_map_of_mem hp
  obtain ⟨text, -, htext⟩ := List.mem_map.mp hmem
  rw [h p hp text htext.symm, htext]

end Tree

namespace Session

variable {base : Location} {minify : Minifier} {s s' z : Session} {p : Path}

theorem perform_readText (s : Session) (p : Path) :
    perform s ((disk base).readText p) = (s.tree.readText base p, s) := by
  have hread : perform s ((disk base).read p) = (s.tree.read base p, s) := rfl
  unfold Tree.readText Disk.readText
  rw [perform_bind, perform_adapt, hread]
  cases s.tree.read base p with
  | error why => rfl
  | ok bytes =>
      rw [show (Except.ok bytes).mapError _ = (Except.ok bytes : Except FileError Bytes) from rfl]
      simp only
      cases Utf8.decode? bytes <;> rfl

theorem perform_readSource (s : Session) (p : Path) :
    perform s ((workbench base minify).readSource p) =
      ((s.tree.readText base p).mapError (.readSource p),
        { s with events := s.events ++ [.reading p] }) := by
  show perform s (liftM (log (.reading p)) >>= fun _ =>
    ((disk base).readText p).adapt (CompressError.readSource p)) = _
  rw [perform_bind, perform_lift]
  simp only
  rw [perform_adapt, perform_readText]
  rfl

theorem of_perform_readSources_ok {ps : List Path} {texts : List String}
    (h : perform s ((workbench base minify).readSources ps) = (.ok texts, s')) :
    ps.map (s.tree.readText base) = texts.map .ok := by
  induction ps generalizing s texts with
  | nil =>
      cases h
      rfl
  | cons p more ih =>
      obtain ⟨text, m, hread, hrest⟩ := of_perform_bind_ok h
      obtain ⟨others, m', hmore, hend⟩ := of_perform_bind_ok hrest
      cases hend
      rw [perform_readSource] at hread
      cases htext : s.tree.readText base p with
      | error why =>
          rw [htext] at hread
          cases hread
      | ok first =>
          rw [htext] at hread
          cases hread
          rw [List.map_cons, List.map_cons, htext, ← ih hmore]

theorem perform_readSources_of_map {ps : List Path} {texts : List String}
    (h : ps.map (s.tree.readText base) = texts.map .ok) :
    perform s ((workbench base minify).readSources ps) =
      (.ok texts, { s with events := s.events ++ ps.map .reading }) := by
  induction ps generalizing s texts with
  | nil =>
      rw [List.map_eq_nil_iff.mp h.symm]
      simp [Workbench.readSources]
  | cons p more ih =>
      cases texts with
      | nil => cases h
      | cons text others =>
          obtain ⟨htext, hothers⟩ := List.cons.inj h
          have hmore := ih (s := { s with events := s.events ++ [.reading p] }) hothers
          have hfirst : perform s ((workbench base minify).readSource p) =
              (.ok text, { s with events := s.events ++ [.reading p] }) := by
            rw [perform_readSource, htext]
            rfl
          rw [Workbench.readSources, perform_bind, hfirst]
          simp only
          rw [perform_bind, hmore]
          simp

theorem perform_listWithExtension (s : Session) (dir : Path) (extension : Bytes) :
    perform s ((disk base).listWithExtension dir extension) =
      ((s.tree.pathsIn base dir extension).mapError fun why =>
        ⟨.list, dir, "IO error for operation on " ++ dir.display ++ ": " ++ why.message⟩, s) := by
  unfold Disk.listWithExtension Tree.pathsIn
  rw [perform_bind, perform_adapt]
  have hlist : perform s ((disk base).list dir) =
      ((s.tree.list base dir).map (List.map listed), s) := by
    show ((do return (← s.tree.list base dir).map listed : Except OsError (List Listed)), s) = _
    cases s.tree.list base dir <;> rfl
  rw [hlist]
  cases s.tree.list base dir <;> rfl

/-! ### Directories -/

theorem lineage_eq (p : Path) : p.lineage = [] ∨ ∃ above, p.lineage = p :: above := by
  unfold Path.lineage
  cases p.allStems with
  | nil => exact Or.inl rfl
  | cons _ above => exact Or.inr ⟨above, rfl⟩

theorem perform_unlessDir (s : Session) (p : Path) (why : OsError) :
    perform s ((disk base).unlessDir p why) =
      (if s.tree.isDir base p then .ok () else .error why, s) := by
  unfold Disk.unlessDir
  rw [perform_bind, perform_lift]
  show perform s (if s.tree.isDir base p = true then _ else _) = _
  split <;> rfl

theorem isDir_of_perform_unlessDir {why : OsError}
    (h : perform s ((disk base).unlessDir p why) = (.ok (), s')) :
    s'.tree.isDir base p = true := by
  rw [perform_unlessDir] at h
  split at h
  case isTrue hdir =>
    cases h
    exact hdir
  case isFalse => cases h

theorem isDir_of_perform_makeDir_orElse {f : OsError → ExceptT OsError (StateM Session) Unit}
    (ht : s.tree.NoLinks) (hb : s.tree.get? base = some .dir)
    (hf : ∀ why, perform s (f why) = (.ok (), s') → s'.tree.isDir base p = true)
    (h : perform s (tryCatch ((disk base).makeDir p) f) = (.ok (), s')) :
    s'.tree.isDir base p = true := by
  rw [perform_tryCatch, perform_makeDir] at h
  cases hmake : s.tree.makeDir base p with
  | error why =>
      rw [hmake] at h
      exact hf why h
  | ok u =>
      rw [hmake] at h
      cases h
      exact Tree.isDir_of_makeDir ht hb hmake

theorem isDir_of_perform_makeDirs {above : List Path} (ht : s.tree.NoLinks)
    (hb : s.tree.get? base = some .dir)
    (h : perform s ((disk base).makeDirs (p :: above)) = (.ok (), s')) :
    s'.tree.isDir base p = true := by
  unfold Disk.makeDirs at h
  refine isDir_of_perform_makeDir_orElse ht hb (fun why hwhy => ?_) h
  split at hwhy
  case isTrue =>
    obtain ⟨_, m, habove, hagain⟩ := of_perform_bind_ok hwhy
    have hadds := (moves_makeDirs above).of_perform habove
    exact isDir_of_perform_makeDir_orElse (hadds.noLinks ht) (hadds.keeps.get?_dir hb)
      (fun _ => isDir_of_perform_unlessDir) hagain
  case isFalse => exact isDir_of_perform_unlessDir hwhy

theorem perform_makeDirs_of_isDir {above : List Path} (h : z.tree.isDir base p = true) :
    perform z ((disk base).makeDirs (p :: above)) = (.ok (), z) := by
  unfold Disk.makeDirs
  rw [perform_tryCatch, perform_makeDir, Tree.makeDir_of_isDir h]
  simp only [reduceCtorEq, if_false]
  rw [perform_unlessDir, if_pos h]

theorem perform_ensureDir_of_isDir (h : z.tree.isDir base p = true) :
    perform z ((disk base).ensureDir p) = (.ok (), z) := by
  unfold Disk.ensureDir
  rcases lineage_eq p with hnil | ⟨above, hcons⟩
  · rw [hnil]
    rfl
  · rw [hcons, perform_adapt, perform_makeDirs_of_isDir h]
    rfl

/-- A directory that has been made is passed over in every later tree. -/
theorem perform_ensureDir_again (ht : s.tree.NoLinks) (hb : s.tree.get? base = some .dir)
    (h : perform s ((disk base).ensureDir p) = (.ok (), s')) (hz : s'.tree.After z.tree) :
    perform z ((disk base).ensureDir p) = (.ok (), z) := by
  have hmade := of_perform_adapt_ok h
  rcases lineage_eq p with hnil | ⟨above, hcons⟩
  · rw [Disk.ensureDir, hnil]
    rfl
  · rw [hcons] at hmade
    exact perform_ensureDir_of_isDir (hz.keeps.isDir (isDir_of_perform_makeDirs ht hb hmade))

theorem perform_ensureParent_again (ht : s.tree.NoLinks) (hb : s.tree.get? base = some .dir)
    (h : perform s (ensureParent base p) = (.ok (), s')) (hz : s'.tree.After z.tree) :
    perform z (ensureParent base p) = (.ok (), z) := by
  unfold ensureParent at h ⊢
  cases hp : p.parent? with
  | none => rfl
  | some above =>
      rw [hp] at h
      simp only at h ⊢
      split at h
      case isTrue habove => rw [if_pos habove, perform_pure]
      case isFalse habove =>
        rw [if_neg habove]
        exact perform_ensureDir_again ht hb h hz

/-! ### Files -/

/-- In every session whose tree satisfies `P` the task `x` answers `a` and puts `content` at
`l`. -/
def Rewrites {ε α : Type} (P : Tree → Prop) (x : ExceptT ε (StateM Session) α) (a : α)
    (l : Location) (content : Bytes) : Prop :=
  ∀ z, P z.tree → ∃ z', perform z x = (.ok a, z') ∧ z.tree.Puts z'.tree l content

/-- The task `x` has answered `a` and taken tree `t` to tree `u` by adding directories and putting
`content` at `l`, and does so again in every later tree that satisfies `P`. -/
def Settles {ε α : Type} (P : Tree → Prop) (x : ExceptT ε (StateM Session) α) (a : α)
    (t u : Tree) (l : Location) (content : Bytes) : Prop :=
  (∃ v, t.AddsDirs v ∧ v.Puts u l content) ∧
    Rewrites (fun w => u.After w ∧ P w) x a l content

/-- Makes the directories that the artifact at path `p` in build directory `dir` needs. -/
def prepare (base : Location) (dir p : Path) : ExceptT FileError (StateM Session) Unit :=
  (disk base).ensureDir dir >>= fun _ => ensureParent base p

/-- Making the directories that the artifact at path `p` needs takes tree `t` to tree `v`. -/
def Prepares (base : Location) (dir p : Path) (t v : Tree) : Prop :=
  ∃ s s' : Session, s.tree = t ∧ s'.tree = v ∧ perform s (prepare base dir p) = (.ok (), s')

section prepare
variable {dir : Path} {t v w : Tree}

theorem agree_prepare (base : Location) (dir p : Path) :
    Agree (prepare base dir p) (prepare base dir p) :=
  (agreeOn_ensureDir lasts_sameTree base dir).bind fun _ =>
    agreeOn_ensureParent lasts_sameTree base p

/-- Every session with the tree is taken to the same tree. -/
theorem Prepares.exists_perform (h : Prepares base dir p t v) (hs : s.tree = t) :
    ∃ s', perform s (prepare base dir p) = (.ok (), s') ∧ s'.tree = v := by
  obtain ⟨m, m', hm, rfl, hprepare⟩ := h
  obtain ⟨hanswer, htree⟩ := agree_prepare base dir p s m (hs.trans hm.symm)
  rw [hprepare] at hanswer htree
  exact ⟨(perform s (prepare base dir p)).2, Prod.ext hanswer rfl, htree⟩

theorem Prepares.addsDirs (h : Prepares base dir p t v) : t.AddsDirs v := by
  obtain ⟨m, m', rfl, rfl, hprepare⟩ := h
  have hmoves : Moves Tree.AddsDirs (prepare base dir p) :=
    Moves.bind (fun _ _ _ => .trans) (moves_ensureDir dir) fun _ => moves_ensureParent p
  exact hmoves.of_perform hprepare

theorem Prepares.again (ht : t.NoLinks) (hb : t.get? base = some .dir)
    (h : Prepares base dir p t v) (hw : v.After w) : Prepares base dir p w w := by
  obtain ⟨m, m', rfl, rfl, hprepare⟩ := h
  obtain ⟨_, m₁, hdir, hparent⟩ := of_perform_bind_ok hprepare
  have hadds := (moves_ensureDir dir).of_perform hdir
  have hkeeps := ((moves_ensureParent p).of_perform hparent).keeps
  refine ⟨.ofTree w, .ofTree w, rfl, rfl, ?_⟩
  rw [prepare, perform_bind,
    perform_ensureDir_again (z := .ofTree w) ht hb hdir ⟨hkeeps.trans hw.keeps, hw.noLinks⟩]
  exact perform_ensureParent_again (z := .ofTree w) (hadds.noLinks ht) (hadds.keeps.get?_dir hb)
    hparent hw

end prepare

/-- The task `x` answers `a` and takes tree `t` to tree `u`: it takes `t` to `v` by making the
directories that the artifact at path `p` needs, and then puts `content` at the place in directory
`d` to which the path leads.  It does the same in every later tree that satisfies `P` and has these
directories, if the place still admits a file. -/
structure Stage (base : Location) (dir p : Path) (P : Tree → Prop)
    (x : ExceptT CompressError (StateM Session) Artifact) (a : Artifact) (t v u : Tree)
    (d : Location) (n : Name) (content : Bytes) : Prop where
  prepares : Prepares base dir p t v
  puts : v.Puts u (d ++ [n]) content
  leads : v.Leads base p d n
  again : ∀ z : Session, Prepares base dir p z.tree z.tree → v.Keeps z.tree →
    z.tree.Admits (d ++ [n]) → P z.tree →
      ∃ z', perform z x = (.ok a, z') ∧ z.tree.Puts z'.tree (d ++ [n]) content

theorem Stage.settles {dir : Path} {P : Tree → Prop}
    {x : ExceptT CompressError (StateM Session) Artifact} {a : Artifact} {t v u : Tree}
    {d : Location} {n : Name} {content : Bytes} (ht : t.NoLinks) (hb : t.get? base = some .dir)
    (h : Stage base dir p P x a t v u d n content) : Settles P x a t u (d ++ [n]) content := by
  refine ⟨⟨v, h.prepares.addsDirs, h.puts⟩, fun z ⟨hafter, hz⟩ => ?_⟩
  have hkeeps : v.Keeps z.tree := h.puts.keeps.trans hafter.keeps
  exact h.again z (h.prepares.again ht hb ⟨hkeeps, hafter.noLinks⟩) hkeeps
    (Or.inr (hafter.keeps.exists_file h.puts.get?_self)) hz

theorem store_eq (buildDir : Path) (output : String) (content : Bytes) :
    (workbench base minify).store buildDir output content =
      prepare base buildDir (buildDir.join (.ofString output)) >>= fun _ =>
        (((disk base).write (buildDir.join (.ofString output)) content).adapt fun why =>
          ⟨.write, buildDir.join (.ofString output), why.message⟩) >>= fun _ =>
            liftM (log (.wrote (buildDir.join (.ofString output)) content.length)) >>= fun _ =>
              pure (buildDir.join (.ofString output)) := by
  have hsave : (disk base).save (buildDir.join (.ofString output)) content = _ := save_eq _ _
  unfold prepare Workbench.store
  rw [bind_assoc]
  refine bind_congr fun _ => ?_
  rw [show (workbench base minify).disk.save _ _ = _ from hsave, bind_assoc]
  rfl

theorem exists_stage_emit {kind : AssetKind} {buildDir : Path} {output version code : String}
    {texts : List String} {a : Artifact} (hb : s.tree.get? base = some .dir)
    (h : perform s ((workbench base minify).emit kind buildDir output version code texts) =
      (.ok a, s')) :
    ∃ v d n, Stage base buildDir (buildDir.join (.ofString output)) (fun _ => True)
      ((workbench base minify).emit kind buildDir output version code texts) a s.tree v s'.tree d n
        (Workbench.content version code) := by
  obtain ⟨path, m, hstore, hend⟩ := of_perform_bind_ok h
  cases hend
  have hstore := of_perform_adapt_ok hstore
  rw [store_eq] at hstore
  obtain ⟨_, m₁, hprepare, hrest⟩ := of_perform_bind_ok hstore
  obtain ⟨_, m₂, hwrite, hlog⟩ := of_perform_bind_ok hrest
  cases hlog
  have hprepares : Prepares base buildDir _ s.tree m₁.tree := ⟨s, m₁, rfl, rfl, hprepare⟩
  have hwrite := of_perform_adapt_ok hwrite
  rw [perform_write] at hwrite
  cases hw : m₁.tree.write base (buildDir.join (.ofString output))
    (Workbench.content version code) with
  | error why =>
      rw [hw] at hwrite
      cases hwrite
  | ok u =>
      rw [hw] at hwrite
      cases hwrite
      obtain ⟨d, n, hputs, hleads, hagain⟩ :=
        Tree.exists_puts_leads_of_write (hprepares.addsDirs.keeps.get?_dir hb) hw
      refine ⟨m₁.tree, d, n, hprepares, hputs, hleads, fun z hz hkeeps hadmits _ => ?_⟩
      obtain ⟨z₁, hpassed, hz₁⟩ := hz.exists_perform rfl
      obtain ⟨x, hrewritten, hputs'⟩ := hagain z.tree hkeeps hadmits
      refine ⟨⟨x, z₁.events ++ [.wrote (buildDir.join (.ofString output))
        (Workbench.content version code).length]⟩, ?_, hputs'⟩
      rw [Workbench.emit, perform_bind, perform_adapt, store_eq, perform_bind, hpassed]
      simp only
      rw [perform_bind, perform_adapt, perform_write, hz₁, hrewritten]
      rfl

/-! ### Jobs -/

theorem exists_stage_pressFrom {kind : AssetKind} {buildDir : Path} {output version : String}
    {ps : List Path} {a : Artifact} (hb : s.tree.get? base = some .dir)
    (h : perform s (pressFrom base minify kind buildDir output version ps) = (.ok a, s')) :
    ∃ v d n content, Stage base buildDir (buildDir.join (.ofString output))
      (Tree.SameTexts base ps s.tree) (pressFrom base minify kind buildDir output version ps) a
      s.tree v s'.tree d n content := by
  obtain ⟨texts, m, hread, hrest⟩ := of_perform_bind_ok h
  obtain ⟨code, m', hshrink, hemit⟩ := of_perform_bind_ok hrest
  have htree := (moves_readSources ps).of_perform hread
  rw [perform_mk_pure] at hshrink
  obtain ⟨hcode, rfl⟩ := Prod.mk.inj hshrink
  obtain ⟨v, d, n, hstage⟩ := exists_stage_emit (htree ▸ hb) hemit
  rw [← htree] at hstage
  refine ⟨v, d, n, _, hstage.prepares, hstage.puts, hstage.leads,
    fun z hz hkeeps hadmits hsame => ?_⟩
  have htexts := hsame.map_eq (of_perform_readSources_ok hread)
  obtain ⟨z', hemitted, hputs⟩ :=
    hstage.again { z with events := z.events ++ ps.map .reading } hz hkeeps hadmits trivial
  refine ⟨z', ?_, hputs⟩
  rw [pressFrom, perform_bind, perform_readSources_of_map htexts]
  simp only
  rw [perform_bind, perform_mk_pure, hcode]
  exact hemitted

theorem exists_stage_pressScripts {job : ScriptJob} {a : Artifact}
    (hb : s.tree.get? base = some .dir)
    (h : perform s ((workbench base minify).pressScripts job) = (.ok a, s')) :
    ∃ v d n content, Stage base job.buildDir (job.buildDir.join (.ofString job.output))
      (Tree.SameTexts base (job.files.pathsIn job.source) s.tree)
      ((workbench base minify).pressScripts job) a s.tree v s'.tree d n content := by
  rw [pressScripts_eq] at h ⊢
  exact exists_stage_pressFrom hb h

/-- A compression of scripts gives its artifact again wherever the scripts are the same. -/
theorem exists_settles_pressScripts {job : ScriptJob} {a : Artifact} (ht : s.tree.NoLinks)
    (hb : s.tree.get? base = some .dir)
    (h : perform s ((workbench base minify).pressScripts job) = (.ok a, s')) :
    ∃ l content, Settles (Tree.SameTexts base (job.files.pathsIn job.source) s.tree)
      ((workbench base minify).pressScripts job) a s.tree s'.tree l content := by
  obtain ⟨v, d, n, content, hstage⟩ := exists_stage_pressScripts hb h
  exact ⟨d ++ [n], content, hstage.settles ht hb⟩

theorem perform_pressStyles_of_pathsIn {job : StyleJob} {paths : List Path}
    (h : s.tree.pathsIn base job.source styleExtension = .ok paths) :
    perform s ((workbench base minify).pressStyles job) =
      if paths = [] then (.error (.noStylesheets job.source), s)
      else perform s
        (pressFrom base minify .stylesheet job.buildDir job.output job.version paths) := by
  rw [pressStyles_eq, perform_bind, perform_adapt, perform_listWithExtension, h]
  show perform s (if paths.isEmpty = true then _ else _) = _
  cases paths with
  | nil => rfl
  | cons p more => rfl

theorem exists_pathsIn_of_pressStyles {job : StyleJob} {a : Artifact}
    (h : perform s ((workbench base minify).pressStyles job) = (.ok a, s')) :
    ∃ paths, s.tree.pathsIn base job.source styleExtension = .ok paths ∧ paths ≠ [] ∧
      perform s (pressFrom base minify .stylesheet job.buildDir job.output job.version paths) =
        (.ok a, s') := by
  cases hpaths : s.tree.pathsIn base job.source styleExtension with
  | error why =>
      rw [pressStyles_eq, perform_bind, perform_adapt, perform_listWithExtension, hpaths] at h
      cases h
  | ok paths =>
      rw [perform_pressStyles_of_pathsIn hpaths] at h
      split at h
      case isTrue => cases h
      case isFalse hne => exact ⟨paths, rfl, hne, h⟩

theorem exists_stage_pressStyles {job : StyleJob} {a : Artifact}
    (hb : s.tree.get? base = some .dir)
    (h : perform s ((workbench base minify).pressStyles job) = (.ok a, s')) :
    ∃ paths v d n content, s.tree.pathsIn base job.source styleExtension = .ok paths ∧
      Stage base job.buildDir (job.buildDir.join (.ofString job.output))
        (fun w => w.pathsIn base job.source styleExtension = .ok paths ∧
          Tree.SameTexts base paths s.tree w)
        ((workbench base minify).pressStyles job) a s.tree v s'.tree d n content := by
  obtain ⟨paths, hpaths, hne, hpressed⟩ := exists_pathsIn_of_pressStyles h
  obtain ⟨v, d, n, content, hstage⟩ := exists_stage_pressFrom hb hpressed
  refine ⟨paths, v, d, n, content, hpaths, hstage.prepares, hstage.puts, hstage.leads,
    fun z hz hkeeps hadmits ⟨hsame, htexts⟩ => ?_⟩
  rw [perform_pressStyles_of_pathsIn hsame, if_neg hne]
  exact hstage.again z hz hkeeps hadmits htexts

theorem exists_settles_pressStyles {job : StyleJob} {a : Artifact} (ht : s.tree.NoLinks)
    (hb : s.tree.get? base = some .dir)
    (h : perform s ((workbench base minify).pressStyles job) = (.ok a, s')) :
    ∃ paths l content, s.tree.pathsIn base job.source styleExtension = .ok paths ∧
      Settles (fun w => w.pathsIn base job.source styleExtension = .ok paths ∧
          Tree.SameTexts base paths s.tree w)
        ((workbench base minify).pressStyles job) a s.tree s'.tree l content := by
  obtain ⟨paths, v, d, n, content, hpaths, hstage⟩ := exists_stage_pressStyles hb h
  exact ⟨paths, d ++ [n], content, hpaths, hstage.settles ht hb⟩

end Session
end AssetPress
