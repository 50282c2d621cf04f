import AssetPress.Proofs.Session.Failures
import AssetPress.Proofs.Session.Recording

/-!
# The trail of a compression

What a compression tells and writes, whatever becomes of it.  It tells of every source that it
reads, in their order and up to the first that is no text, and it tells that it has written its
artifact exactly if it has (`Trail`).  For stylesheets the sources are those that are listed, in the
order of their names, and where there are none nothing is told (`StyleTrail`).
-/

namespace AssetPress

/-! ### Events and files -/

/-- The path and the size of a file of which an event tells that it has been written. -/
def Event.written? : Event → Option (Path × Nat)
  | wrote path size => some (path, size)
  | _ => none

/-- The path and the size of a file that has been written. -/
def Writing.extent (w : Writing) : Path × Nat := (w.path, w.content.length)

/-- The path of an artifact and the size that it is told to have. -/
def Artifact.extent (a : Artifact) : Path × Nat := (a.path, a.minifiedSize)

namespace Recording

/-! ### Trails -/

/-- What reading sources answers in tree `t`, and what it tells. -/
inductive Reading (base : Location) (ps : List Path) (t : Tree) :
    Except CompressError (List String) → Tree → List Event → List Writing → Prop
  | all {texts : List String} : (∀ p ∈ ps, t.IsText base p) →
      Reading base ps t (.ok texts) t (ps.map .reading) []
  | upTo {before after : List Path} {p : Path} {why : FileError} : ps = before ++ p :: after →
      (∀ q ∈ before, t.IsText base q) → ¬ t.IsText base p →
      Reading base ps t (.error (.readSource p why)) t ((before ++ [p]).map .reading) []

/-- What a compression of the sources `ps` into an artifact at `path` answers, started in tree `t`,
the tree that it leaves, what it tells and what it writes. -/
inductive Trail (base : Location) (path : Path) (ps : List Path) (t : Tree) :
    Except CompressError Artifact → Tree → List Event → List Writing → Prop
  | unread {before after : List Path} {p : Path} {why : FileError} : ps = before ++ p :: after →
      (∀ q ∈ before, t.IsText base q) → ¬ t.IsText base p →
      Trail base path ps t (.error (.readSource p why)) t ((before ++ [p]).map .reading) []
  | unwritten {e : CompressError} {u : Tree} : (∀ p ∈ ps, t.IsText base p) →
      (∀ p why, e ≠ .readSource p why) → t.AddsDirs u →
      Trail base path ps t (.error e) u (ps.map .reading) []
  | written {a : Artifact} {content : Bytes} {v u : Tree} : (∀ p ∈ ps, t.IsText base p) →
      t.AddsDirs v → v.write base path content = .ok u → a.path = path →
      a.minifiedSize = content.length →
      Trail base path ps t (.ok a) u (ps.map .reading ++ [.wrote path content.length])
        [⟨path, content⟩]

/-- What a compression of the stylesheets in `source` answers, the tree that it leaves, what it
tells and what it writes. -/
inductive StyleTrail (base : Location) (path source : Path) (t : Tree) :
    Except CompressError Artifact → Tree → List Event → List Writing → Prop
  | unlisted {e : CompressError} :
      (∀ p ps, t.pathsIn base source styleExtension ≠ .ok (p :: ps)) →
      (∀ p why, e ≠ .readSource p why) → StyleTrail base path source t (.error e) t [] []
  | listed {d : Location} {ps : List Path} {r : Except CompressError Artifact} {u : Tree}
      {told : List Event} {written : List Writing} :
      t.resolve base false source = .ok (.dir d) → t.Lists source d styleExtension ps →
      ps ≠ [] → Trail base path ps t r u told written →
      StyleTrail base path source t r u told written

/-! ### Reading sources -/

variable {base : Location} {minify : Minifier}

theorem AllOrNone.of_nil {ε α : Type} {t u : Tree} {r : Except ε α} {told : List Event}
    {written : List Writing} (h : AllOrNone [] [] t r u told written) :
    told = [] ∧ written = [] := by
  cases r <;> exact h

theorem notes_readSource (p : Path) :
    Notes (fun t r u told written => r = (t.readText base p).mapError (.readSource p) ∧ u = t ∧
        told = [.reading p] ∧ written = [])
      ((workbench base minify).readSource p) ((Session.workbench base minify).readSource p) := by
  have hread : Notes (fun t r u told written =>
        r = (t.readText base p).mapError (CompressError.readSource p) ∧ u = t ∧ told = [] ∧
          written = [])
      (((disk base).readText p).adapt (CompressError.readSource p))
      (((Session.disk base).readText p).adapt (CompressError.readSource p)) := by
    refine (AllOrNone.adapt _ (quiet_readText p)).of_perform ?_
    intro s r u told written hnone hread
    obtain ⟨rfl, rfl⟩ := hnone.of_nil
    rw [perform_adapt, Session.perform_readText] at hread
    obtain ⟨hanswer, hsession⟩ := Prod.mk.inj hread
    exact ⟨hanswer.symm, (congrArg Session.tree hsession).symm, rfl, rfl⟩
  refine (hread.log (.reading p)).mono ?_
  rintro t r u _ written ⟨_, rfl, hanswer, htree, rfl, hwritten⟩
  exact ⟨hanswer, htree, rfl, hwritten⟩

theorem notes_readSources (ps : List Path) :
    Notes (Reading base ps) ((workbench base minify).readSources ps)
      ((Session.workbench base minify).readSources ps) := by
  -- The first source is told of in any case; the others only follow if it is a text.
  induction ps with
  | nil =>
      refine (notes_mk_pure (.ok [])).mono ?_
      rintro t _ u _ _ ⟨rfl, rfl, rfl, rfl⟩
      exact .all nofun
  | cons p more ih =>
      have hmore : ∀ text, Notes (Reading base more)
          ((workbench base minify).readSources more >>= fun texts => pure (text :: texts))
          ((Session.workbench base minify).readSources more >>= fun texts =>
            pure (text :: texts)) := by
        intro text
        refine Notes.bind ih (fun texts => notes_mk_pure (.ok (text :: texts))) ?_ ?_
        · intro t e u told written hstop
          cases hstop with
          | upTo hsplit hbefore hp => exact .upTo hsplit hbefore hp
        · rintro t texts u told written hall _ v _ _ ⟨rfl, rfl, rfl, rfl⟩
          cases hall with
          | all htexts =>
              rw [List.append_nil]
              exact .all htexts
      refine Notes.bind (notes_readSource p) hmore ?_ ?_
      · rintro t e u _ _ ⟨hanswer, rfl, rfl, rfl⟩
        cases hread : u.readText base p with
        | ok text =>
            rw [hread] at hanswer
            cases hanswer
        | error why =>
            rw [hread] at hanswer
            cases hanswer
            exact .upTo (List.nil_append (p :: more)).symm nofun
              (Tree.not_isText_iff.mpr ⟨why, hread⟩)
      · rintro t text u _ _ ⟨hanswer, rfl, rfl, rfl⟩ r v told written hrest
        have hp : u.IsText base p := ⟨text, Tree.mapError_readText_eq_ok_iff.mp hanswer.symm⟩
        cases hrest with
        | all htexts => exact .all (List.forall_mem_cons.mpr ⟨hp, htexts⟩)
        | upTo hsplit hbefore hq =>
            exact .upTo (congrArg (p :: ·) hsplit) (List.forall_mem_cons.mpr ⟨hp, hbefore⟩) hq

/-! ### Compressions -/

/-- What a compression at a recording workbench does once it knows where its sources are. -/
def pressFrom (base : Location) (minify : Minifier) (kind : AssetKind) (buildDir : Path)
    (output version : String) (ps : List Path) :
    ExceptT CompressError (StateM Recording) Artifact := do
  let texts ← (workbench base minify).readSources ps
  let code ← ExceptT.mk (pure (minify.shrink kind output texts))
  (workbench base minify).emit kind buildDir output version code texts

theorem trail_emit (kind : AssetKind) (buildDir : Path) (output version code : String)
    (texts : List String) :
    Notes (Trail base (buildDir.join (.ofString output)) [])
      ((workbench base minify).emit kind buildDir output version code texts)
      ((Session.workbench base minify).emit kind buildDir output version code texts) := by
  refine (notes_emit base minify kind buildDir output version code texts).of_perform ?_
  intro s r u told written hall hemit
  cases r with
  | error e =>
      obtain ⟨rfl, rfl⟩ := hall
      obtain ⟨hlate, hadds⟩ := Session.of_perform_emit_error hemit
      refine .unwritten nofun ?_ hadds
      rintro p why rfl
      exact hlate
  | ok a =>
      obtain ⟨rfl, rfl⟩ := hall
      obtain ⟨rfl, v, hadds, hwrite⟩ := Session.write_of_perform_emit hemit
      exact .written nofun hadds hwrite rfl rfl

theorem notes_pressFrom (kind : AssetKind) (buildDir : Path) (output version : String)
    (ps : List Path) :
    Notes (Trail base (buildDir.join (.ofString output)) ps)
      (pressFrom base minify kind buildDir output version ps)
      (Session.pressFrom base minify kind buildDir output version ps) := by
  have hrest : ∀ texts, Notes (Trail base (buildDir.join (.ofString output)) [])
      (ExceptT.mk (pure (minify.shrink kind output texts)) >>= fun code =>
        (workbench base minify).emit kind buildDir output version code texts)
      (ExceptT.mk (pure (minify.shrink kind output texts)) >>= fun code =>
        (Session.workbench base minify).emit kind buildDir output version code texts) := by
    intro texts
    refine Notes.bind (notes_mk_pure _)
      (fun code => trail_emit kind buildDir output version code texts) ?_ ?_
    · rintro t e u _ _ ⟨hshrink, rfl, rfl, rfl⟩
      obtain ⟨reason, -, rfl⟩ := Minifier.shrink_eq_error_iff.mp hshrink.symm
      refine .unwritten nofun ?_ (.refl u)
      intro p why hne
      cases kind <;> cases hne
    · rintro t code u _ _ ⟨-, rfl, rfl, rfl⟩ r v told written htrail
      exact htrail
  refine Notes.bind (notes_readSources ps) hrest ?_ ?_
  · intro t e u told written hstop
    cases hstop with
    | upTo hsplit hbefore hp => exact .unread hsplit hbefore hp
  · intro t texts u told written hread r v told' written' htrail
    -- What follows the reading is a trail with no sources of its own.
    cases hread with
    | all hall =>
        cases htrail with
        | unread hsplit => exact absurd hsplit (by simp)
        | unwritten _ he hadds =>
            rw [List.map_nil, List.append_nil]
            exact .unwritten hall he hadds
        | written _ hadds hwrite hpath hsize => exact .written hall hadds hwrite hpath hsize

theorem notes_pressScripts (base : Location) (minify : Minifier) (job : ScriptJob) :
    Notes (Trail base (job.buildDir.join (.ofString job.output)) (job.files.pathsIn job.source))
      ((workbench base minify).pressScripts job)
      ((Session.workbench base minify).pressScripts job) := by
  have hrecorded : (workbench base minify).pressScripts job =
      pressFrom base minify .script job.buildDir job.output
        job.version (job.files.pathsIn job.source) := rfl
  rw [hrecorded, Session.pressScripts_eq]
  exact notes_pressFrom .script job.buildDir job.output job.version _

theorem notes_listing (dir : Path) :
    Notes (fun t r u told written => u = t ∧ told = [] ∧ written = [] ∧
        ((∃ ps, t.pathsIn base dir styleExtension = .ok ps ∧ r = .ok ps) ∨
          ∃ why e, t.pathsIn base dir styleExtension = .error why ∧ r = .error (.filesystem e)))
      (((disk base).listWithExtension dir styleExtension).adapt CompressError.filesystem)
      (((Session.disk base).listWithExtension dir styleExtension).adapt
        CompressError.filesystem) := by
  refine (AllOrNone.adapt _ (quiet_listWithExtension dir styleExtension)).of_perform ?_
  intro s r u told written hnone hlist
  obtain ⟨rfl, rfl⟩ := hnone.of_nil
  rw [perform_adapt, Session.perform_listWithExtension] at hlist
  obtain ⟨hanswer, hsession⟩ := Prod.mk.inj hlist
  refine ⟨(congrArg Session.tree hsession).symm, rfl, rfl, ?_⟩
  rw [← hanswer]
  cases s.tree.pathsIn base dir styleExtension with
  | error why => exact Or.inr ⟨why, _, rfl, rfl⟩
  | ok ps => exact Or.inl ⟨ps, rfl, rfl⟩

theorem notes_pressListed (job : StyleJob) (ps : List Path) :
    Notes
      (fun t r u told written => ps = [] ∧ r = .error (.noStylesheets job.source) ∧ u = t ∧
          told = [] ∧ written = [] ∨
        ps ≠ [] ∧ Trail base (job.buildDir.join (.ofString job.output)) ps t r u told written)
      (if ps.isEmpty then throw (CompressError.noStylesheets job.source)
        else pressFrom base minify .stylesheet job.buildDir
          job.output job.version ps)
      (if ps.isEmpty then throw (CompressError.noStylesheets job.source)
        else Session.pressFrom base minify .stylesheet
          job.buildDir job.output job.version ps) := by
  cases ps with
  | nil =>
      refine (notes_mk_pure (.error (CompressError.noStylesheets job.source))).mono ?_
      intro t r u told written hnone
      exact Or.inl ⟨rfl, hnone⟩
  | cons p more =>
      refine (notes_pressFrom .stylesheet job.buildDir job.output job.version (p :: more)).mono ?_
      intro t r u told written htrail
      exact Or.inr ⟨List.cons_ne_nil p more, htrail⟩

theorem notes_pressStyles (base : Location) (minify : Minifier) (job : StyleJob) :
    Notes (StyleTrail base (job.buildDir.join (.ofString job.output)) job.source)
      ((workbench base minify).pressStyles job)
      ((Session.workbench base minify).pressStyles job) := by
  have hrecorded : (workbench base minify).pressStyles job =
      ((disk base).listWithExtension job.source styleExtension).adapt .filesystem >>= fun paths =>
        if paths.isEmpty then throw (.noStylesheets job.source)
        else pressFrom base minify .stylesheet job.buildDir job.output
          job.version paths := rfl
  rw [hrecorded, Session.pressStyles_eq]
  refine Notes.bind (notes_listing job.source) (notes_pressListed job) ?_ ?_
  · rintro t e u _ _ ⟨rfl, rfl, rfl, ⟨ps, -, hanswer⟩ | ⟨why, e', hlist, hanswer⟩⟩
    · cases hanswer
    · cases hanswer
      refine .unlisted ?_ nofun
      intro p ps hpaths
      rw [hlist] at hpaths
      cases hpaths
  · rintro t ps u _ _ ⟨rfl, rfl, rfl, ⟨ps', hlist, hanswer⟩ | ⟨why, e', -, hanswer⟩⟩ r v told
      written hrest
    · cases hanswer
      rcases hrest with ⟨rfl, rfl, rfl, rfl, rfl⟩ | ⟨hne, htrail⟩
      · refine .unlisted ?_ nofun
        intro p ps hpaths
        rw [hlist] at hpaths
        cases hpaths
      · rcases Tree.lists_of_pathsIn (by decide) hlist with ⟨d, hdir, hlists⟩ | ⟨_, _, _, -, hnil⟩
        · exact .listed hdir hlists hne htrail
        · exact absurd hnil hne
    · cases hanswer

/-! ### What trails tell -/

section trails
variable {path source p : Path} {ps : List Path} {t u : Tree} {a : Artifact} {why : FileError}
  {r : Except CompressError Artifact} {told : List Event} {written : List Writing}

theorem filterMap_reading (ps : List Path) :
    (ps.map Event.reading).filterMap Event.written? = [] := by
  rw [List.filterMap_eq_nil_iff]
  intro e he
  obtain ⟨p, -, rfl⟩ := List.mem_map.mp he
  rfl

/-- It is told of all files that are written, and of no others. -/
theorem Trail.filterMap_told (h : Trail base path ps t r u told written) :
    told.filterMap Event.written? = written.map Writing.extent := by
  cases h with
  | unread => exact filterMap_reading _
  | unwritten => exact filterMap_reading _
  | written =>
      rw [List.filterMap_append, filterMap_reading]
      rfl

theorem Trail.map_extent (h : Trail base path ps t (.ok a) u told written) :
    written.map Writing.extent = [a.extent] := by
  cases h with
  | written _ _ _ hpath hsize => rw [List.map_singleton, Artifact.extent, hpath, hsize]; rfl

/-- A source that cannot be read is the last of which is told. -/
theorem Trail.getLast?_told (h : Trail base path ps t (.error (.readSource p why)) u told written) :
    told.getLast? = some (.reading p) := by
  cases h with
  | unread => simp
  | unwritten _ hne => exact absurd rfl (hne p why)

theorem StyleTrail.filterMap_told (h : StyleTrail base path source t r u told written) :
    told.filterMap Event.written? = written.map Writing.extent := by
  cases h with
  | unlisted => rfl
  | listed _ _ _ htrail => exact htrail.filterMap_told

theorem StyleTrail.map_extent (h : StyleTrail base path source t (.ok a) u told written) :
    written.map Writing.extent = [a.extent] := by
  cases h with
  | listed _ _ _ htrail => exact htrail.map_extent

theorem StyleTrail.getLast?_told
    (h : StyleTrail base path source t (.error (.readSource p why)) u told written) :
    told.getLast? = some (.reading p) := by
  cases h with
  | unlisted _ hne => exact absurd rfl (hne p why)
  | listed _ _ _ htrail => exact htrail.getLast?_told

end trails

end Recording
end AssetPress
