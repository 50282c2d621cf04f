import AssetPress.Proofs.Build.Calls
import AssetPress.Proofs.Build.Equation
import AssetPress.Proofs.Session.Trail

/-!
# The log of a build is a true trace

What a build tells, from its opening to the point at which it ends, is what it has done (`Trace`):
nothing if the request is refused, else the trail of its scripts and, once their artifact is
written, that no stylesheets were asked for or the trail of these.  It is proved of the build as it
is, next to which the same build runs at a workbench that records what is written.  So what is told
of written files is true of every build, also of those that fail (`trace_of_build`).
-/

namespace AssetPress

namespace Recording

/-- What the stylesheet half of a build answers, started in tree `t`, the tree that it leaves, what
it tells and what it writes. -/
inductive StylesTrace (base : Location) (r : Request) (t : Tree) :
    Except CompressError (List Artifact) → Tree → List Event → List Writing → Prop
  | skipped : r.styleSource = none → StylesTrace base r t (.ok []) t [.noStyles] []
  | pressed {dir : Path} {result : Except CompressError Artifact} {u : Tree} {told : List Event}
      {written : List Writing} : r.styleSource = some dir →
      StyleTrail base (r.buildDir.join (.ofString (styleOutput r.version))) dir t result u told
        written →
      StylesTrace base r t (result.map fun a => [a]) u
        (.pressingStyles dir (styleOutput r.version) :: told) written

/-- What a build of a request in tree `t` answers, the tree that it leaves, what it tells and what
it writes. -/
inductive Trace (base : Location) (r : Request) (t : Tree) :
    Except BuildError Report → Tree → List Event → List Writing → Prop
  | refused {why : BuildError} : r.validate = .error why → Trace base r t (.error why) t [] []
  | stopped {e : CompressError} {u : Tree} {told : List Event} {written : List Writing} :
      r.validate = .ok () →
      Trail base (r.buildDir.join (.ofString (scriptOutput r.version)))
        (SourceOrder.standard.pathsIn r.scripts) t (.error e) u told written →
      Trace base r t (.error (.compress e)) u (r.opening ++ told) written
  | went {a : Artifact} {styles : Except CompressError (List Artifact)} {u v : Tree}
      {told told' : List Event} {written written' : List Writing} : r.validate = .ok () →
      Trail base (r.buildDir.join (.ofString (scriptOutput r.version)))
        (SourceOrder.standard.pathsIn r.scripts) t (.ok a) v told written →
      StylesTrace base r v styles u told' written' →
      Trace base r t
        ((styles.map fun more => ⟨r.version, r.buildDir, a :: more⟩).mapError .compress) u
        (r.opening ++ (told ++ told')) (written ++ written')

/-! ### Builds -/

variable {base : Location} {r : Request}

theorem notes_buildStyles (base : Location) (minify : Minifier) (r : Request) :
    Notes (StylesTrace base r) (r.buildStyles log (workbench base minify).press)
      (r.buildStyles Session.log (Session.workbench base minify).press) := by
  unfold Request.buildStyles
  cases hstyles : r.styleSource with
  | none =>
      refine ((notes_mk_pure (.ok [])).log .noStyles).mono ?_
      rintro t _ u _ _ ⟨_, rfl, rfl, rfl, rfl, rfl⟩
      exact .skipped hstyles
  | some dir =>
      have hpress := (notes_pressStyles base minify (r.styleJob dir)).map fun a => [a]
      refine (hpress.log (.pressingStyles dir (styleOutput r.version))).mono ?_
      rintro t _ u _ written ⟨told, rfl, result, rfl, htrail⟩
      exact .pressed hstyles htrail

theorem notes_afterOpening (base : Location) (minify : Minifier) (hv : r.validate = .ok ()) :
    Notes
      (fun t result u told written =>
        Trace base r t (result.mapError .compress) u (r.opening ++ told) written)
      (do
        let script ← (workbench base minify).press.scripts r.scriptJob
        let styles ← r.buildStyles log (workbench base minify).press
        pure (⟨r.version, r.buildDir, script :: styles⟩ : Report))
      (do
        let script ← (Session.workbench base minify).press.scripts r.scriptJob
        let styles ← r.buildStyles Session.log (Session.workbench base minify).press
        pure (⟨r.version, r.buildDir, script :: styles⟩ : Report)) := by
  have hstyles : ∀ a : Artifact, _ := fun a =>
    (notes_buildStyles base minify r).map fun more => Report.mk r.version r.buildDir (a :: more)
  refine Notes.bind (notes_pressScripts base minify r.scriptJob) hstyles ?_ ?_
  · intro t e u told written htrail
    exact .stopped hv htrail
  · rintro t a u told written htrail _ v told' written' ⟨styles, rfl, hstyles⟩
    exact .went hv htrail hstyles

theorem notes_buildAll (base : Location) (minify : Minifier) (hv : r.validate = .ok ()) :
    Notes (fun t result u told written =>
        Trace base r t (result.mapError .compress) u told written)
      (r.buildAll log (workbench base minify).press)
      (r.buildAll Session.log (Session.workbench base minify).press) := by
  have hrest := (notes_afterOpening base minify hv).log
    (.pressingScripts r.scripts (scriptOutput r.version))
  unfold Request.buildAll
  by_cases hsemantic : SemanticVersion.isSemantic r.version = true
  · have hopening : r.opening = [.pressingScripts r.scripts (scriptOutput r.version)] := by
      rw [Request.opening, if_pos hsemantic]
      rfl
    simp only [hsemantic, if_true]
    refine hrest.mono ?_
    rintro t result u _ written ⟨told, rfl, htrace⟩
    rw [hopening] at htrace
    exact htrace
  · have hopening : r.opening =
        [.unusualVersion r.version, .pressingScripts r.scripts (scriptOutput r.version)] := by
      rw [Request.opening, if_neg hsemantic]
      rfl
    simp only [hsemantic, if_false, Bool.false_eq_true]
    refine (hrest.log (.unusualVersion r.version)).mono ?_
    rintro t result u _ written ⟨_, rfl, told, rfl, htrace⟩
    rw [hopening] at htrace
    exact htrace

theorem notes_build (base : Location) (minify : Minifier) (r : Request) :
    Notes (Trace base r) ((workbench base minify).build r)
      ((Session.workbench base minify).build r) := by
  unfold Workbench.build
  cases hv : r.validate with
  | error why =>
      rw [Request.build_of_invalid hv, Request.build_of_invalid hv]
      refine (notes_mk_pure (.error why)).mono ?_
      rintro t _ u _ _ ⟨rfl, rfl, rfl, rfl⟩
      exact .refused hv
  | ok _ =>
      rw [Request.build_of_valid hv, Request.build_of_valid hv]
      refine (Notes.adapt (notes_buildAll base minify hv) BuildError.compress).mono ?_
      rintro t _ u told written ⟨result, rfl, htrace⟩
      exact htrace

/-! ### What traces tell -/

section traces
variable {t u : Tree} {told : List Event} {written : List Writing}
  {styles : Except CompressError (List Artifact)} {result : Except BuildError Report}

theorem filterMap_opening (r : Request) : r.opening.filterMap Event.written? = [] := by
  unfold Request.opening
  split <;> rfl

theorem StylesTrace.filterMap_told (h : StylesTrace base r t styles u told written) :
    told.filterMap Event.written? = written.map Writing.extent := by
  cases h with
  | skipped => rfl
  | pressed _ htrail => exact htrail.filterMap_told

theorem StylesTrace.map_extent {more : List Artifact}
    (h : StylesTrace base r t (.ok more) u told written) :
    written.map Writing.extent = more.map Artifact.extent := by
  generalize hmore : Except.ok more = styles at h
  cases h with
  | skipped =>
      cases hmore
      rfl
  | @pressed dir result _ _ _ _ htrail =>
      cases result with
      | error e => cases hmore
      | ok b =>
          cases hmore
          exact htrail.map_extent

theorem StylesTrace.getLast?_told {p : Path} {why : FileError}
    (h : StylesTrace base r t (.error (.readSource p why)) u told written) :
    told.getLast? = some (.reading p) := by
  generalize herror : Except.error (CompressError.readSource p why) = styles at h
  cases h with
  | skipped => cases herror
  | @pressed dir result _ _ _ _ htrail =>
      cases result with
      | ok b => cases herror
      | error e =>
          cases herror
          rw [List.getLast?_cons, htrail.getLast?_told]
          rfl

/-- A build tells of all files that it writes, and of no others. -/
theorem Trace.filterMap_told (h : Trace base r t result u told written) :
    told.filterMap Event.written? = written.map Writing.extent := by
  cases h with
  | refused => rfl
  | stopped _ htrail =>
      rw [List.filterMap_append, filterMap_opening]
      exact htrail.filterMap_told
  | went _ htrail hstyles =>
      rw [List.filterMap_append, filterMap_opening, List.filterMap_append, htrail.filterMap_told,
        hstyles.filterMap_told, List.map_append]
      rfl

theorem Trace.map_extent {report : Report} (h : Trace base r t (.ok report) u told written) :
    written.map Writing.extent = report.artifacts.map Artifact.extent := by
  generalize hreport : Except.ok report = result at h
  cases h with
  | refused => cases hreport
  | stopped => cases hreport
  | @went a styles _ _ _ _ _ _ _ htrail hstyles =>
      cases styles with
      | error e => cases hreport
      | ok more =>
          cases hreport
          rw [List.map_append, htrail.map_extent, hstyles.map_extent]
          rfl

/-- A build that could not read a source has told of that source last. -/
theorem Trace.getLast?_told {p : Path} {why : FileError}
    (h : Trace base r t (.error (.compress (.readSource p why))) u told written) :
    told.getLast? = some (.reading p) := by
  generalize herror : Except.error (BuildError.compress (.readSource p why)) = result at h
  cases h with
  | refused hv =>
      cases herror
      rcases Request.of_validate_error hv with ⟨-, hwhy⟩ | ⟨-, -, hwhy⟩ <;> cases hwhy
  | stopped _ htrail =>
      cases herror
      rw [List.getLast?_append, htrail.getLast?_told]
      rfl
  | @went a styles _ _ _ told' _ _ _ htrail hstyles =>
      cases styles with
      | ok more => cases herror
      | error e =>
          cases herror
          rw [List.getLast?_append, List.getLast?_append, hstyles.getLast?_told]
          rfl

end traces

/-- The log of every build is the trace of what it does, and the build does the same where writings
are recorded: it tells of the files that it writes, each with its size, and of no others.  Those of
a build that succeeds are its artifacts, and one that could not read a source has told of it
last. -/
theorem trace_of_build (base : Location) (minify : Minifier) (r : Request) (t : Tree) :
    ∃ result u told written,
      perform (.ofTree t) ((Session.workbench base minify).build r) = (result, ⟨u, told⟩) ∧
      perform (.ofTree t) ((workbench base minify).build r) = (result, ⟨⟨u, told⟩, written⟩) ∧
      Trace base r t result u told written ∧
      told.filterMap Event.written? = written.map Writing.extent ∧
      (∀ report, result = .ok report →
        written.map Writing.extent = report.artifacts.map Artifact.extent) ∧
      ∀ p why, result = .error (.compress (.readSource p why)) →
        told.getLast? = some (.reading p) := by
  obtain ⟨result, u, told, written, htrace, hplain, hrecorded⟩ :=
    notes_build base minify r (.ofTree t)
  refine ⟨result, u, told, written, hplain, hrecorded, htrace, htrace.filterMap_told, ?_, ?_⟩
  · rintro report rfl
    exact htrace.map_extent
  · rintro p why rfl
    exact htrace.getLast?_told

/-- A build whose only stylesheet is no text has written its script and tells so. -/
theorem trace_of_build_half_done :
    let broken : Name := ⟨Utf8.encode "a.css", by decide⟩
    let t := (Tree.ofFiles (SourceOrder.standard.files.map fun f => (f, "1"))).insert [] broken
      (.file [255])
    let r : Request := ⟨"1", .ofString "/", some (.ofString "/"), .ofString "out"⟩
    let p := Path.ofString "/a.css"
    let lines :=
      ["WARN petebuild::core::build: Version '1' is not a semantic version",
        "INFO petebuild::core::build: Compressing JavaScript from / into Pete_1.min.js",
        "DEBUG petebuild::infra::minify: Reading /Pete.prototype.js",
        "DEBUG petebuild::infra::minify: Reading /Pete.js",
        "DEBUG petebuild::infra::minify: Reading /Pete.Element.js",
        "DEBUG petebuild::infra::minify: Reading /Pete.Composite.js",
        "DEBUG petebuild::infra::minify: Reading /Pete.Observer.js",
        "INFO petebuild::infra::minify: Wrote out/Pete_1.min.js (25 bytes)",
        "INFO petebuild::core::build: Compressing CSS from / into Pete_CSS_1.min.js",
        "DEBUG petebuild::infra::minify: Reading /a.css"]
    ∃ (u : Tree) (told : List Event) (written : List Writing),
      perform (.ofTree t) ((Session.workbench []).build r) =
        (.error (.compress (.readSource p ⟨.read, p, notText⟩)), ⟨u, told⟩) ∧
      told.map Event.line = lines ∧
      Trace [] r t (.error (.compress (.readSource p ⟨.read, p, notText⟩))) u told written ∧
      written.map Writing.extent = [(.ofString "out/Pete_1.min.js", 25)] ∧
      told.getLast? = some (.reading p) := by
  intro broken t r p lines
  obtain ⟨result, u, told, written, hplain, -, htrace, htold, -, hlast⟩ :=
    trace_of_build [] .standard r t
  have hrun : (perform (.ofTree t) ((Session.workbench []).build r)).1 =
        .error (.compress (.readSource p ⟨.read, p, notText⟩)) ∧
      (perform (.ofTree t) ((Session.workbench []).build r)).2.events.map Event.line = lines ∧
      (perform (.ofTree t) ((Session.workbench []).build r)).2.events.filterMap Event.written? =
        [(.ofString "out/Pete_1.min.js", 25)] := by decide +kernel
  rw [hplain] at hrun
  obtain ⟨hresult, hlines, hwrote⟩ := hrun
  obtain rfl : result = _ := hresult
  exact ⟨u, told, written, hplain, hlines, htrace, htold.symm.trans hwrote, hlast p _ rfl⟩

end Recording
end AssetPress
