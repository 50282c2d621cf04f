import AssetPress.Proofs.Build.Equation
import AssetPress.Proofs.Session.Jobs

/-!
# The course of a build

What a build in a file tree does, step by step.  Its answer and its tree are given by one equation
over the two compressions (`buildIn_of_valid`), and every build takes one of five courses
(`Course`, `course_of_buildIn`): it is refused, or each of its compressions delivers an artifact
or fails, and the tree changes by what the compressions do to it.
-/

namespace AssetPress

/-- The answer to the build of a request in a file tree, seen from directory `base`, and the tree
that the build leaves behind. -/
def Request.buildIn (base : Location) (r : Request) (t : Tree) (minify : Minifier := .standard) :
    Except BuildError Report × Tree :=
  let (result, session) := perform (.ofTree t) ((Session.workbench base minify).build r)
  (result, session.tree)

namespace Session

/-! ### Courses -/

/-- The course of a build in tree `t`: what it answers and what tree it leaves behind. -/
inductive Course (base : Location) (r : Request) (t : Tree) :
    Except BuildError Report → Tree → Prop
  | refused {why : BuildError} : r.validate = .error why → Course base r t (.error why) t
  | scriptsFailed {e : CompressError} {u : Tree} : r.validate = .ok () →
      Fails .script t u e → Course base r t (.error (.compress e)) u
  | scriptsOnly {a : Artifact} {u : Tree} : r.validate = .ok () → r.styleSource = none →
      Delivers base .script r.buildDir (scriptOutput r.version) r.version t u a →
      Course base r t (.ok ⟨r.version, r.buildDir, [a]⟩) u
  | stylesFailed {a : Artifact} {e : CompressError} {dir : Path} {u v : Tree} :
      r.validate = .ok () → r.styleSource = some dir →
      Delivers base .script r.buildDir (scriptOutput r.version) r.version t v a →
      Fails .stylesheet v u e → Course base r t (.error (.compress e)) u
  | both {a b : Artifact} {dir : Path} {u v : Tree} :
      r.validate = .ok () → r.styleSource = some dir →
      Delivers base .script r.buildDir (scriptOutput r.version) r.version t v a →
      Delivers base .stylesheet r.buildDir (styleOutput r.version) r.version v u b →
      Course base r t (.ok ⟨r.version, r.buildDir, [a, b]⟩) u

end Session

namespace Request

open Session

variable {base : Location} {minify : Minifier} {r : Request} {t : Tree}

theorem tree_logged (events : List Event) (s : Session) :
    (logged Session.log events s).tree = s.tree := by
  induction events generalizing s with
  | nil => rfl
  | cons e rest ih => exact ih _

/-- What the press makes of a request in a file tree. -/
def pressed (base : Location) (minify : Minifier) (r : Request) (t : Tree) :
    Except CompressError (List Artifact) × Session :=
  compressions Session.log (workbench base minify).press r
    (logged Session.log r.opening (.ofTree t))

theorem buildIn_of_invalid {why : BuildError} (h : r.validate = .error why) :
    r.buildIn base t minify = (.error why, t) := by
  unfold buildIn Workbench.build
  rw [perform_build_of_invalid h]
  rfl

theorem buildIn_of_valid (h : r.validate = .ok ()) :
    r.buildIn base t minify =
      (((pressed base minify r t).1.map (Report.mk r.version r.buildDir)).mapError .compress,
        (pressed base minify r t).2.tree) := by
  unfold buildIn Workbench.build
  rw [perform_build_of_valid h]
  rfl

section answers
variable {a : Artifact} {e : CompressError} {dir : Path} {s₁ s₂ : Session}

theorem buildIn_of_scripts_error (hv : r.validate = .ok ())
    (hs : perform (logged Session.log r.opening (.ofTree t))
      ((workbench base minify).press.scripts r.scriptJob) = (.error e, s₁)) :
    r.buildIn base t minify = (.error (.compress e), s₁.tree) := by
  rw [buildIn_of_valid hv]
  unfold pressed compressions
  rw [hs]
  rfl

theorem buildIn_of_noStyles (hv : r.validate = .ok ())
    (hs : perform (logged Session.log r.opening (.ofTree t))
      ((workbench base minify).press.scripts r.scriptJob) = (.ok a, s₁))
    (hstyles : r.styleSource = none) :
    r.buildIn base t minify = (.ok ⟨r.version, r.buildDir, [a]⟩, s₁.tree) := by
  rw [buildIn_of_valid hv]
  unfold pressed compressions
  rw [hs, hstyles]
  rfl

theorem buildIn_of_styles {answer : Except CompressError Artifact} (hv : r.validate = .ok ())
    (hs : perform (logged Session.log r.opening (.ofTree t))
      ((workbench base minify).press.scripts r.scriptJob) = (.ok a, s₁))
    (hstyles : r.styleSource = some dir)
    (hb : perform (logged Session.log [.pressingStyles dir (styleOutput r.version)] s₁)
      ((workbench base minify).press.styles (r.styleJob dir)) = (answer, s₂)) :
    r.buildIn base t minify =
      ((answer.map fun b => ⟨r.version, r.buildDir, [a, b]⟩).mapError .compress, s₂.tree) := by
  rw [buildIn_of_valid hv]
  unfold pressed compressions
  rw [hs, hstyles]
  simp only
  rw [hb]
  cases answer <;> rfl

end answers

theorem course_of_buildIn {result : Except BuildError Report} {u : Tree}
    (h : r.buildIn base t minify = (result, u)) : Course base r t result u := by
  cases hv : r.validate with
  | error why =>
      rw [buildIn_of_invalid hv] at h
      cases h
      exact .refused hv
  | ok _ =>
      rcases hs : perform (logged Session.log r.opening (.ofTree t))
        ((workbench base minify).press.scripts r.scriptJob) with ⟨e | a, s₁⟩
      · have hfails := of_perform_pressScripts_error hs
        rw [tree_logged] at hfails
        rw [buildIn_of_scripts_error hv hs] at h
        cases h
        exact .scriptsFailed hv hfails
      · have hscripts := of_perform_pressScripts_ok hs
        rw [tree_logged] at hscripts
        cases hstyles : r.styleSource with
        | none =>
            rw [buildIn_of_noStyles hv hs hstyles] at h
            cases h
            exact .scriptsOnly hv hstyles hscripts
        | some dir =>
            rcases hb : perform
              (logged Session.log [.pressingStyles dir (styleOutput r.version)] s₁)
              ((workbench base minify).press.styles (r.styleJob dir)) with ⟨e | b, s₂⟩
            · have hfails := of_perform_pressStyles_error hb
              rw [buildIn_of_styles hv hs hstyles hb] at h
              cases h
              exact .stylesFailed hv hstyles hscripts hfails
            · have hdelivers := of_perform_pressStyles_ok hb
              rw [buildIn_of_styles hv hs hstyles hb] at h
              cases h
              exact .both hv hstyles hscripts hdelivers

/-! ### Builds that succeed -/

/-- A build that succeeds, with the sessions in which its compressions end. -/
inductive Succeeds (base : Location) (minify : Minifier) (r : Request) (t : Tree) :
    Report → Tree → Prop
  | scripts {a : Artifact} {s : Session} : r.validate = .ok () → r.styleSource = none →
      perform (logged Session.log r.opening (.ofTree t))
        ((workbench base minify).pressScripts r.scriptJob) = (.ok a, s) →
      Succeeds base minify r t ⟨r.version, r.buildDir, [a]⟩ s.tree
  | both {a b : Artifact} {dir : Path} {s₁ s₂ : Session} :
      r.validate = .ok () → r.styleSource = some dir →
      perform (logged Session.log r.opening (.ofTree t))
        ((workbench base minify).pressScripts r.scriptJob) = (.ok a, s₁) →
      perform (logged Session.log [.pressingStyles dir (styleOutput r.version)] s₁)
        ((workbench base minify).pressStyles (r.styleJob dir)) = (.ok b, s₂) →
      Succeeds base minify r t ⟨r.version, r.buildDir, [a, b]⟩ s₂.tree

theorem succeeds_of_buildIn {report : Report} {u : Tree}
    (h : r.buildIn base t minify = (.ok report, u)) : Succeeds base minify r t report u := by
  cases hv : r.validate with
  | error why =>
      rw [buildIn_of_invalid hv] at h
      cases h
  | ok _ =>
      rcases hs : perform (logged Session.log r.opening (.ofTree t))
        ((workbench base minify).press.scripts r.scriptJob) with ⟨e | a, s₁⟩
      · rw [buildIn_of_scripts_error hv hs] at h
        cases h
      · cases hstyles : r.styleSource with
        | none =>
            rw [buildIn_of_noStyles hv hs hstyles] at h
            cases h
            exact .scripts hv hstyles hs
        | some dir =>
            rcases hb : perform
              (logged Session.log [.pressingStyles dir (styleOutput r.version)] s₁)
              ((workbench base minify).press.styles (r.styleJob dir)) with ⟨e | b, s₂⟩
            · rw [buildIn_of_styles hv hs hstyles hb] at h
              cases h
            · rw [buildIn_of_styles hv hs hstyles hb] at h
              cases h
              exact .both hv hstyles hs hb

/-! ### Builds that can be evaluated -/

/-- The build succeeds, and `P` holds of its report and of the tree that it leaves behind. -/
def Yields (base : Location) (r : Request) (t : Tree) (P : Report → Tree → Prop) : Prop :=
  ∃ report u, r.buildIn base t = (.ok report, u) ∧ P report u

instance (P : Report → Tree → Prop) [∀ report u, Decidable (P report u)] :
    Decidable (r.Yields base t P) :=
  match h : r.buildIn base t with
  | (.ok report, u) =>
      decidable_of_iff (P report u) ⟨fun hp => ⟨report, u, h, hp⟩, fun ⟨_, _, h', hp⟩ => by
        rw [h] at h'
        cases h'
        exact hp⟩
  | (.error _, _) =>
      .isFalse fun ⟨_, _, h', _⟩ => by
        rw [h] at h'
        cases h'

end Request

/-- A tree with all that a build needs in its root: the listed scripts and a stylesheet. -/
def Tree.workplace : Tree :=
  .ofFiles (("a.css", "a{}") :: SourceOrder.standard.files.map fun f => (f, "1"))

theorem Tree.noLinks_workplace : workplace.NoLinks := noLinks_ofFiles _

/-- A tree with nothing but the listed scripts in `src`. -/
def Tree.sources : Tree :=
  (empty.insert [] ⟨Utf8.encode "src", by decide⟩ .dir).withFiles
    (SourceOrder.standard.files.map fun f => ("src/" ++ f, "1"))

/-- A tree with the listed scripts in `src` and a stylesheet in `css`. -/
def Tree.project : Tree :=
  (sources.insert [] ⟨Utf8.encode "css", by decide⟩ .dir).withFiles [("css/a.css", "a{}")]

end AssetPress
