import AssetPress.Build.Artifact
import AssetPress.Build.Error
import AssetPress.Build.SourceOrder

/-!
# Build requests

What a caller asks for: a version, where the scripts are, perhaps where the stylesheets are, and
where the artifacts go.  A request is checked (`Request.validate`) and split into at most two
jobs, one for the scripts and one for the stylesheets, each naming the artifact after the version.
Main statements: `validate_eq_ok_iff` and `styleSource_eq_some_iff`.
-/

namespace AssetPress

/-! ### Names -/

/-- What the names of script artifacts begin with. -/
def scriptStem : String := "Pete_"

/-- What the names of stylesheet artifacts begin with. -/
def styleStem : String := "Pete_CSS_"

/-- What the names of all artifacts end with. -/
def artifactEnding : String := ".min.js"

/-- The name of the script artifact of a version. -/
def scriptOutput (version : String) : String := scriptStem ++ version ++ artifactEnding

/-- The name of the stylesheet artifact of a version. -/
def styleOutput (version : String) : String := styleStem ++ version ++ artifactEnding

/-- The comment at the top of every artifact of a version. -/
def banner (version : String) : String := "/*! PeteJS " ++ version ++ " */\n"

/-! ### Requests -/

/-- A build to be done. -/
structure Request where
  version : String
  scripts : Path
  styles : Option Path
  buildDir : Path
  deriving DecidableEq, Repr

/-- What one compression of scripts is to do. -/
structure ScriptJob where
  source : Path
  output : String
  buildDir : Path
  version : String
  files : SourceOrder
  deriving DecidableEq, Repr

/-- What one compression of stylesheets is to do. -/
structure StyleJob where
  source : Path
  output : String
  buildDir : Path
  version : String
  deriving DecidableEq, Repr

namespace Request

/-- Where artifacts go unless another place is named. -/
def defaultBuildDir : Path := .ofString "."

/-- A request for scripts alone, with the artifact going to the default place. -/
def ofScripts (version : String) (scripts : Path) : Request :=
  ⟨version, scripts, none, defaultBuildDir⟩

/-- The request with stylesheets. -/
def withStyles (r : Request) (dir : Path) : Request := { r with styles := some dir }

/-- The request with another place for the artifacts. -/
def withBuildDir (r : Request) (dir : Path) : Request := { r with buildDir := dir }

/-- The request that texts make: every path is given as text. -/
def ofTexts (version scripts : String) (styles : Option String) (buildDir : String) : Request :=
  let r := (ofScripts version (.ofString scripts)).withBuildDir (.ofString buildDir)
  match styles with
  | some dir => r.withStyles (.ofString dir)
  | none => r

/-- Checks what a build needs, the version first. -/
def validate (r : Request) : Except BuildError Unit :=
  if r.version = "" then .error .missingVersion
  else if r.scripts.isEmpty then .error .missingScripts
  else .ok ()

/-- Where the stylesheets are; an empty path is as good as none. -/
def styleSource (r : Request) : Option Path := r.styles.filter fun dir => !dir.isEmpty

/-- The job for the scripts. -/
def scriptJob (r : Request) : ScriptJob :=
  ⟨r.scripts, scriptOutput r.version, r.buildDir, r.version, .standard⟩

/-- The job for the stylesheets in `dir`. -/
def styleJob (r : Request) (dir : Path) : StyleJob :=
  ⟨dir, styleOutput r.version, r.buildDir, r.version⟩

/-- Whether two requests agree in all fields, paths by components. -/
def same (r s : Request) : Bool :=
  r.version == s.version && r.scripts.same s.scripts &&
    (match r.styles, s.styles with
      | none, none => true
      | some a, some b => a.same b
      | _, _ => false) &&
    r.buildDir.same s.buildDir

/-! ### Laws -/

theorem validate_eq_ok_iff {r : Request} :
    r.validate = .ok () ↔ r.version ≠ "" ∧ r.scripts.bytes ≠ [] := by
  unfold validate Path.isEmpty
  split
  · simp_all
  · split <;> simp_all

theorem styleSource_eq_some_iff {r : Request} {dir : Path} :
    r.styleSource = some dir ↔ r.styles = some dir ∧ dir.bytes ≠ [] := by
  unfold styleSource Path.isEmpty
  rw [Option.filter_eq_some_iff]
  simp

end Request
end AssetPress
