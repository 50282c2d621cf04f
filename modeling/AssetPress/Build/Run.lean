import AssetPress.Build.Request
import AssetPress.Log.Event
import AssetPress.SemanticVersion

/-!
# Running a build

A build hands the jobs of a request to a compressor, the scripts first, and reports the artifacts
it gets back.  It knows nothing about the compressor and nothing about the monad in which both
run.  Main statements: `build_of_invalid` (a request that fails its check has no effect) and
`build_of_valid` (what the build of any other request does).
-/

namespace AssetPress

/-- Something that turns sources into written artifacts. -/
structure Compressor (m : Type → Type) where
  scripts : ScriptJob → ExceptT CompressError m Artifact
  styles : StyleJob → ExceptT CompressError m Artifact

namespace Request

variable {m : Type → Type} [Monad m]

/-- The stylesheet half of a build, if there is anything to do. -/
def buildStyles (log : Event → m Unit) (c : Compressor m) (r : Request) :
    ExceptT CompressError m (List Artifact) := do
  match r.styleSource with
  | some dir =>
      log (.pressingStyles dir (styleOutput r.version))
      let artifact ← c.styles (r.styleJob dir)
      pure [artifact]
  | none =>
      log .noStyles
      pure []

/-- The script half of a build and then the other. -/
def buildAll (log : Event → m Unit) (c : Compressor m) (r : Request) :
    ExceptT CompressError m Report := do
  unless SemanticVersion.isSemantic r.version do log (.unusualVersion r.version)
  log (.pressingScripts r.scripts (scriptOutput r.version))
  let script ← c.scripts r.scriptJob
  let styles ← r.buildStyles log c
  pure ⟨r.version, r.buildDir, script :: styles⟩

/-- Checks the request and runs its jobs. -/
def build (log : Event → m Unit) (c : Compressor m) (r : Request) : ExceptT BuildError m Report :=
  match r.validate with
  | .error why => throw why
  | .ok () => (r.buildAll log c).adapt .compress

theorem build_of_invalid {log : Event → m Unit} {c : Compressor m} {r : Request} {why : BuildError}
    (h : r.validate = .error why) : r.build log c = throw why := by
  rw [build, h]

/-- A request that passes its check is built, and its failures are those of its compressions. -/
theorem build_of_valid {log : Event → m Unit} {c : Compressor m} {r : Request}
    (h : r.validate = .ok ()) : r.build log c = (r.buildAll log c).adapt .compress := by
  rw [build, h]

end Request
end AssetPress
