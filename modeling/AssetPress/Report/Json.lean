import AssetPress.Build.Artifact
import AssetPress.Json.Basic

/-!
# Reports as JSON

A report as a JSON object for other programs.  JSON holds text only, so a report whose paths are
not all text has no such form.  Main statement: `Artifact.toJson?_isSome_iff`.
-/

namespace AssetPress

/-- What is said about a path that is no text. -/
def pathNotText : String := "path contains invalid UTF-8 characters"

/-- A path as a JSON string, if it is text. -/
def Path.toJson? (p : Path) : Option Json := (Utf8.decode? p.bytes).map .string

/-- An artifact as a JSON object, if its path is text. -/
def Artifact.toJson? (a : Artifact) : Option Json := do
  let path ← a.path.toJson?
  some (.object [
    ("kind", .string a.kind.name),
    ("name", .string a.name),
    ("path", path),
    ("source_files", .number a.sourceFiles),
    ("original_size", .number a.sourceSize),
    ("minified_size", .number a.minifiedSize),
    ("sha256", .string a.sha256)])

/-- A report as a JSON object, if all its paths are text. -/
def Report.toJson? (r : Report) : Option Json := do
  let buildDir ← r.buildDir.toJson?
  let artifacts ← r.artifacts.mapM Artifact.toJson?
  some (.object [
    ("version", .string r.version),
    ("build_dir", buildDir),
    ("artifacts", .list artifacts)])

/-- The JSON text of a report, if all its paths are text. -/
def Report.json? (r : Report) : Option String := r.toJson?.map Json.print

/-! ### Which reports are text -/

theorem Path.toJson?_isSome_iff {p : Path} :
    p.toJson?.isSome ↔ (Utf8.decode? p.bytes).isSome := by
  simp [Path.toJson?]

theorem Artifact.toJson?_isSome_iff {a : Artifact} :
    a.toJson?.isSome ↔ (Utf8.decode? a.path.bytes).isSome := by
  rw [← Path.toJson?_isSome_iff]
  unfold Artifact.toJson?
  cases a.path.toJson? <;> simp

end AssetPress
