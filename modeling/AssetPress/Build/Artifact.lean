import AssetPress.Path

/-!
# Artifacts and reports

An artifact is a file that a build has written, with what is known about it: where it stands, how
many sources it was made from, their size and its own, and its digest.  A report lists the
artifacts of one build in the order in which they were written.  Two of either are the same
(`Artifact.same`, `Report.same`) when their fields are, paths compared by components.
-/

namespace AssetPress

/-- What an artifact holds. -/
inductive AssetKind where
  | script
  | stylesheet
  deriving DecidableEq, Repr

/-- The short name of a kind. -/
def AssetKind.name : AssetKind → String
  | script => "js"
  | stylesheet => "css"

/-- A written file and its statistics; sizes are in bytes. -/
structure Artifact where
  kind : AssetKind
  name : String
  path : Path
  sourceFiles : Nat
  sourceSize : Nat
  minifiedSize : Nat
  sha256 : String
  deriving DecidableEq, Repr

namespace Artifact

/-- How many bytes were saved, if any. -/
def bytesSaved (a : Artifact) : Nat := a.sourceSize - a.minifiedSize

/-- The reduction in percent; nothing is reduced by nothing. -/
def ratio (a : Artifact) : Float :=
  if a.sourceSize = 0 then 0
  else (1 - Float.ofNat a.minifiedSize / Float.ofNat a.sourceSize) * 100

/-- Whether two artifacts agree in all fields, paths by components. -/
def same (a b : Artifact) : Bool :=
  a.kind == b.kind && a.name == b.name && a.path.same b.path && a.sourceFiles == b.sourceFiles &&
    a.sourceSize == b.sourceSize && a.minifiedSize == b.minifiedSize && a.sha256 == b.sha256

theorem bytesSaved_pos_iff {a : Artifact} : 0 < a.bytesSaved ↔ a.minifiedSize < a.sourceSize := by
  unfold bytesSaved
  omega

end Artifact

/-- What a build has produced. -/
structure Report where
  version : String
  buildDir : Path
  artifacts : List Artifact
  deriving DecidableEq, Repr

/-- Whether two lists agree entry by entry. -/
def allSame {α : Type} (same : α → α → Bool) : List α → List α → Bool
  | [], [] => true
  | a :: as, b :: bs => same a b && allSame same as bs
  | _, _ => false

/-- Whether two reports agree in all fields, paths by components. -/
def Report.same (r s : Report) : Bool :=
  r.version == s.version && r.buildDir.same s.buildDir &&
    allSame Artifact.same r.artifacts s.artifacts

end AssetPress
