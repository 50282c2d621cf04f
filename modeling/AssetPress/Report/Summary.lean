import AssetPress.Build.Artifact
import AssetPress.Number.Tenths

/-!
# The summary of a report

What the user reads after a build: the version, and two lines for each artifact, with its path,
how many files it was made from, the sizes before and after, the reduction and the digest.
-/

namespace AssetPress

/-- How an artifact compares with its sources. -/
def Artifact.change (a : Artifact) : String :=
  if 0 < a.bytesSaved then oneDecimal a.ratio ++ "% smaller" else "no reduction"

/-- The two lines of the summary for an artifact. -/
def Artifact.summary (a : Artifact) : String :=
  "  " ++ a.path.display ++ " (" ++ toString a.sourceFiles ++ " files, " ++
    toString a.sourceSize ++ " -> " ++ toString a.minifiedSize ++ " bytes, " ++ a.change ++ ")\n" ++
    "    sha256 " ++ a.sha256 ++ "\n"

def Report.summary (r : Report) : String :=
  "✓ Built PeteJS " ++ r.version ++ "\n" ++ String.join (r.artifacts.map Artifact.summary)

end AssetPress
