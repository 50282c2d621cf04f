import AssetPress.Build.Run
import AssetPress.Bundle
import AssetPress.Digest.Sha256
import AssetPress.Script.Printer
import AssetPress.Style.Printer

/-!
# The press

The compressor that works on files: it reads the sources of a job, puts them together, shrinks the
bundle, and writes the result under a banner into the build directory.  Nothing is written, and no
directory made, before the shrunk text is there.  What it reads and writes goes to a log.  How a
bundle is shrunk is up to the minifiers at hand (`Minifier`), of which the press knows nothing; the
ones of this library are `Minifier.standard`.
-/

namespace AssetPress

/-! ### Minifiers -/

/-- What makes a short text of a bundle of each kind, or says what is wrong with it. -/
abbrev Minifier := AssetKind → String → Except String String

/-- The minifiers of this library; they know the parts of the two languages that their modules
tell. -/
def Minifier.standard : Minifier
  | .script, source => (Script.minify source).mapError (·.message)
  | .stylesheet, source => (Style.minify source).mapError (·.message)

/-- The failure of a compression of the given kind whose bundle is malformed. -/
def CompressError.malformed : AssetKind → String → String → CompressError
  | .script => malformedScript
  | .stylesheet => malformedStyle

/-- The shrunk bundle of some texts. -/
def Minifier.shrink (minify : Minifier) (kind : AssetKind) (output : String)
    (texts : List String) : Except CompressError String :=
  (minify kind (bundle texts)).mapError (.malformed kind output)

/-! ### Workbenches -/

/-- What a press works with: files, a log of what it does, and minifiers. -/
structure Workbench (m : Type → Type) where
  disk : Disk m
  log : Event → m Unit
  minify : Minifier

/-- The extension of stylesheets. -/
def styleExtension : Bytes := Utf8.encode "css"

namespace Workbench

variable {m : Type → Type} [Monad m] (w : Workbench m)

/-! ### Reading sources -/

/-- Reads one source. -/
def readSource (p : Path) : ExceptT CompressError m String := do
  w.log (.reading p)
  (w.disk.readText p).adapt (.readSource p)

/-- Reads sources in order, up to the first that cannot be read. -/
def readSources : List Path → ExceptT CompressError m (List String)
  | [] => pure []
  | p :: more => do
      let text ← w.readSource p
      let texts ← readSources more
      pure (text :: texts)

/-! ### Writing artifacts -/

/-- What an artifact holds: the banner and the shrunk text. -/
def content (version code : String) : Bytes := Utf8.encode (banner version ++ code)

/-- Writes an artifact into the build directory, which is made if need be. -/
def store (buildDir : Path) (output : String) (content : Bytes) : ExceptT FileError m Path := do
  let path := buildDir.join (.ofString output)
  w.disk.ensureDir buildDir
  w.disk.save path content
  w.log (.wrote path content.length)
  pure path

/-- Writes an artifact and tells its statistics. -/
def emit (kind : AssetKind) (buildDir : Path) (output version code : String)
    (texts : List String) : ExceptT CompressError m Artifact := do
  let bytes := content version code
  let path ← (w.store buildDir output bytes).adapt .filesystem
  pure ⟨kind, output, path, texts.length, sourceSize texts, bytes.length, Sha256.hexDigest bytes⟩

/-! ### Jobs -/

/-- Turns the listed scripts into an artifact. -/
def pressScripts (job : ScriptJob) : ExceptT CompressError m Artifact := do
  let texts ← w.readSources (job.files.pathsIn job.source)
  let code ← ExceptT.mk (pure (w.minify.shrink .script job.output texts))
  w.emit .script job.buildDir job.output job.version code texts

/-- Turns the stylesheets of a directory into an artifact. -/
def pressStyles (job : StyleJob) : ExceptT CompressError m Artifact := do
  let paths ← (w.disk.listWithExtension job.source styleExtension).adapt .filesystem
  if paths.isEmpty then throw (.noStylesheets job.source)
  let texts ← w.readSources paths
  let code ← ExceptT.mk (pure (w.minify.shrink .stylesheet job.output texts))
  w.emit .stylesheet job.buildDir job.output job.version code texts

/-- The press at a workbench. -/
def press : Compressor m := ⟨w.pressScripts, w.pressStyles⟩

/-- Runs the build that a request asks for. -/
def build (r : Request) : ExceptT BuildError m Report := r.build w.log w.press

end Workbench
end AssetPress
