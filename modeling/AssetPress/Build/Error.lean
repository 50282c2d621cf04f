import AssetPress.Disk

/-!
# Why a build fails

A build fails because something it needs was not given, or because a compression failed: a source
or a directory could not be read, there was nothing to compress, a source was malformed, or the
result could not be written.  Each failure has a message and the messages of what caused it,
outermost first.
-/

namespace AssetPress

/-! ### Compression -/

/-- Why a compression fails. -/
inductive CompressError where
  /-- A source could not be read. -/
  | readSource (path : Path) (source : FileError)
  /-- The directory holds no stylesheet. -/
  | noStylesheets (dir : Path)
  /-- The scripts are malformed. -/
  | malformedScript (output : String) (reason : String)
  /-- The stylesheets are malformed. -/
  | malformedStyle (output : String) (reason : String)
  /-- Listing, or writing the result, failed. -/
  | filesystem (source : FileError)
  deriving DecidableEq, Repr

namespace CompressError

def message : CompressError → String
  | readSource path source => "Failed to read source '" ++ path.display ++ "': " ++ source.message
  | noStylesheets dir => "No .css files found in '" ++ dir.display ++ "'"
  | malformedScript output reason =>
      "Failed to minify JavaScript for '" ++ output ++ "': " ++ reason
  | malformedStyle output reason => "Failed to minify CSS for '" ++ output ++ "': " ++ reason
  | filesystem source => source.message

def causes : CompressError → List String
  | readSource _ source => [source.message]
  | _ => []

end CompressError

/-! ### Builds -/

/-- Why a build fails. -/
inductive BuildError where
  | missingVersion
  | missingScripts
  | compress (source : CompressError)
  deriving DecidableEq, Repr

namespace BuildError

def message : BuildError → String
  | missingVersion => "You must provide a version."
  | missingScripts => "You must provide the location of the JavaScript source files."
  | compress source => "Compression failed: " ++ source.message

def causes : BuildError → List String
  | compress source => source.message :: source.causes
  | _ => []

/-- Whether the caller left out something that a build needs. -/
def isUsage : BuildError → Bool
  | missingVersion => true
  | missingScripts => true
  | compress _ => false

end BuildError

/-! ### Showing failures -/

/-- A message with its causes, a line each, as they are shown to the user. -/
def showFailure (message : String) (causes : List String) : String :=
  String.join (("✗ Error: " ++ message ++ "\n") :: causes.map fun c => "  caused by: " ++ c ++ "\n")

end AssetPress
