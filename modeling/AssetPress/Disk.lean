import AssetPress.Tree.Walk

/-!
# Working with files

The file operations a build needs, written over a record of five primitive ones (`Disk`), so that
they run alike on a file tree in memory and on the machine's own files.  Directories are made
together with everything above them, files are written together with their directory, and
listings are sorted by name.  Every failure says what was attempted, on which path and why
(`FileError`).
-/

namespace AssetPress

/-- An entry of a listed directory: its name, and whether it is itself a regular file. -/
structure Listed where
  name : Bytes
  isFile : Bool
  deriving DecidableEq, Repr

/-- The primitive operations on files. -/
structure Disk (m : Type → Type) where
  makeDir : Path → ExceptT OsError m Unit
  isDir : Path → m Bool
  read : Path → ExceptT OsError m Bytes
  write : Path → Bytes → ExceptT OsError m Unit
  list : Path → ExceptT OsError m (List Listed)

/-! ### Failures -/

/-- What was attempted when a file operation failed. -/
inductive FileAction where
  | makeDir
  | list
  | write
  | read
  deriving DecidableEq, Repr

/-- The beginning of the message about a failed attempt. -/
def FileAction.failure : FileAction → String
  | makeDir => "Failed to create directory"
  | list => "Failed to list directory"
  | write => "Failed to write file"
  | read => "Failed to read file"

/-- A failed file operation. -/
structure FileError where
  action : FileAction
  path : Path
  reason : String
  deriving DecidableEq, Repr

/-- The text for a failed file operation. -/
def FileError.message (e : FileError) : String :=
  e.action.failure ++ " '" ++ e.path.display ++ "': " ++ e.reason

/-- Why bytes were not read as text. -/
def notText : String := "stream did not contain valid UTF-8"

/-! ### Names with an extension -/

/-- What follows the last dot of a name, unless that dot is its first byte. -/
def extension? (name : Bytes) : Option Bytes :=
  if (name.reverse.dropWhile (· != dot)).drop 1 = [] then none
  else some (name.reverse.takeWhile (· != dot)).reverse

/-- The names of the regular files with the given extension, sorted. -/
def namesWithExtension (extension : Bytes) (entries : List Listed) : List Bytes :=
  ((entries.filter fun e => e.isFile && extension? e.name == some extension).map (·.name)).mergeSort

namespace Disk

variable {m : Type → Type} [Monad m] (disk : Disk m)

/-! ### Directories -/

/-- Passes over a failed attempt to make a directory that is there. -/
def unlessDir (p : Path) (why : OsError) : ExceptT OsError m Unit := do
  if ← disk.isDir p then pure () else throw why

/-- Makes the first of a line of paths in which each stands in the next.  Only where the way to it
is missing are the others made before it. -/
def makeDirs : List Path → ExceptT OsError m Unit
  | [] => pure ()
  | p :: above =>
      tryCatch (disk.makeDir p) fun why => do
        if why = .notFound then
          makeDirs above
          tryCatch (disk.makeDir p) (disk.unlessDir p)
        else disk.unlessDir p why

/-- Makes a directory and everything above it. -/
def ensureDir (p : Path) : ExceptT FileError m Unit :=
  (disk.makeDirs p.lineage).adapt fun why => ⟨.makeDir, p, why.message⟩

/-! ### Files -/

/-- Writes a file and makes the directory it stands in. -/
def save (p : Path) (content : Bytes) : ExceptT FileError m Unit := do
  match p.parent? with
  | some above => unless above.isEmpty do disk.ensureDir above
  | none => pure ()
  (disk.write p content).adapt fun why => ⟨.write, p, why.message⟩

/-- Reads a file as text. -/
def readText (p : Path) : ExceptT FileError m String := do
  let bytes ← (disk.read p).adapt fun why => ⟨.read, p, why.message⟩
  match Utf8.decode? bytes with
  | some text => pure text
  | none => throw ⟨.read, p, notText⟩

/-- Lists the regular files of a directory that have the given extension, in order of their
names. -/
def listWithExtension (dir : Path) (extension : Bytes) : ExceptT FileError m (List Path) := do
  let entries ← (disk.list dir).adapt fun why =>
    ⟨.list, dir, "IO error for operation on " ++ dir.display ++ ": " ++ why.message⟩
  pure ((namesWithExtension extension entries).map fun name => dir.join ⟨name⟩)

end Disk
end AssetPress
