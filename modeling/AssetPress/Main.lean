import AssetPress.Program

/-!
# The command

The outer layer: the machine's own files as a workbench, and the program run on the arguments of
the command.
-/

namespace AssetPress
namespace Machine

/-- What a failure of the machine is called here. -/
def osError : IO.Error → OsError
  | .noFileOrDirectory _ _ _ => .notFound
  | .alreadyExists _ _ _ => .alreadyExists
  | .inappropriateType _ code details =>
      if code = 20 then .notDirectory
      else if code = 21 then .isDirectory
      else .other details
  | e => .other (toString e)

/-- Does something to the file or directory that a path names. -/
def onPath {α : Type} (p : Path) (action : String → IO α) : ExceptT OsError IO α :=
  match p.refused?, Utf8.decode? p.bytes with
  | some why, _ => throw why
  | none, none => throw (.other "the path is not text")
  | none, some name =>
      ExceptT.mk do
        try return .ok (← action name)
        catch e => return .error (osError e)

/-- An entry of a listed directory. -/
def listed (entry : IO.FS.DirEntry) : IO Listed := do
  let data ← entry.path.symlinkMetadata
  return ⟨Utf8.encode entry.fileName, data.type == .file⟩

/-- The machine's own files. -/
def disk : Disk IO where
  makeDir p := onPath p fun name => IO.FS.createDir name
  isDir p := do
    match ← (onPath p fun name => do ((← IO.currentDir) / name).isDir).run with
    | .ok there => return there
    | .error _ => return false
  read p := onPath p fun name => return (← IO.FS.readBinFile name).toList
  write p content := onPath p fun name => IO.FS.writeBinFile name ⟨content.toArray⟩
  list p := onPath p fun name => do
    let here := (← IO.currentDir) / name
    if (← here.metadata).type == .dir then return ← (← here.readDir).toList.mapM listed
    return []

/-- The workbench of a run: the machine's files, a log on the second output, and the minifiers of
this library. -/
def workbench : Workbench IO := ⟨disk, fun e => IO.eprint e.printed, .standard⟩

end Machine
end AssetPress

open AssetPress in
/-- Runs the command and answers with its exit status. -/
def main (arguments : List String) : IO UInt32 := do
  let environment := (← IO.getEnv "RUST_LOG").map Utf8.encode
  let arguments := arguments.map Utf8.encode
  IO.eprint (Program.notices environment arguments)
  let outcome ← Program.run Machine.workbench defaultProgram environment arguments
  IO.print outcome.stdout
  IO.eprint outcome.stderr
  return outcome.exitCode.toUInt32
