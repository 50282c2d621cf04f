import AssetPress.Build.Request
import AssetPress.CommandLine.Failure
import AssetPress.CommandLine.Similarity

/-!
# Reading the command line

From arguments to settings.  Arguments are read one by one; a flag that takes a value may wait for
it (`Reading.pending`), and its value is taken over only when the next flag comes or the arguments
end.  So of two mistakes the one that is found first is not always the one that comes first: a
stray argument or an unknown flag is complained about before the flag that is still pending.
-/

namespace AssetPress

/-- What the user has set. -/
structure Settings where
  version : Option String
  scripts : Option String
  styles : Option String
  buildDir : Path
  verbosity : Nat
  quiet : Bool
  json : Bool
  deriving DecidableEq, Repr

namespace Settings

/-- The settings of no arguments. -/
def standard : Settings := ⟨none, none, none, Request.defaultBuildDir, 0, false, false⟩

def request (s : Settings) : Request :=
  ⟨s.version.getD "", .ofString (s.scripts.getD ""), s.styles.map .ofString, s.buildDir⟩

/-- The largest verbosity that is told apart. -/
def maxVerbosity : Nat := 255

/-- The settings with the value of a flag, if it has an acceptable form. -/
def withValue (s : Settings) (flag : Flag) (value : Bytes) : Except Failure Settings :=
  match flag with
  | .version => withText fun text => { s with version := some text }
  | .scripts => withText fun text => { s with scripts := some text }
  | .styles => withText fun text => { s with styles := some text }
  | .buildDir =>
      if value = [] then .error (.missingValue .buildDir) else .ok { s with buildDir := ⟨value⟩ }
  | _ => .ok s
where
  /-- The settings with the value as text. -/
  withText (set : String → Settings) : Except Failure Settings :=
    match Utf8.decode? value with
    | some text => .ok (set text)
    | none => .error .notText

end Settings

/-! ### The state of reading -/

/-- What has been read so far: the settings, the flags used, a flag whose value is awaited or has
not been taken over yet, and whether flags have been declared to have ended. -/
structure Reading where
  settings : Settings
  used : List Flag
  pending : Option (Flag × Option Bytes)
  flagsEnded : Bool
  deriving DecidableEq, Repr

namespace Reading

def start : Reading := ⟨.standard, [], none, false⟩

/-- Takes over the value of a flag that may be given once. -/
def give (r : Reading) (flag : Flag) (value : Bytes) : Except Failure Reading :=
  if flag ∈ r.used then .error (.repeated flag)
  else do
    let settings ← r.settings.withValue flag value
    return { r with settings, used := r.used ++ [flag] }

/-- Takes over the value of a pending flag. -/
def settle (r : Reading) : Except Failure Reading :=
  match r.pending with
  | none => .ok r
  | some (flag, none) => .error (.missingValue flag)
  | some (flag, some value) => { r with pending := none }.give flag value

/-- The flags used once a pending one is settled, even if that fails: then a repeated flag is
withdrawn. -/
def usedSettled (r : Reading) : List Flag :=
  match r.pending with
  | some (flag, some _) => if flag ∈ r.used then r.used.erase flag else r.used ++ [flag]
  | _ => r.used

/-- Raises a flag that takes no value. -/
def raise (r : Reading) (flag : Flag) : Except Failure Reading :=
  match flag with
  | .help => .error (.help true)
  | .verbose =>
      .ok { r with
        settings := { r.settings with
          verbosity := min (r.settings.verbosity + 1) Settings.maxVerbosity }
        used := r.used.erase .verbose ++ [.verbose] }
  | .quiet => once { r.settings with quiet := true }
  | .json => once { r.settings with json := true }
  | _ => .ok r
where
  /-- The state with new settings, unless the flag has been raised before. -/
  once (settings : Settings) : Except Failure Reading :=
    if flag ∈ r.used then .error (.repeated flag)
    else .ok { r with settings, used := r.used ++ [flag] }

/-! ### Arguments -/

def hyphen : UInt8 := 45

/-- The byte between a flag and its value. -/
def equals : UInt8 := 61

/-- The flags with one more, unless it is among them. -/
def addFlag (used : List Flag) (flag : Flag) : List Flag :=
  if flag ∈ used then used else used ++ [flag]

/-- A complaint about an argument that is no flag and no value. -/
def stray (argument : String) : Failure := .unknown argument none []

/-- An argument that begins with two hyphens, without them. -/
def long (r : Reading) (text : Bytes) : Except Failure Reading :=
  let (name, value) := cut equals text
  match (Utf8.decode? name).bind Flag.ofName? with
  | none =>
      let similar := Similarity.closest? (Utf8.lossy name)
      let used := similar.toList.foldl addFlag r.usedSettled
      .error (.unknown ("--" ++ Utf8.lossy name) similar used)
  | some flag =>
      match flag.takesValue, value with
      | true, some value => do (← r.settle).give flag value
      | true, none => do return { ← r.settle with pending := some (flag, none) }
      | false, some value => .error (.unneededValue (Utf8.lossy value) flag r.used)
      | false, none => do (← r.settle).raise flag

/-- The letter that bytes begin with, and what stands behind it. -/
def firstLetter? : Bytes → Option (Char × Bytes)
  | [] => none
  | b :: rest => if b.toNat < 128 then some (Char.ofNat b.toNat, rest) else none

/-- The complaint about an argument that begins with one hyphen: it names the first character, or
all of it where that is broken. -/
def unknownLetter (text : Bytes) : Failure :=
  match Utf8.pieces text with
  | some c :: _ => stray ("-" ++ String.singleton c)
  | _ => stray ("-" ++ Utf8.lossy text)

/-- An argument that begins with one hyphen, without it. -/
def short (r : Reading) (text : Bytes) : Except Failure Reading :=
  match firstLetter? text with
  | none => .error (unknownLetter text)
  | some (letter, rest) =>
      match Flag.ofLetter? letter with
      | none => .error (unknownLetter text)
      | some flag =>
          if flag.takesValue then
            match rest with
            | [] => do return { ← r.settle with pending := some (flag, none) }
            | b :: more => do (← r.settle).give flag (if b = equals then more else b :: more)
          else do (← r.settle).raise flag

/-- An argument that is no flag: the value that is awaited, or a stray one. -/
def plain (r : Reading) (argument : Bytes) : Except Failure Reading :=
  match r.pending with
  | some (flag, none) => .ok { r with pending := some (flag, some argument) }
  | _ => .error (stray (Utf8.lossy argument))

def step (r : Reading) (argument : Bytes) : Except Failure Reading :=
  if r.flagsEnded then .error (stray (Utf8.lossy argument))
  else
    match argument with
    | [b, c] =>
        if b = hyphen ∧ c = hyphen then .ok { r with flagsEnded := true }
        else if b = hyphen then r.short [c]
        else r.plain argument
    | b :: c :: rest =>
        if b = hyphen ∧ c = hyphen then r.long rest
        else if b = hyphen then r.short (c :: rest)
        else r.plain argument
    | _ => r.plain argument

/-- Ends reading: takes over what is pending and checks what flags go together. -/
def finish (r : Reading) : Except Failure Settings := do
  let r ← r.settle
  if r.used = [] then throw (.help false)
  if r.settings.quiet && r.settings.json then
    match r.used.filter fun f => f == .quiet || f == .json with
    | first :: second :: _ => throw (.conflict first second (r.used.erase second))
    | _ => return r.settings
  return r.settings

end Reading

/-- The settings that the arguments behind the program's name spell. -/
def Settings.parse (arguments : List Bytes) : Except Failure Settings := do
  (← arguments.foldlM Reading.step Reading.start).finish

/-! ### The program's name -/

/-- What the program is called by where its name is not known. -/
def defaultProgram : String := "petebuild"

/-- What the program is called by: the last component of the path it was started with. -/
def programName (started : Option Bytes) : String :=
  match started with
  | none => defaultProgram
  | some bytes =>
      match (Path.components ⟨bytes⟩).getLast? with
      | some (.name name) => (Utf8.decode? name).getD defaultProgram
      | _ => defaultProgram

end AssetPress
