import AssetPress.CommandLine.Settings
import AssetPress.Log.Filter
import AssetPress.Report.Json
import AssetPress.Report.Summary
import AssetPress.Session

/-!
# The program

What the command does with its arguments: it reads the settings, runs the build, and answers with
an exit status and texts for the two outputs; before all that it tells which parts of the log filter
it cannot read (`Program.notices`).  It is written over any workbench; in a file tree
(`Program.runIn`) the notices and the log lines are part of the answer, and the tree is the one that
the run leaves behind.  Main statement: `runIn_of_failure` (arguments that yield no settings leave
the tree as it is).
-/

namespace AssetPress

/-- What a run answers. -/
structure Outcome where
  exitCode : Nat
  stdout : String
  stderr : String
  deriving DecidableEq, Repr

/-! ### Log lines -/

/-- A character of a log line: controls that steer terminals are shown by their codes. -/
def shownInLog (c : Char) : String :=
  if c = '\x1b' then "\\x1b"
  else if c = '\x07' then "\\x07"
  else if c = '\x08' then "\\x08"
  else if c = '\x0c' then "\\x0c"
  else if c = '\x7f' then "\\x7f"
  else if 0x80 ≤ c.toNat ∧ c.toNat ≤ 0x9f then
    "\\u\x7b" ++ String.ofList (Nat.toDigits 16 c.toNat) ++ "\x7d"
  else String.singleton c

/-- The line of the log for an event, as it is printed. -/
def Event.printed (e : Event) : String :=
  String.join (e.line.toList.map shownInLog) ++ "\n"

namespace Workbench

/-- The workbench whose log shows only what a filter enables. -/
def filtered {m : Type → Type} [Monad m] (w : Workbench m) (f : LogFilter) : Workbench m :=
  { w with log := fun e => if f.enables e then w.log e else pure () }

end Workbench

namespace Settings

/-- The plain level of the log that a verbosity asks for. -/
def level (s : Settings) : Level :=
  match s.verbosity with
  | 0 => .warn
  | 1 => .info
  | _ => .debug

/-- The text of the filter that the environment holds; bytes that are no text count as none. -/
def filterText (environment : Option Bytes) : String := (environment.bind Utf8.decode?).getD ""

/-- The filter of the log: the one from the environment, with the plain level replaced. -/
def logFilter (s : Settings) (environment : Option Bytes) : LogFilter :=
  (LogFilter.parse (filterText environment)).withPlain s.level

/-- Runs the build that the settings ask for.  What it needs is checked here, before anything is
begun, and by the build again. -/
def run {m : Type → Type} [Monad m] (w : Workbench m) (s : Settings) :
    ExceptT BuildError m Report :=
  match s.request.validate with
  | .error why => throw why
  | .ok () => w.build s.request

/-- The second check finds what the first one did. -/
theorem run_eq {m : Type → Type} [Monad m] (w : Workbench m) (s : Settings) :
    s.run w = w.build s.request := by
  cases hv : s.request.validate with
  | error why => rw [run, hv, Workbench.build, Request.build_of_invalid hv]
  | ok _ => rw [run, hv]

/-- The answer to a successful build. -/
def answer (s : Settings) (r : Report) : Outcome :=
  if s.json then
    match r.json? with
    | some text => ⟨0, text ++ "\n", ""⟩
    | none => ⟨1, "", showFailure pathNotText []⟩
  else if s.quiet then ⟨0, "", ""⟩
  else ⟨0, r.summary, ""⟩

end Settings

/-- The answer to a failed build. -/
def BuildError.answer (e : BuildError) : Outcome :=
  if e.isUsage then ⟨2, "", "Error: " ++ e.message ++ "\n"⟩
  else ⟨1, "", showFailure e.message e.causes⟩

/-- The answer to arguments that yield no settings. -/
def Failure.answer (f : Failure) (program : String) : Outcome :=
  let text := f.message .written program
  if f.isAnswer then ⟨f.exitCode, text, ""⟩ else ⟨f.exitCode, "", text⟩

namespace Program

variable {m : Type → Type} [Monad m]

/-- What is written before anything else: the parts of the log filter that cannot be read, if the
arguments can. -/
def notices (environment : Option Bytes) (arguments : List Bytes) : String :=
  match Settings.parse arguments with
  | .ok _ => LogFilter.notices (Settings.filterText environment)
  | .error _ => ""

/-- Runs the build that settings ask for. -/
def perform (w : Workbench m) (environment : Option Bytes) (s : Settings) : m Outcome := do
  match ← (s.run (w.filtered (s.logFilter environment))).run with
  | .ok report => pure (s.answer report)
  | .error e => pure e.answer

/-- Runs the program on its arguments. -/
def run (w : Workbench m) (program : String) (environment : Option Bytes)
    (arguments : List Bytes) : m Outcome :=
  match Settings.parse arguments with
  | .ok s => perform w environment s
  | .error f => pure (f.answer program)

/-- Runs the program in a file tree, as seen from directory `base`. -/
def runIn (base : Location) (program : String) (environment : Option Bytes)
    (arguments : List Bytes) (t : Tree) (minify : Minifier := .standard) : Outcome × Tree :=
  let (outcome, session) :=
    (run (Session.workbench base minify) program environment arguments).run (.ofTree t)
  let lines := String.join (session.events.map Event.printed)
  ({ outcome with stderr := notices environment arguments ++ lines ++ outcome.stderr },
    session.tree)

theorem runIn_of_failure {base : Location} {program : String} {environment : Option Bytes}
    {arguments : List Bytes} {f : Failure} (h : Settings.parse arguments = .error f) (t : Tree)
    (minify : Minifier) :
    runIn base program environment arguments t minify = (f.answer program, t) := by
  have hrun : (run (Session.workbench base minify) program environment arguments).run (.ofTree t) =
      (f.answer program, Session.ofTree t) := by
    rw [run, h]
    rfl
  rw [runIn, hrun, notices, h]
  simp [Session.ofTree]

end Program
end AssetPress
