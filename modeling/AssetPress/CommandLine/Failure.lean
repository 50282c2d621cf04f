import AssetPress.CommandLine.Flag
import AssetPress.Text.Terminal

/-!
# What a command line can come to instead of settings

The help text, which the user may have asked for, and complaints about the arguments.  Most
complaints show how the program is used: with the flags that were understood so far, with some
flag to choose, or with flags in general where none was.  What the user has written is shown without
terminal controls.
-/

namespace AssetPress

/-- Why a command line yields no settings. -/
inductive Failure where
  /-- Help is shown, on demand or because there are no arguments. -/
  | help (asked : Bool)
  /-- An argument that is not understood, the flag that may be meant, and the flags used. -/
  | unknown (argument : String) (similar : Option Flag) (used : List Flag)
  | missingValue (flag : Flag)
  | repeated (flag : Flag)
  /-- A value for a flag that takes none, and the flags used before it. -/
  | unneededValue (value : String) (flag : Flag) (used : List Flag)
  /-- A value that is no text. -/
  | notText
  /-- Two flags that exclude each other, and the flags used but for the second. -/
  | conflict (first second : Flag) (used : List Flag)
  deriving DecidableEq, Repr

/-! ### Help -/

/-- What the program does, in one line. -/
def aboutProgram : String :=
  "Build script for PeteJS - concatenates and minifies the library into versioned artifacts"

/-- A text with blanks behind it, up to the given width. -/
def padded (width : Nat) (text : String) : String :=
  text ++ String.ofList (List.replicate (width - text.length) ' ')

/-- The line of the help text for a flag. -/
def Flag.helpLine (f : Flag) : String :=
  let letter := match f.letter? with
    | some c => "-" ++ String.singleton c ++ ", "
    | none => "    "
  let width := (Flag.all.map fun g => g.shown.length).foldr max 0
  "  " ++ letter ++ padded width f.shown ++ "  " ++ f.about ++ "\n"

/-- The help text; `program` is what the program is called by, as it is shown. -/
def helpText (program : String) : String :=
  aboutProgram ++ "\n\nUsage: " ++ program ++ " [OPTIONS]\n\nOptions:\n" ++
    String.join (Flag.all.map Flag.helpLine) ++
    "\nExample:\n  petebuild -v 3.0.0 --js_src src/ --css_src resources/css/ --build_dir build\n"

/-! ### Complaints -/

/-- How the use of the program is shown. -/
inductive Use where
  /-- With some flags, or with flags in general if there are none. -/
  | flags (used : List Flag)
  /-- With some flags, and any other that is to be chosen. -/
  | choice (used : List Flag)
  deriving DecidableEq, Repr

/-- The flags to choose from: all that set something. -/
def Flag.choices : List Flag := all.filter (· ≠ .help)

/-- The line that shows the use of the program. -/
def Use.line (program : String) (u : Use) : String :=
  "\n\nUsage: " ++ program ++
    match u with
    | flags [] => " [OPTIONS]"
    | flags used => String.join (used.map fun f => " " ++ f.shown)
    | choice used =>
        String.join (used.map fun f => " " ++ f.shown) ++
          " <" ++ "|".intercalate (Flag.choices.map Flag.shown) ++ ">"

namespace Failure

/-- What is wrong, in one line. -/
def complaint (s : Showing) : Failure → String
  | help _ => ""
  | unknown argument _ _ => "unexpected argument '" ++ s.shown argument ++ "' found"
  | missingValue flag => "a value is required for '" ++ flag.shown ++ "' but none was supplied"
  | repeated flag => "the argument '" ++ flag.shown ++ "' cannot be used multiple times"
  | unneededValue value flag _ =>
      "unexpected value '" ++ s.shown value ++ "' for '" ++ flag.shown ++
        "' found; no more were expected"
  | notText => "invalid UTF-8 was detected in one or more arguments"
  | conflict first second _ =>
      "the argument '" ++ first.shown ++ "' cannot be used with '" ++ second.shown ++ "'"

/-- What may be meant. -/
def tip : Failure → String
  | unknown _ (some flag) _ => "\n\n  tip: a similar argument exists: '--" ++ flag.name ++ "'"
  | _ => ""

/-- How the use of the program is shown, if it is. -/
def use? : Failure → Option Use
  | help _ => none
  | unknown _ _ used => some (.flags used)
  | missingValue _ => none
  | repeated _ => some (.flags [])
  | unneededValue _ flag [] => some (.flags [flag])
  | unneededValue _ flag _ => some (.choice ([flag].filter fun f => f ∉ Flag.choices))
  | notText => some (.flags [])
  | conflict _ _ used => some (.flags used)

def message (s : Showing) (program : String) (f : Failure) : String :=
  match f with
  | help _ => helpText (s.shown program)
  | _ =>
      "error: " ++ f.complaint s ++ f.tip ++ ((f.use?.map (Use.line (s.shown program))).getD "") ++
        "\n\nFor more information, try '--help'.\n"

def isAnswer (f : Failure) : Bool := f == help true

def exitCode (f : Failure) : Nat := if f.isAnswer then 0 else 2

end Failure
end AssetPress
