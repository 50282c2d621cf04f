/-!
# Flags of the command line

The flags that the program understands: four that take a value, a counted one, two switches and
the request for help.
-/

namespace AssetPress

inductive Flag where
  | version
  | scripts
  | styles
  | buildDir
  | verbose
  | quiet
  | json
  | help
  deriving DecidableEq, Repr

namespace Flag

/-- All flags, in the order in which they are explained. -/
def all : List Flag := [version, scripts, styles, buildDir, verbose, quiet, json, help]

theorem mem_all (f : Flag) : f ∈ all := by cases f <;> decide

/-- The name of a flag, which stands behind two hyphens. -/
def name : Flag → String
  | version => "version"
  | scripts => "js_src"
  | styles => "css_src"
  | buildDir => "build_dir"
  | verbose => "verbose"
  | quiet => "quiet"
  | json => "json"
  | help => "help"

/-- The letter that stands for a flag behind one hyphen, if it has one. -/
def letter? : Flag → Option Char
  | version => some 'v'
  | help => some 'h'
  | _ => none

/-- What the value of a flag is called, if it takes one. -/
def placeholder? : Flag → Option String
  | version => some "VERSION"
  | scripts => some "PATH"
  | styles => some "PATH"
  | buildDir => some "PATH"
  | _ => none

def takesValue (f : Flag) : Bool := f.placeholder?.isSome

def about : Flag → String
  | version => "The version of the minified script, must be specified"
  | scripts => "The location of the JavaScript source files, must be specified"
  | styles => "The location of the CSS files"
  | buildDir => "The location where the minified files will be written [default: .]"
  | verbose => "Enable verbose output (repeat for debug)"
  | quiet => "Suppress the build summary"
  | json => "Print the build report as JSON"
  | help => "Print help"

def ofName? (name : String) : Option Flag := all.find? fun f => f.name == name

def ofLetter? (c : Char) : Option Flag := all.find? fun f => f.letter? == some c

theorem ofName?_name (f : Flag) : ofName? f.name = some f := by cases f <;> decide

/-- A flag as it is shown: with what its value is called, or dots where it may be repeated. -/
def shown (f : Flag) : String :=
  "--" ++ f.name ++
    match f.placeholder? with
    | some placeholder => " <" ++ placeholder ++ ">"
    | none => if f = verbose then "..." else ""

end Flag
end AssetPress
