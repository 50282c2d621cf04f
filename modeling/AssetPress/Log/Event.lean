import AssetPress.Path

/-!
# Log events

What a build reports about its own work: an event for each step worth telling.  Each event has a
level and a target, the part of the program it comes from; a filter (`LogFilter`) shows or hides
it by these two.
-/

namespace AssetPress

/-! ### Levels -/

/-- How much an event matters, the weightiest first. -/
inductive Level where
  | error
  | warn
  | info
  | debug
  | trace
  deriving DecidableEq, Repr

namespace Level

/-- How far down the scale a level stands. -/
def rank : Level → Nat
  | error => 1
  | warn => 2
  | info => 3
  | debug => 4
  | trace => 5

/-- The name of a level, as a log line begins with it. -/
def name : Level → String
  | error => "ERROR"
  | warn => "WARN"
  | info => "INFO"
  | debug => "DEBUG"
  | trace => "TRACE"

end Level

/-! ### Events -/

/-- A step of a build that is worth telling. -/
inductive Event where
  /-- The version is none of the usual form. -/
  | unusualVersion (version : String)
  | pressingScripts (source : Path) (output : String)
  | pressingStyles (source : Path) (output : String)
  | noStyles
  | reading (path : Path)
  | wrote (path : Path) (size : Nat)
  deriving DecidableEq, Repr

namespace Event

/-- The level at which an event is told. -/
def level : Event → Level
  | unusualVersion _ => .warn
  | pressingScripts _ _ => .info
  | pressingStyles _ _ => .info
  | noStyles => .debug
  | reading _ => .debug
  | wrote _ _ => .info

/-- The part of the program that steers a build. -/
def buildTarget : String := "petebuild::core::build"

/-- The part of the program that reads, shrinks and writes files. -/
def bundleTarget : String := "petebuild::infra::minify"

/-- The part of the program an event comes from. -/
def target : Event → String
  | unusualVersion _ => buildTarget
  | pressingScripts _ _ => buildTarget
  | pressingStyles _ _ => buildTarget
  | noStyles => buildTarget
  | reading _ => bundleTarget
  | wrote _ _ => bundleTarget

/-- The names of the fields that every event has. -/
def fields : List String := ["message"]

def message : Event → String
  | unusualVersion version => "Version '" ++ version ++ "' is not a semantic version"
  | pressingScripts source output =>
      "Compressing JavaScript from " ++ source.display ++ " into " ++ output
  | pressingStyles source output => "Compressing CSS from " ++ source.display ++ " into " ++ output
  | noStyles => "No CSS source given, skipping stylesheets"
  | reading path => "Reading " ++ path.display
  | wrote path size => "Wrote " ++ path.display ++ " (" ++ toString size ++ " bytes)"

/-- The line of the log for an event. -/
def line (e : Event) : String := e.level.name ++ " " ++ e.target ++ ": " ++ e.message

end Event
end AssetPress
