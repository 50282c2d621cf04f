import AssetPress.Log.Directive
import AssetPress.Text.Fields

/-!
# Log filters

A filter tells which events are shown.  It is written as directives between commas; of those that
are about an event the narrowest decides, and the plain level where none is.  A directive that
cannot be read is left out, with a notice to the user.  Main statement: `enables_of_no_rule`.
-/

namespace AssetPress

/-- A filter of events: directives, and the level of the events that none is about. -/
structure LogFilter where
  rules : List Directive
  plain : Threshold
  deriving DecidableEq, Repr

namespace LogFilter

/-! ### Showing -/

/-- The narrower of two directives, of equals the later one. -/
def narrower (best : Option Directive) (d : Directive) : Option Directive :=
  match best with
  | none => some d
  | some b => if d.narrowness < b.narrowness then some b else some d

/-- The directive that decides about an event. -/
def deciding? (f : LogFilter) (e : Event) : Option Directive :=
  (f.rules.filter fun d => d.fits e).foldl narrower none

/-- The threshold for an event. -/
def threshold (f : LogFilter) (e : Event) : Threshold :=
  match f.deciding? e with
  | some d => d.threshold
  | none => f.plain

/-- Whether an event is shown. -/
def enables (f : LogFilter) (e : Event) : Bool := (f.threshold e).shows e.level

/-- The filter with another plain level. -/
def withPlain (f : LogFilter) (l : Level) : LogFilter := { f with plain := some l }

/-! ### Reading -/

/-- The filter of no directives, which shows errors alone. -/
def standard : LogFilter := ⟨[], some .error⟩

/-- The filter with one more directive.  One without a target and a field sets the plain level. -/
def add (f : LogFilter) (d : Directive) : LogFilter :=
  if d.target = none ∧ d.span = none ∧ d.field = none then { f with plain := d.threshold }
  else { f with rules := f.rules ++ [d] }

/-- The directives of a text: what stands between commas, unless it is nothing. -/
def directives (text : String) : List (List Char) :=
  (text.toList.splitOn ',').filter (· ≠ [])

/-- The filter that a text describes. -/
def parse (text : String) : LogFilter :=
  (directives text).foldl (fun f directive =>
    match Directive.read directive with
    | .ok d => f.add d
    | .error _ => f) standard

/-- The line about a directive that cannot be read. -/
def notice (directive : List Char) : String :=
  match Directive.read directive with
  | .ok _ => ""
  | .error fault =>
      let quote := String.singleton (Char.ofNat 96)
      "ignoring " ++ quote ++ String.ofList directive ++ quote ++ ": " ++ fault.message ++ "\n"

/-- The lines about the directives that cannot be read. -/
def notices (text : String) : String := String.join ((directives text).map notice)

/-! ### Laws -/

theorem enables_of_no_rule {f : LogFilter} {e : Event} (h : ∀ d ∈ f.rules, d.fits e = false) :
    f.enables e = f.plain.shows e.level := by
  have : f.rules.filter (fun d => d.fits e) = [] :=
    List.filter_eq_nil_iff.mpr fun d hd => by simp [h d hd]
  simp [enables, threshold, deciding?, this]

end LogFilter
end AssetPress
