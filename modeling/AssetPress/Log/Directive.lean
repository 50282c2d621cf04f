import AssetPress.Log.Event
import AssetPress.Log.Pattern
import AssetPress.Text.Utf8

/-!
# Directives of log filters

A directive sets a level for some of the events: `level` for all, `target` or `target=level` for
those whose target begins with the given text, and `target[{field}]=level` for those that have a
field of the given name as well.  A name before the braces, or a value behind the field, asks for
more than an event can offer, and the directive then holds for none; but the value must be a number
or a pattern.

Blanks around a directive are passed over while its marks are looked for, but the places that are
found are counted from the first character that is no blank; so behind a blank every part is cut
that much too early.
-/

namespace AssetPress

/-! ### Levels -/

/-- How far down events are shown; `none` shows nothing. -/
abbrev Threshold := Option Level

namespace Threshold

/-- Whether events of a level are shown. -/
def shows (t : Threshold) (l : Level) : Bool :=
  match t with
  | none => false
  | some lowest => l.rank ≤ lowest.rank

/-- The threshold that shows everything. -/
def all : Threshold := some .trace

/-- The threshold of a number. -/
def ofNumber? : Nat → Option Threshold
  | 0 => some none
  | 1 => some (some .error)
  | 2 => some (some .warn)
  | 3 => some (some .info)
  | 4 => some (some .debug)
  | 5 => some (some .trace)
  | _ => none

/-- The threshold of a name, in whatever case. -/
def ofName? (word : String) : Option Threshold :=
  match word.map Char.toLower with
  | "off" => some none
  | "error" => some (some .error)
  | "warn" => some (some .warn)
  | "info" => some (some .info)
  | "debug" => some (some .debug)
  | "trace" => some (some .trace)
  | _ => none

/-- The number that digits spell, perhaps behind a plus. -/
def number? (word : List Char) : Option Nat :=
  let digits := if word.head? = some '+' then word.tail else word
  if digits ≠ [] ∧ digits.all Char.isDigit then
    some (digits.foldl (fun n c => min 6 (10 * n + (c.toNat - 48))) 0)
  else none

/-- The threshold that a number or a name stands for. -/
def ofWord? (word : String) : Option Threshold :=
  ((number? word.toList).bind ofNumber?).or (ofName? word)

end Threshold

/-! ### Directives -/

/-- What an event must have: a field of the given name, with a certain value if `valued`. -/
structure FieldTest where
  name : String
  valued : Bool
  deriving DecidableEq, Repr

/-- A level for some events: those whose target begins with a text, within a span if one is named,
and with a field. -/
structure Directive where
  target : Option Bytes
  span : Option Bytes
  field : Option FieldTest
  threshold : Threshold
  deriving DecidableEq, Repr

/-- Why a directive cannot be read. -/
inductive DirectiveFault where
  | malformed
  | level
  | field (fault : PatternFault)
  deriving DecidableEq, Repr

/-- What a message says about a value that is no pattern. -/
def PatternFault.message : PatternFault → String
  | malformed => "error building NFA"
  | wordBorder =>
      "unsupported regex feature for DFAs: cannot build DFAs for regexes with Unicode word " ++
        "boundaries; switch to ASCII word boundaries, or heuristically enable Unicode word " ++
        "boundaries or use a different regex engine"

/-- What a message says about a directive that cannot be read. -/
def DirectiveFault.message : DirectiveFault → String
  | malformed => "invalid filter directive"
  | level =>
      "error parsing level filter: expected one of \"off\", \"error\", \"warn\", \"info\", " ++
        "\"debug\", \"trace\", or a number 0-5"
  | field fault => "invalid field filter: " ++ fault.message

namespace Directive

/-- The directive that shows all events. -/
def everything : Directive := ⟨none, none, none, .all⟩

/-- Which part of a directive is being read, and where it began. -/
inductive Part where
  | start
  /-- A level or a target. -/
  | word
  | span (begun : Nat)
  | field (begun : Nat)
  /-- Behind the braces. -/
  | fields
  /-- Behind the brackets. -/
  | behind
  | level (begun : Nat)
  deriving DecidableEq, Repr

/-- The bytes from one place to before another.  Behind a blank such a cut may fall inside a
character of several bytes; it is assumed that this never makes the reading of a filter fail. -/
def slice (text : Bytes) (low high : Nat) : Bytes := (text.drop low).take (high - low)

/-- Whether digits, perhaps with a fraction and an exponent, spell a number. -/
def isDecimal (text : List Char) : Bool :=
  let (whole, rest) := text.span Char.isDigit
  let (fraction, rest) :=
    match rest with
    | '.' :: rest => rest.span Char.isDigit
    | _ => ([], rest)
  let hasExponent :=
    match rest with
    | [] => true
    | e :: rest =>
        let digits := if rest.head? = some '+' ∨ rest.head? = some '-' then rest.tail else rest
        (e == 'e' || e == 'E') && !digits.isEmpty && digits.all Char.isDigit
  !(whole ++ fraction).isEmpty && hasExponent

/-- Whether a text spells a number, perhaps behind a sign. -/
def isNumber (text : List Char) : Bool :=
  let unsigned := if text.head? = some '+' ∨ text.head? = some '-' then text.tail else text
  isDecimal unsigned ||
    ["inf", "infinity", "nan"].contains (String.ofList (unsigned.map Char.toLower))

/-- The field that is asked for: a name, perhaps with a value, which ends at another equals
sign. -/
def fieldTest (text : Bytes) : Except DirectiveFault FieldTest :=
  let (name, rest) := (Utf8.lossy text).toList.span (· ≠ '=')
  let value := rest.tail.takeWhile (· ≠ '=')
  let test : FieldTest := ⟨String.ofList name, !rest.isEmpty⟩
  match if isNumber value then none else Pattern.fault? value with
  | none => .ok test
  | some fault => .error (.field fault)

/-- The threshold that a part spells; an empty part stands for all. -/
def threshold? (text : Bytes) : Except DirectiveFault Threshold :=
  if text = [] then .ok .all
  else
    match Threshold.ofWord? (Utf8.lossy text) with
    | some t => .ok t
    | none => .error .level

/-- Whether a character may begin a level or a target. -/
def isWordStart (c : Char) : Bool := c == '-' || c == ':' || c == '_' || isLetterOrDigit c

/-- The next character `c`, which stands at a place of the text. -/
def step (text : Bytes) (place : Nat) (c : Char) (d : Directive) :
    Part → Except DirectiveFault (Directive × Part)
  | .start =>
      if c = '[' then .ok (d, .span (place + 1))
      else if isWordStart c then .ok (d, .word)
      else .error .malformed
  | .word =>
      if c = '=' then .ok ({ d with target := some (slice text 0 place) }, .level (place + 1))
      else if c = '[' then .ok ({ d with target := some (slice text 0 place) }, .span (place + 1))
      else .ok (d, .word)
  | .span begun =>
      let name := slice text begun place
      if c = ']' then .ok ({ d with span := some name }, .behind)
      else if c = '\x7b' then
        .ok ({ d with span := if name = [] then none else some name }, .field (place + 1))
      else .ok (d, .span begun)
  | .field begun =>
      if c = '\x7d' then
        let inside := slice text begun place
        if inside = [] then .error .malformed
        else (fieldTest inside).map fun test => ({ d with field := some test }, .fields)
      else .ok (d, .field begun)
  | .fields => if c = ']' then .ok (d, .behind) else .error .malformed
  | .behind => if c = '=' then .ok (d, .level (place + 1)) else .error .malformed
  | .level begun => .ok (d, .level begun)

/-- The end of the text. -/
def finish (text : Bytes) (d : Directive) : Part → Except DirectiveFault Directive
  | .word =>
      match Threshold.ofWord? (Utf8.lossy text) with
      | some t => .ok { d with threshold := t }
      | none => .ok { d with target := some text }
  | .level begun => do return { d with threshold := ← threshold? (text.drop begun) }
  | .behind => .ok d
  | _ => .error .malformed

/-- Reads characters that stand from a place on. -/
def readFrom (text : Bytes) (place : Nat) (d : Directive) (part : Part) :
    List Char → Except DirectiveFault Directive
  | [] => finish text d part
  | c :: rest => do
      let (d, part) ← step text place c d part
      readFrom text (place + (Utf8.encodeChar c).length) d part rest

/-- Reads a directive. -/
def read (text : List Char) : Except DirectiveFault Directive :=
  let behindBlanks := text.dropWhile isBlankChar
  let inner := (behindBlanks.reverse.dropWhile isBlankChar).reverse
  readFrom (Utf8.encodeChars text) 0 everything .start inner

/-- Whether the directive is about an event. -/
def fits (d : Directive) (e : Event) : Bool :=
  d.span.isNone &&
    (match d.target with
      | some target => target.isPrefixOf (Utf8.encode e.target)
      | none => true) &&
    (match d.field with
      | some test => !test.valued && Event.fields.contains test.name
      | none => true)

/-- How narrow a directive is: first by its target, then by its field. -/
def narrowness (d : Directive) : Nat :=
  2 * ((d.target.map fun target => target.length + 1).getD 0) + (if d.field.isSome then 1 else 0)

end Directive
end AssetPress
