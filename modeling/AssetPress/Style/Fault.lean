import AssetPress.Style.Token

/-!
# Faults of stylesheets

What can be wrong with a stylesheet, and the messages about it, which show the token that does not
fit.
-/

namespace AssetPress
namespace Style

/-! ### Faults -/

inductive Problem where
  | endOfInput
  | unexpected (got : Kind)
  /-- No selector where one has to stand. -/
  | emptySelector
  /-- A combinator with nothing behind it. -/
  | danglingCombinator
  /-- Something else where the name of a class has to stand. -/
  | className (got : Kind)
  /-- Something else where a name has to stand behind colons. -/
  | pseudoName (got : Kind)
  /-- A combinator behind a part of an element. -/
  | state
  /-- A simple selector behind a part of an element. -/
  | behindPart (got : Kind)
  /-- The prefix of a namespace, none of which is known. -/
  | foreign (name : List Char)
  /-- Something else where a name has to stand behind a namespace. -/
  | qualified (got : Kind)
  /-- Something else where the name of an attribute has to stand, or behind it. -/
  | attributeName (got : Kind)
  | attributeQualified (got : Kind)
  | attributeBar (got : Kind)
  | attributeMark (got : Kind)
  | attributeValue (got : Kind)
  /-- Blocks within too many blocks. -/
  | depth
  deriving DecidableEq, Repr

structure Fault where
  problem : Problem
  place : Place
  deriving DecidableEq, Repr

/-! ### Quoted texts -/

/-- Ranges of characters that are shown by their numbers: controls, blanks other than the plain
one, and marks that have no width of their own. -/
def hiddenRanges : List (Nat × Nat) :=
  [(0x0, 0x1f), (0x7f, 0xa0), (0xad, 0xad), (0x300, 0x36f), (0x483, 0x489), (0x591, 0x5bd),
    (0x600, 0x605), (0x61c, 0x61c), (0x1680, 0x1680), (0x180e, 0x180e), (0x2000, 0x200f),
    (0x2028, 0x202f), (0x205f, 0x206f), (0x20d0, 0x20f0), (0x3000, 0x3000), (0xe000, 0xf8ff),
    (0xfe00, 0xfe0f), (0xfe20, 0xfe2f), (0xfeff, 0xfeff), (0xfff0, 0xfffb), (0xfffe, 0xffff)]

/-- A character that is shown by its number. -/
def labelCode (c : Char) : List Char :=
  ['\\', 'u', '\x7b'] ++ Nat.toDigits 16 c.toNat ++ ['\x7d']

/-- A character of a quoted text. -/
def labelChar (c : Char) : List Char :=
  match c with
  | '\n' => ['\\', 'n']
  | '\t' => ['\\', 't']
  | '\r' => ['\\', 'r']
  | '\x00' => ['\\', '0']
  | '"' => ['\\', '"']
  | '\\' => ['\\', '\\']
  | _ =>
      if hiddenRanges.any fun (low, high) => low ≤ c.toNat && c.toNat ≤ high then labelCode c
      else [c]

def labelText (text : List Char) : String :=
  String.ofList ('"' :: text.flatMap labelChar ++ ['"'])

def labelMark (c : Char) : String :=
  let shown := if c = '\'' then ['\\', '\''] else if c = '"' then ['"'] else labelChar c
  String.ofList ('\'' :: shown ++ ['\''])

/-! ### Numbers -/

/-- The text of a size: with a point, or with a power of ten if it is very large or small. -/
def labelSize (size : Binary) : List Char :=
  if size.isInfinite .single then ['i', 'n', 'f']
  else
    let d := size.shortest .single
    if d.digits ≠ 0 ∧ (d.order < -4 ∨ 16 ≤ d.order) then d.scientific
    else
      let text := d.positional
      if text.contains '.' then text else text ++ ['.', '0']

def Quantity.label (q : Quantity) : String :=
  String.ofList ((if q.negative then ['-'] else []) ++ labelSize q.size)

/-- The parts of a number, its value being called `value`. -/
def Numeral.label (value : String) (n : Numeral) : String :=
  let whole :=
    match n.whole with
    | some whole => "Some(" ++ toString whole ++ ")"
    | none => "None"
  "has_sign: " ++ toString n.signed ++ ", " ++ value ++ ": " ++ n.amount.label ++
    ", int_value: " ++ whole

/-! ### Tokens -/

def markLabel (c : Char) : String :=
  match c with
  | ':' => "Colon"
  | ';' => "Semicolon"
  | ',' => "Comma"
  | _ => "Delim(" ++ labelMark c ++ ")"

def comparisonLabel (c : Char) : String :=
  match c with
  | '~' => "IncludeMatch"
  | '|' => "DashMatch"
  | '^' => "PrefixMatch"
  | '$' => "SuffixMatch"
  | _ => "SubstringMatch"

def Bracket.label : Bracket → String
  | round => "Parenthesis"
  | square => "SquareBracket"
  | curly => "CurlyBracket"

/-- What a message shows between braces behind a name. -/
def fieldsLabel (name fields : String) : String := name ++ " \x7b " ++ fields ++ " \x7d"

def Kind.label : Kind → String
  | name text => "Ident(" ++ labelText text ++ ")"
  | atName text => "AtKeyword(" ++ labelText text ++ ")"
  | hash text true => "IDHash(" ++ labelText text ++ ")"
  | hash text false => "Hash(" ++ labelText text ++ ")"
  | quoted text => "String(" ++ labelText text ++ ")"
  | brokenQuote text => "BadString(" ++ labelText text ++ ")"
  | address text => "UnquotedUrl(" ++ labelText text ++ ")"
  | number n => fieldsLabel "Number" (n.label "value")
  | percentage n => fieldsLabel "Percentage" (n.label "unit_value")
  | dimension n unit => fieldsLabel "Dimension" (n.label "value" ++ ", unit: " ++ labelText unit)
  | blank text => "WhiteSpace(" ++ labelText text ++ ")"
  | comment text => "Comment(" ++ labelText text ++ ")"
  | mark c => markLabel c
  | comparison c => comparisonLabel c
  | documentOpen => "CDO"
  | documentClose => "CDC"
  | opening b => b.label ++ "Block"
  | function word => "Function(" ++ labelText word ++ ")"
  | closing b => "Close" ++ b.label

/-! ### Messages -/

def Problem.label : Problem → String
  | endOfInput => "Unexpected end of input"
  | unexpected got => "Unexpected token " ++ got.label
  | emptySelector => "Invalid empty selector"
  | danglingCombinator => "Invalid dangling combinator in selector"
  | className got => "Expected identifier in class selector, got " ++ got.label
  | pseudoName got => "Expected identifier in pseudo element, got " ++ got.label
  | state => "Invalid state"
  | behindPart got =>
      "Pseudo-elements like '::before' or '::after' can't be followed by selectors like '" ++
        got.label ++ "'"
  | foreign name => "Expected namespace '" ++ String.ofList name ++ "'"
  | qualified got => "Unexpected token in namespace selector: " ++ got.label
  | attributeName got => "No qualified name in attribute selector: " ++ got.label ++ "."
  | attributeQualified got => "Invalid qualified name in attribute selector: " ++ got.label
  | attributeBar got => "Expected | in attribute, got " ++ got.label
  | attributeMark got => "Unexpected token in attribute selector: " ++ got.label
  | attributeValue got => "Expected value in attribute selector, got " ++ got.label
  | depth => "Overflowed the maximum nesting depth"

def Fault.message (f : Fault) : String :=
  f.problem.label ++ " at :" ++ toString f.place.line ++ ":" ++ toString f.place.column

end Style
end AssetPress
