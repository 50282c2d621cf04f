import AssetPress.Number.Binary
import AssetPress.Number.Digit

/-!
# Tokens of stylesheets

A stylesheet is a row of words, numbers, strings, marks, blanks and comments, each at its place.
Places count lines from 0 and columns from 1, a column being a unit of sixteen bits, of which
characters beyond the basic plane take two.  Every text can be read: what is broken becomes a token
of its own.  Numbers are reckoned with 64 bits as their digits are read and kept with 32.  Main
statement: `length_rest_spanFrom_le` (a run of characters never gives back what it has taken).
-/

namespace AssetPress
namespace Style

/-! ### Places -/

structure Place where
  line : Nat
  column : Nat
  deriving DecidableEq, Repr

def Place.start : Place := ⟨0, 1⟩

/-- The place behind a character, which `rest` follows.  A carriage return before a line feed ends
no line of its own. -/
def Place.after (p : Place) (c : Char) (rest : List Char) : Place :=
  if c = '\n' || c = '\x0c' then ⟨p.line + 1, 1⟩
  else if c = '\r' then
    match rest with
    | '\n' :: _ => p
    | _ => ⟨p.line + 1, 1⟩
  else if c.toNat < 65536 then ⟨p.line, p.column + 1⟩
  else ⟨p.line, p.column + 2⟩

/-- The rest of a text, and where it stands. -/
structure Cursor where
  place : Place
  rest : List Char

namespace Cursor

/-- Passes over a character. -/
def step (c : Cursor) : Cursor :=
  match c.rest with
  | [] => c
  | x :: rest => ⟨c.place.after x rest, rest⟩

/-- Passes over the characters that have a property; `read` are those before, the last first. -/
def spanFrom (p : Char → Bool) (place : Place) (read : List Char) :
    List Char → List Char × Cursor
  | [] => (read.reverse, ⟨place, []⟩)
  | c :: rest =>
      if p c then spanFrom p (place.after c rest) (c :: read) rest
      else (read.reverse, ⟨place, c :: rest⟩)

/-- The characters in front that have a property, and what is behind them. -/
def span (p : Char → Bool) (c : Cursor) : List Char × Cursor := spanFrom p c.place [] c.rest

theorem length_rest_spanFrom_le (p : Char → Bool) (place : Place) (read text : List Char) :
    (spanFrom p place read text).2.rest.length ≤ text.length := by
  induction text generalizing place read with
  | nil => exact Nat.le_refl _
  | cons c rest ih =>
      unfold spanFrom
      split
      · exact Nat.le_succ_of_le (ih _ _)
      · exact Nat.le_refl _

end Cursor

/-! ### Kinds of tokens -/

inductive Bracket where
  | round
  | square
  | curly
  deriving DecidableEq, Repr

structure Quantity where
  negative : Bool
  size : Binary
  deriving DecidableEq, Repr

/-- A number as it is written: whether it has a sign, what it stands for, and which whole number it
is, if it is written without a point and a power of ten. -/
structure Numeral where
  signed : Bool
  amount : Quantity
  whole : Option Int
  deriving DecidableEq, Repr

/-- What a token is. -/
inductive Kind where
  | name (text : List Char)
  /-- A name right behind an at sign. -/
  | atName (text : List Char)
  /-- A word right behind a hash; `named` says that it is a name. -/
  | hash (text : List Char) (named : Bool)
  | quoted (text : List Char)
  /-- A string with a line end in it. -/
  | brokenQuote (text : List Char)
  /-- An address without quotes. -/
  | address (text : List Char)
  | number (n : Numeral)
  /-- Parts of a hundred, kept as parts of one. -/
  | percentage (n : Numeral)
  | dimension (n : Numeral) (unit : List Char)
  /-- A run of blanks and line ends. -/
  | blank (text : List Char)
  | comment (text : List Char)
  | mark (c : Char)
  /-- A mark and an equals sign: a way to compare. -/
  | comparison (c : Char)
  /-- The marks around comments of documents. -/
  | documentOpen
  | documentClose
  | opening (b : Bracket)
  /-- A name and the parenthesis right behind it. -/
  | function (name : List Char)
  | closing (b : Bracket)
  deriving DecidableEq, Repr

def Kind.opened? : Kind → Option Bracket
  | opening b => some b
  | function _ => some .round
  | _ => none

structure Token where
  kind : Kind
  place : Place
  deriving DecidableEq, Repr

/-! ### Characters -/

def isLineEnd (c : Char) : Bool := c == '\n' || c == '\r' || c == '\x0c'

def isBlank (c : Char) : Bool := c == ' ' || c == '\t' || isLineEnd c

def isNameStart (c : Char) : Bool := c.isAlpha || c == '_' || 128 ≤ c.toNat || c == '\x00'

def isNamePart (c : Char) : Bool := isNameStart c || c.isDigit || c == '-'

/-- Whether an escape begins, behind its mark. -/
def isEscaped (rest : List Char) : Bool :=
  match rest with
  | c :: _ => !isLineEnd c
  | [] => true

def beginsName : List Char → Bool
  | '-' :: c :: _ => isNameStart c || c == '-' || c == '\\'
  | '\\' :: rest => isEscaped rest
  | c :: _ => isNameStart c
  | [] => false

/-- Whether a text begins with digits, perhaps behind a point. -/
def beginsDigits : List Char → Bool
  | '.' :: c :: _ => c.isDigit
  | c :: _ => c.isDigit
  | [] => false

/-- What stands for a character that cannot be shown. -/
def replacement : Char := Char.ofNat 0xfffd

/-- The character that a name holds for the given one. -/
def heldInName (c : Char) : Char := if c = '\x00' then replacement else c

namespace Cursor

/-! ### Names and strings -/

/-- The number that hexadecimal digits spell, at most `count` of them. -/
def hexDigits : (count value : Nat) → Cursor → Nat × Cursor
  | 0, value, c => (value, c)
  | count + 1, value, c =>
      match c.rest.head?.bind hexDigit? with
      | some d => hexDigits count (16 * value + d) c.step
      | none => (value, c)

def lineEnd (c : Cursor) : Cursor :=
  match c.rest with
  | '\r' :: '\n' :: _ => c.step.step
  | _ => c.step

/-- The character of an escape, behind its mark: one with a number, with a blank behind it that
belongs to it, or the character itself. -/
def escape (c : Cursor) : Char × Cursor :=
  match c.rest with
  | [] => (replacement, c)
  | first :: _ =>
      if (hexDigit? first).isSome then
        let (code, behind) := c.hexDigits 6 0
        let behind := if behind.rest.head?.any isBlank then behind.lineEnd else behind
        (if code ≠ 0 ∧ code.isValidChar then Char.ofNat code else replacement, behind)
      else (heldInName first, c.step)

/-- The characters of a name, behind those in `read`, the last first. -/
def nameFrom : (fuel : Nat) → (read : List Char) → Cursor → List Char × Cursor
  | 0, read, c => (read.reverse, c)
  | fuel + 1, read, c =>
      match c.rest with
      | [] => (read.reverse, c)
      | '\\' :: rest =>
          if isEscaped rest then
            let (x, behind) := c.step.escape
            nameFrom fuel (x :: read) behind
          else (read.reverse, c)
      | x :: _ =>
          if isNamePart x then nameFrom fuel (heldInName x :: read) c.step else (read.reverse, c)

def quotedFrom (quote : Char) : (fuel : Nat) → (read : List Char) → Cursor → Kind × Cursor
  | 0, read, c => (.quoted read.reverse, c)
  | fuel + 1, read, c =>
      match c.rest with
      | [] => (.quoted read.reverse, c)
      | '\\' :: rest =>
          match rest with
          | [] => (.quoted read.reverse, c.step)
          | x :: _ =>
              if isLineEnd x then quotedFrom quote fuel read c.step.lineEnd
              else
                let (x, behind) := c.step.escape
                quotedFrom quote fuel (x :: read) behind
      | x :: _ =>
          if x = quote then (.quoted read.reverse, c.step)
          else if isLineEnd x then (.brokenQuote read.reverse, c)
          else quotedFrom quote fuel (heldInName x :: read) c.step

def commentFrom (place : Place) (read : List Char) : List Char → List Char × Cursor
  | [] => (read.reverse, ⟨place, []⟩)
  | '*' :: '/' :: rest => (read.reverse, ⟨(place.after '*' []).after '/' rest, rest⟩)
  | c :: rest => commentFrom (place.after c rest) (c :: read) rest

/-! ### Numbers -/

/-- A digit behind a number. -/
def withDigit (b : Binary) (c : Char) : Binary :=
  (b.product .double (.ofNat .double 10)).sum .double (.ofNat .double (c.toNat - 48))

/-- The number that whole digits spell, rounded with each digit. -/
def wholeOf (digits : List Char) : Binary := digits.foldl withDigit ⟨0, 0⟩

/-- The number that digits behind a point spell, rounded with each digit; `place` is what the next
one counts for. -/
def fractionOf (sum place : Binary) : List Char → Binary
  | [] => sum
  | c :: rest =>
      fractionOf (sum.sum .double ((Binary.ofNat .double (c.toNat - 48)).product .double place))
        (place.product .double (.powerOfTen .double (-1))) rest

/-- The greatest power of ten that is told apart. -/
def maxPower : Nat := 400

/-- The power of ten behind a number: a mark, perhaps a sign, and digits. -/
def power? (c : Cursor) : Option (Int × Cursor) :=
  match c.rest with
  | e :: rest =>
      let negative := rest.head? = some '-'
      let isSigned := negative ∨ rest.head? = some '+'
      let digits := if isSigned then rest.tail else rest
      if (e = 'e' ∨ e = 'E') ∧ digits.head?.any Char.isDigit then
        let (read, behind) := (if isSigned then c.step.step else c.step).span Char.isDigit
        let size : Int := read.foldl (fun n x => min maxPower (10 * n + (x.toNat - 48))) 0
        some (if negative then -size else size, behind)
      else none
  | [] => none

/-- The least and the greatest whole numbers of 32 bits. -/
def leastWhole : Int := -2147483648
def greatestWhole : Int := 2147483647

/-- The whole number of 32 bits that is nearest to a whole number. -/
def wholeWithin (negative : Bool) (size : Binary) : Int :=
  if negative then max leastWhole (-(size.whole : Int)) else min greatestWhole size.whole

/-- A number of 64 bits with its sign, rounded to 32 bits. -/
def quantityOf (negative : Bool) (size : Binary) : Quantity := ⟨negative, size.coarser .single⟩

/-- A number with what belongs to it: a percent sign or a unit. -/
def numeric (fuel : Nat) (c : Cursor) : Kind × Cursor :=
  let negative := c.rest.head? = some '-'
  let signed := negative || c.rest.head? = some '+'
  let (digits, c) := (if signed then c.step else c).span Char.isDigit
  let (fraction, c) :=
    match c.rest with
    | '.' :: x :: _ => if x.isDigit then c.step.span Char.isDigit else ([], c)
    | _ => ([], c)
  let plain := (wholeOf digits).sum .double
    (fractionOf ⟨0, 0⟩ (.powerOfTen .double (-1)) fraction)
  let power := c.power?
  let size :=
    match power with
    | some (power, _) => plain.product .double (.powerOfTen .double power)
    | none => plain
  let c := (power.map Prod.snd).getD c
  let whole := if fraction.isEmpty && power.isNone then some (wholeWithin negative size) else none
  if c.rest.head? = some '%' then
    (.percentage ⟨signed, quantityOf negative (size.part .double 100), whole⟩, c.step)
  else
    let numeral : Numeral := ⟨signed, quantityOf negative size, whole⟩
    if beginsName c.rest then
      let (unit, c) := c.nameFrom fuel []
      (.dimension numeral unit, c)
    else (.number numeral, c)

/-! ### Tokens -/

/-- Whether a name introduces an address. -/
def isAddressName (name : List Char) : Bool := name.map Char.toLower = ['u', 'r', 'l']

def named (fuel : Nat) (c : Cursor) : Kind × Cursor :=
  let (name, c) := c.nameFrom fuel []
  if c.rest.head? = some '(' then
    let (_, inside) := c.step.span isBlank
    if isAddressName name ∧ inside.rest.head? ≠ some '"' ∧ inside.rest.head? ≠ some '\'' then
      let (text, behind) := inside.span fun x => x ≠ ')'
      (.address (text.reverse.dropWhile isBlank).reverse, behind.step)
    else (.function name, c.step)
  else (.name name, c)

/-- The mark `c`, or where an equals sign follows, the way to compare. -/
def marked (c : Char) (here : Cursor) : Kind × Cursor :=
  if here.step.rest.head? = some '=' then (.comparison c, here.step.step) else (.mark c, here.step)

def token (fuel : Nat) (x : Char) (rest : List Char) (c : Cursor) : Kind × Cursor :=
  if isBlank x then
    let (text, c) := c.span isBlank
    (.blank text, c)
  else if x = '"' || x = '\'' then c.step.quotedFrom x fuel []
  else if x = '/' && rest.head? = some '*' then
    let behind := c.step.step
    let (text, c) := commentFrom behind.place [] behind.rest
    (.comment text, c)
  else if (x = '+' || x = '-') && beginsDigits rest then c.numeric fuel
  else if beginsDigits (x :: rest) then c.numeric fuel
  else if x = '-' && rest.head? = some '-' && rest.tail.head? = some '>' then
    (.documentClose, c.step.step.step)
  else if x = '<' && rest.take 3 = ['!', '-', '-'] then (.documentOpen, c.step.step.step.step)
  else if beginsName (x :: rest) then c.named fuel
  else if x = '#' && (beginsName rest || rest.head?.any fun y => y.isDigit || y == '-') then
    let (text, behind) := c.step.nameFrom fuel []
    (.hash text (beginsName rest), behind)
  else if x = '@' && beginsName rest then
    let (text, behind) := c.step.nameFrom fuel []
    (.atName text, behind)
  else if ['$', '*', '^', '|', '~'].contains x then marked x c
  else
    let kind : Kind :=
      match x with
      | '(' => .opening .round
      | '[' => .opening .square
      | '\x7b' => .opening .curly
      | ')' => .closing .round
      | ']' => .closing .square
      | '\x7d' => .closing .curly
      | _ => .mark x
    (kind, c.step)

/-- The tokens up to the end and the place there; `read` are those before, the last first. -/
def tokensFrom : (fuel : Nat) → (read : List Token) → Cursor → List Token × Place
  | 0, read, c => (read.reverse, c.place)
  | fuel + 1, read, c =>
      match c.rest with
      | [] => (read.reverse, c.place)
      | x :: rest =>
          let (kind, behind) := c.token fuel x rest
          tokensFrom fuel (⟨kind, c.place⟩ :: read) behind

end Cursor

/-- The tokens of a text, and the place behind them. -/
def Token.scan (text : List Char) : List Token × Place :=
  Cursor.tokensFrom (text.length + 1) [] ⟨.start, text⟩

end Style
end AssetPress
