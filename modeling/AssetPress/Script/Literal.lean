import AssetPress.Number.Binary
import AssetPress.Script.Numeral

/-!
# Literals of scripts

Numbers and strings as they are written in scripts.  A number stands for the nearest number of 64
bits and is printed in the fewest digits that do; a string stands for the characters between its
quotes, of which some are written behind a backslash, and is printed between back-quotes.
-/

namespace AssetPress
namespace Script

inductive Literal where
  /-- A number as it is printed. -/
  | number (digits : List Char)
  | string (content : List Char)
  | truth (value : Bool)
  | null
  /-- A regular expression with its slashes and letters. -/
  | pattern (text : List Char)
  deriving DecidableEq, Repr

/-! ### Numbers -/

/-- The largest power of ten that is told apart. -/
def maxPower : Nat := 2000

def basedNumber (base : Nat) (digits : List Char) : Nat :=
  digits.foldl (fun n c => base * n + digitValue c) 0

/-- The power of ten that is written behind its mark; it has at least one digit. -/
def readPower? (text : List Char) : Option Int :=
  let digits := if text.head? = some '-' ∨ text.head? = some '+' then text.tail else text
  if digits = [] then none
  else
    let size : Int := min maxPower (numberOf digits)
    some (if text.head? = some '-' then -size else size)

/-- A number that is written with whole digits, perhaps a point, and perhaps a power of ten. -/
def readDecimal? (text : List Char) : Option Decimal :=
  let isPlain (c : Char) : Bool := c.isDigit || c == '.'
  let whole := text.takeWhile Char.isDigit
  let fraction := ((text.takeWhile isPlain).dropWhile Char.isDigit).drop 1
  match text.dropWhile isPlain with
  | [] => some (.ofDigits whole fraction 0)
  | _ :: power => (readPower? power).map (Decimal.ofDigits whole fraction)

/-- The least number too large to be written by another base than ten. -/
def tooLarge : Nat := 18446744073709551616

/-- The number that digits of a base spell, if there are any and it is not too large. -/
def readBased? (base : Nat) (digits : List Char) : Option Decimal :=
  let n := basedNumber base digits
  if digits = [] ∨ tooLarge ≤ n then none else some ⟨n, 0⟩

def readNumber? (text : List Char) : Option Decimal :=
  match text with
  | '0' :: letter :: digits =>
      match baseOf? letter with
      | some base => readBased? base digits
      | none => readDecimal? text
  | _ => readDecimal? text

/-- The least power of two that is too large for a number. -/
def maxExponent : Int := 1024

/-- The text of a number; one that is too large has no digits. -/
def printNumber (d : Decimal) : List Char :=
  let b := d.nearest .double
  if maxExponent ≤ b.exponent + Precision.double.bits then "inf".toList
  else (b.shortest .double).positional

/-! ### Strings -/

/-- The character that stands behind a backslash, where it is a single one. -/
def escaped (c : Char) : List Char :=
  match c with
  | '\n' => []
  | 'b' => ['\x08']
  | 'f' => ['\x0c']
  | 'n' => ['\n']
  | 'r' => ['\r']
  | 't' => ['\t']
  | 'v' => ['\x0b']
  | _ => [c]

/-- The character with a code, if there is one. -/
def charOf? (code : Nat) : Option Char :=
  if code.isValidChar then some (Char.ofNat code) else none

/-- How far an escape has been read; a code is kept as far as its digits go. -/
inductive Escape where
  /-- No escape has begun. -/
  | none
  /-- A backslash. -/
  | begun
  /-- Up to three octal digits. -/
  | octal (code count : Nat)
  /-- Hexadecimal digits, of which some are still owed. -/
  | hex (code owed : Nat)
  /-- The letter before four hexadecimal digits or braces. -/
  | long
  /-- Hexadecimal digits between braces. -/
  | braces (code count : Nat)
  deriving DecidableEq, Repr

namespace Escape

/-- The characters that one more character completes, and what has begun behind it. -/
abbrev Outcome := Option (List Char × Escape)

/-- A character that no escape holds. -/
def plain (c : Char) : List Char × Escape := if c = '\\' then ([], begun) else ([c], none)

/-- A hexadecimal digit, behind a code of which some digits are owed. -/
def feedHex (code owed : Nat) (c : Char) : Outcome :=
  if 16 ≤ digitValue c then .none
  else
    let code := 16 * code + digitValue c
    if owed ≤ 1 then (charOf? code).map fun c => ([c], none) else some ([], hex code (owed - 1))

/-- The next character. -/
def feed (c : Char) : Escape → Outcome
  | none => some (plain c)
  | begun =>
      if digitValue c < 8 then some ([], octal (digitValue c) 1)
      else if c = 'x' then some ([], hex 0 2)
      else if c = 'u' then some ([], long)
      else some (escaped c, none)
  | octal code count =>
      if digitValue c < 8 ∧ count < 3 then some ([], octal (8 * code + digitValue c) (count + 1))
      else
        let (out, next) := plain c
        some (Char.ofNat code :: out, next)
  | hex code owed => feedHex code owed c
  | long => if c = '\x7b' then some ([], braces 0 0) else feedHex 0 4 c
  | braces code count =>
      if c = '\x7d' then
        if 1 ≤ count ∧ count ≤ 6 then (charOf? code).map fun c => ([c], none) else .none
      else if 16 ≤ digitValue c ∨ 6 ≤ count then .none
      else some ([], braces (16 * code + digitValue c) (count + 1))

/-- The characters that the end completes. -/
def finish : Escape → Option (List Char)
  | none => some []
  | octal code _ => some [Char.ofNat code]
  | _ => .none

/-- The characters that a text stands for, behind what has begun. -/
def readFrom (state : Escape) : List Char → Option (List Char)
  | [] => state.finish
  | c :: rest => do
      let (out, next) ← state.feed c
      let more ← readFrom next rest
      some (out ++ more)

end Escape

/-- The characters that a text between quotes stands for, if all its escapes are right. -/
def unescape? (text : List Char) : Option (List Char) := Escape.readFrom .none text

/-- A character of a string between back-quotes. -/
def escapeQuoted (c : Char) : List Char :=
  if c = backQuote || c = '$' || c = '\\' then ['\\', c] else [c]

def Literal.print : Literal → List Char
  | number digits => digits
  | string content => backQuote :: content.flatMap escapeQuoted ++ [backQuote]
  | truth true => ['!', '0']
  | truth false => ['!', '1']
  | null => ['n', 'u', 'l', 'l']
  | pattern text => text

/-! ### Laws -/

theorem unescape?_of_plain {text : List Char} (h : '\\' ∉ text) : unescape? text = some text := by
  unfold unescape?
  induction text with
  | nil => rfl
  | cons c rest ih =>
      have hc : c ≠ '\\' := fun heq => h (heq ▸ List.mem_cons_self)
      have hrest := ih fun hmem => h (List.mem_cons_of_mem _ hmem)
      simp [Escape.readFrom, Escape.feed, Escape.plain, hc, hrest]

end Script
end AssetPress
