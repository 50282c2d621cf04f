import AssetPress.Script.Kind

/-!
# Numerals

How far a number reaches in a text.  A number has whole digits, perhaps a point and more digits,
and perhaps a power of ten; behind a zero, a letter may stand for another base.  A letter behind
whole digits makes a number of any size of them.  Main statement: `Numeral.split_append`, so that
nothing of the text is lost.
-/

namespace AssetPress
namespace Script

/-- The value of a digit, also of one beyond nine. -/
def digitValue (c : Char) : Nat :=
  if c.isDigit then c.toNat - 48
  else if c.isLower then c.toNat - 87
  else if c.isUpper then c.toNat - 55
  else 36

/-- The base that a letter behind a zero stands for. -/
def baseOf? (c : Char) : Option Nat :=
  match c with
  | 'b' | 'B' => some 2
  | 'o' | 'O' => some 8
  | 'x' | 'X' => some 16
  | _ => none

/-- How far a number has been read. -/
inductive Numeral where
  /-- A single zero. -/
  | zero
  | whole
  | fraction
  /-- The mark before a power of ten. -/
  | mark
  | power
  /-- Digits that count by another base. -/
  | based (base : Nat)
  /-- The letter behind a number of any size. -/
  | big
  deriving DecidableEq, Repr

namespace Numeral

/-- How far a number has been read behind one more character, if that goes on with it. -/
def next? (part : Numeral) (c : Char) : Option Numeral :=
  match part with
  | zero =>
      match baseOf? c with
      | some base => some (based base)
      | none => wholeNext? c
  | whole => wholeNext? c
  | fraction => if c.isDigit then some fraction else markNext? c
  | mark => if c.isDigit || c == '+' || c == '-' then some power else none
  | power => if c.isDigit then some power else none
  | based base =>
      if digitValue c < base then some (based base) else if c = 'n' then some big else none
  | big => none
where
  /-- Behind whole digits. -/
  wholeNext? (c : Char) : Option Numeral :=
    if c.isDigit then some whole
    else if c = '.' then some fraction
    else if c = 'n' then some big
    else markNext? c
  /-- Where a power of ten may follow. -/
  markNext? (c : Char) : Option Numeral := if c = 'e' ∨ c = 'E' then some mark else none

/-- How far a number has been read behind its first character. -/
def ofFirst (c : Char) : Numeral := if c = '0' then zero else if c = '.' then fraction else whole

/-- The part of a text that goes on with a number, how far that is read there, and the rest. -/
def split (part : Numeral) : List Char → List Char × Numeral × List Char
  | [] => ([], part, [])
  | c :: rest =>
      match part.next? c with
      | none => ([], part, c :: rest)
      | some part =>
          let (more, last, behind) := split part rest
          (c :: more, last, behind)

/-! ### Laws -/

theorem split_append (part : Numeral) (text : List Char) :
    (part.split text).1 ++ (part.split text).2.2 = text := by
  induction text generalizing part with
  | nil => rfl
  | cons c rest ih =>
      unfold split
      cases part.next? c with
      | none => rfl
      | some next => exact congrArg (c :: ·) (ih next)

end Numeral
end Script
end AssetPress
