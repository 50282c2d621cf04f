import AssetPress.Number.Brief
import AssetPress.Style.Spelling

/-!
# Lengths of stylesheets

A length is a number with a unit, a pixel if none is written.  A whole number is printed with all
its digits, any other one with six at most; the zero in front of the point is left out, and so is
the unit of nothing, except for a percentage.  A number below one whose text has no such zero keeps
its sign twice.  Main statement: `unsigned_unsigned` (the sign of nothing counts once).
-/

namespace AssetPress
namespace Style

/-! ### Numbers -/

namespace Quantity

def isZero (q : Quantity) : Bool := q.size.mantissa = 0

/-- The largest whole numbers that are printed. -/
def maxWhole (negative : Bool) : Nat := if negative then 2147483648 else 2147483647

/-- Whether a number is a whole one and not too large for any. -/
def isWhole (q : Quantity) : Bool := q.size.isWhole && !q.size.isInfinite .single

def printSize (q : Quantity) : List Char :=
  if q.isWhole then digitsOf (min q.size.whole (maxWhole q.negative)) else Brief.print q.size

def signed (q : Quantity) (text : List Char) : List Char :=
  if q.negative then '-' :: text else text

/-- A text with a zero in front of its point without that zero; where there is none, the sign of a
negative number is not recognized and stays. -/
def shortened (q : Quantity) (text : List Char) : List Char :=
  match text with
  | '0' :: rest => q.signed rest
  | _ => q.signed (q.signed text)

/-- Whether a size is below another one, but not nothing. -/
def isBelow (limit size : Binary) : Bool :=
  size.mantissa ≠ 0 && size.num * limit.den < limit.num * size.den

/-- The text of a number with what stands behind it. -/
def printWith (q : Quantity) (unit : List Char) : List Char :=
  let text := q.printSize ++ unit
  if isBelow (.ofNat .single 1) q.size then q.shortened text else q.signed text

def print (q : Quantity) : List Char :=
  if q.isZero then ['0']
  else
    match Brief.print q.size with
    | '0' :: rest => q.signed rest
    | text => q.signed text

def hundredfold (q : Quantity) : Quantity :=
  { q with size := q.size.product .single (.ofNat .single 100) }

/-- The text of parts of one, shown as a percentage. -/
def printPercentage (q : Quantity) : List Char :=
  let shown := q.hundredfold
  let text := shown.printSize ++ ['%']
  if isBelow (.powerOfTen .single (-2)) q.size then q.shortened text else q.signed text

/-- Nothing has no sign of its own. -/
def unsigned (q : Quantity) : Quantity := if q.isZero then ⟨false, ⟨0, 0⟩⟩ else q

theorem unsigned_unsigned (q : Quantity) : q.unsigned.unsigned = q.unsigned := by
  unfold unsigned
  split
  · rfl
  · rfl

end Quantity

/-! ### Lengths -/

/-- A number with its unit. -/
structure Length where
  amount : Quantity
  unit : List Char
  deriving DecidableEq, Repr

namespace Length

def percent : List Char := ['%']

def pixel : List Char := ['p', 'x']

def units : List String :=
  ["px", "in", "cm", "mm", "q", "pt", "pc", "em", "rem", "ex", "rex", "ch", "rch", "cap", "rcap",
    "ic", "ric", "lh", "rlh", "vw", "lvw", "svw", "dvw", "cqw", "vh", "lvh", "svh", "dvh", "cqh",
    "vi", "svi", "lvi", "dvi", "cqi", "vb", "svb", "lvb", "dvb", "cqb", "vmin", "svmin", "lvmin",
    "dvmin", "cqmin", "vmax", "svmax", "lvmax", "dvmax", "cqmax"]

def unit? (text : List Char) : Option (List Char) :=
  let lower := text.map Char.toLower
  if units.contains (String.ofList lower) then some lower else none

def read? : Kind → Option Length
  | .number n => some ⟨n.amount, pixel⟩
  | .percentage n => some ⟨n.amount, percent⟩
  | .dimension n unit => (unit? unit).map fun unit => ⟨n.amount, unit⟩
  | _ => none

/-- What tells lengths apart: the sign of nothing does not. -/
def key (l : Length) : Length := { l with amount := l.amount.unsigned }

def print (l : Length) : List Char :=
  if l.unit = percent then l.amount.printPercentage
  else if l.amount.isZero then ['0']
  else l.amount.printWith l.unit

end Length
end Style
end AssetPress
