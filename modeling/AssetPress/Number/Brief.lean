import AssetPress.Number.Binary

/-!
# Brief texts of numbers

Numbers of 32 bits are written with six digits at most.  The digits are found in mantissas of 32
bits, scaled by a rounded power of ten, so they are close to the number but not always the fewest
and not always the nearest; then they are cut to six.  Main statement: `length_trimmedDigits_le`
(zeros at the end are dropped and nothing is added).
-/

namespace AssetPress

/-! ### Mantissas of 32 bits -/

/-- A mantissa of 32 bits and a power of two. -/
structure Wide where
  mantissa : Nat
  exponent : Int
  deriving DecidableEq, Repr

namespace Wide

/-- The bits of a mantissa. -/
def bits : Nat := 32

/-- The upper half of a product, rounded. -/
def product (a b : Wide) : Wide :=
  ⟨(a.mantissa * b.mantissa + 1 <<< (bits - 1)) >>> bits, a.exponent + b.exponent + bits⟩

/-- The mantissa shifted until its first bit is set. -/
def ofBinary (b : Binary) : Wide :=
  let shift := bits - 1 - b.mantissa.log2
  ⟨b.mantissa <<< shift, b.exponent - shift⟩

/-- The least power of ten that numbers are scaled by. -/
def leastPower : Int := -36

/-- The distance of the powers of ten that numbers are scaled by. -/
def powerStep : Nat := 8

/-- A power of ten. -/
def ofPower (power : Int) : Wide :=
  let b := Binary.nearest ⟨bits, 1000, 1000⟩ (Nat.pow 10 power.toNat) (Nat.pow 10 (-power).toNat)
  ⟨b.mantissa, b.exponent⟩

/-- The power of ten that brings numbers with an exponent in reach: the first of those it is
chosen from whose product has a small whole part. -/
def powerFor (exponent : Int) : Int :=
  let digits : Int := -((((bits : Int) - 3 + exponent) * 30102999566398114) / 100000000000000000)
  leastPower + powerStep * ((digits - leastPower - 1) / powerStep + 1)

end Wide

/-! ### Digits -/

/-- Digits, the last of them first, that end at a power of ten. -/
structure DigitRow where
  reversed : List Nat
  power : Int
  deriving DecidableEq, Repr

namespace DigitRow

/-- The last digit is lowered while that comes closer to what is sought.  `rest` is how far the
digits are below the upper bound, `unit` what the last of them counts for, and `sought` how far the
number is below the upper bound. -/
def lower (width unit sought : Nat) : (fuel rest : Nat) → List Nat → List Nat
  | fuel + 1, rest, last :: more =>
      if rest < sought ∧ unit ≤ width - rest ∧
          (rest + unit < sought ∨ rest + unit - sought < sought - rest) then
        lower width unit sought fuel (rest + unit) ((last - 1) :: more)
      else last :: more
  | _, _, digits => digits

/-- A digit, unless it is a zero in front. -/
def push (digit : Nat) (reversed : List Nat) : List Nat :=
  if digit = 0 ∧ reversed = [] then [] else digit :: reversed

/-- Digits of the whole part, as far as they are needed; `count` of them are left. -/
def wholeDigits (shift width sought fraction : Nat) :
    (count whole : Nat) → List Nat → List Nat × Option Nat
  | 0, _, read => (read, none)
  | count + 1, whole, read =>
      let unit := Nat.pow 10 count
      let read := push (whole / unit) read
      let rest := (whole % unit) <<< shift + fraction
      if rest ≤ width then
        (lower width (unit <<< shift) sought 10 rest read, some count)
      else wholeDigits shift width sought fraction count (whole % unit) read

/-- Digits of the fraction, as far as they are needed; `behind` of them have been read. -/
def fractionDigits (shift : Nat) :
    (fuel : Nat) → (width sought fraction behind : Nat) → List Nat → List Nat × Nat
  | 0, _, _, _, behind, read => (read, behind)
  | fuel + 1, width, sought, fraction, behind, read =>
      let tenfold := 10 * fraction
      let read := push (tenfold >>> shift) read
      let rest := tenfold % 1 <<< shift
      if rest < 10 * width then
        (lower (10 * width) (1 <<< shift) (10 * sought) 10 rest read, behind + 1)
      else fractionDigits shift fuel (10 * width) (10 * sought) rest (behind + 1) read

/-- The digits of a positive number of 32 bits: those of some number in the middle of the numbers
that are taken for it. -/
def ofBinary (b : Binary) : DigitRow :=
  let narrow := b.mantissa = 1 <<< (Precision.single.bits - 1)
  let above := Wide.ofBinary ⟨2 * b.mantissa + 1, b.exponent - 1⟩
  let below : Wide :=
    if narrow then ⟨4 * b.mantissa - 1, b.exponent - 2⟩ else ⟨2 * b.mantissa - 1, b.exponent - 1⟩
  let power := Wide.powerFor above.exponent
  let scale := Wide.ofPower power
  let middle := (Wide.ofBinary b).product scale
  let high := (above.product scale).mantissa - 1
  let low := (Wide.product ⟨below.mantissa <<< (below.exponent - above.exponent).toNat, 0⟩
    scale).mantissa + 1
  let width := high - low
  let shift := (-middle.exponent).toNat
  let sought := high - middle.mantissa
  let whole := high >>> shift
  let fraction := high % 1 <<< shift
  match wholeDigits shift width sought fraction (digitsOf whole).length whole [] with
  | (read, some count) => ⟨read, count - power⟩
  | (read, none) =>
      let (read, behind) := fractionDigits shift 20 width sought fraction 0 read
      ⟨read, -behind - power⟩

end DigitRow

/-! ### Texts -/

namespace Brief

/-- How many digits are written. -/
def maxDigits : Nat := 6

/-- The number that digits make, the last of them first. -/
def valueOf (reversed : List Nat) : Nat := reversed.foldr (fun d n => 10 * n + d) 0

/-- The digits of a number without zeros at the end. -/
def trimmedDigits (n : Nat) : List Char :=
  ((digitsOf n).reverse.dropWhile fun c => c = '0').reverse

theorem length_trimmedDigits_le (n : Nat) : (trimmedDigits n).length ≤ (digitsOf n).length := by
  have hreverse : (digitsOf n).reverse.length = (digitsOf n).length := List.length_reverse
  unfold trimmedDigits
  rw [List.length_reverse, ← hreverse]
  exact (List.dropWhile_sublist _).length_le

/-- The text of a number with an exponent: its first digit, its other digits behind a point, and
the power of ten of the first.  A carry that makes the digits one longer stays before the point. -/
def scientific (cut : Decimal) (power : Int) : List Char :=
  let carried := (digitsOf cut.digits).length = maxDigits + 1
  let mantissa :=
    if carried then ['1', '0']
    else
      match trimmedDigits cut.digits with
      | first :: second :: more => first :: '.' :: second :: more
      | digits => digits
  mantissa ++ 'e' :: (toString power).toList

/-- The text of a positive number of 32 bits. -/
def print (b : Binary) : List Char :=
  let row := DigitRow.ofBinary b
  let cut := Decimal.rounded maxDigits ⟨valueOf row.reversed, row.power⟩
  let point := row.power + row.reversed.length
  if -6 < point ∧ point ≤ 21 then cut.trimmed.positional else scientific cut (point - 1)

end Brief
end AssetPress
