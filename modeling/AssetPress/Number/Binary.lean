import AssetPress.Number.Decimal
import AssetPress.Number.Tenths

/-!
# Binary numbers of limited precision

A machine keeps a number as a mantissa of so many bits times a power of two.  A decimal number is
taken for the nearest such number (`Binary.nearest`), and a binary number is shown by the fewest
digits that are taken for it again (`Binary.shortest`).  All of it is reckoned in whole numbers.
Main statement: `inUnits_near` (a number is off by at most half a unit).
-/

namespace AssetPress

/-! ### Precision -/

/-- How finely numbers are told apart: the bits of a mantissa, and the finest step, which is two to
the power of `-finest`.  From two to the power of `limit` on, numbers are infinite. -/
structure Precision where
  bits : Nat
  finest : Nat
  limit : Nat
  deriving DecidableEq, Repr

namespace Precision

/-- Numbers of 32 bits. -/
def single : Precision := ⟨24, 149, 128⟩

/-- Numbers of 64 bits. -/
def double : Precision := ⟨53, 1074, 1024⟩

end Precision

/-- The number `mantissa` times two to the power of `exponent`. -/
structure Binary where
  mantissa : Nat
  exponent : Int
  deriving DecidableEq, Repr

namespace Binary

/-! ### Rounding -/

/-- How many units of two to the power of `exponent` make `num / den`, to the nearest. -/
def inUnits (num den : Nat) (exponent : Int) : Nat :=
  roundDiv (num <<< (-exponent).toNat) (den <<< exponent.toNat)

/-- The rounded number is at most half a unit away. -/
theorem inUnits_near {num den : Nat} {exponent : Int} (h : 0 < den <<< exponent.toNat) :
    2 * (num <<< (-exponent).toNat) ≤
        2 * (inUnits num den exponent * (den <<< exponent.toNat)) + den <<< exponent.toNat ∧
      2 * (inUnits num den exponent * (den <<< exponent.toNat)) ≤
        2 * (num <<< (-exponent).toNat) + den <<< exponent.toNat :=
  roundDiv_near h

/-- A mantissa that has come out one bit too long is halved. -/
def fitted (p : Precision) (b : Binary) : Binary :=
  if b.mantissa >>> p.bits = 0 then b else ⟨b.mantissa / 2, b.exponent + 1⟩

/-- The number that is nearest to `num / den`. -/
def nearest (p : Precision) (num den : Nat) : Binary :=
  if num = 0 then ⟨0, 0⟩
  else
    let low : Int := (num.log2 : Int) - (den.log2 : Int) - (p.bits : Int)
    let fits := num <<< (-low).toNat < (den <<< low.toNat) <<< p.bits
    let exponent := max (if fits then low else low + 1) (-(p.finest : Int))
    fitted p ⟨inUnits num den exponent, exponent⟩

/-- The number as a quotient: what is divided. -/
def num (b : Binary) : Nat := b.mantissa <<< b.exponent.toNat

/-- The number as a quotient: by what it is divided. -/
def den (b : Binary) : Nat := 1 <<< (-b.exponent).toNat

/-- Whether the number is a whole one. -/
def isWhole (b : Binary) : Bool := b.num % b.den = 0

/-- The number without what is behind its point. -/
def whole (b : Binary) : Nat := b.num / b.den

/-! ### Reckoning -/

/-- What stands for all that is too large: the least of it. -/
def infinite (p : Precision) : Binary := ⟨1 <<< (p.bits - 1), p.limit - p.bits + 1⟩

/-- Whether a number is too large. -/
def isInfinite (p : Precision) (b : Binary) : Bool :=
  b.mantissa ≠ 0 && (p.limit : Int) ≤ b.exponent + b.mantissa.log2

/-- A number, or infinity if it is too large. -/
def capped (p : Precision) (b : Binary) : Binary := if b.isInfinite p then infinite p else b

/-- The nearest number to a sum. -/
def sum (p : Precision) (a b : Binary) : Binary :=
  capped p (nearest p (a.num * b.den + b.num * a.den) (a.den * b.den))

/-- The nearest number to a product; infinity stays what it is. -/
def product (p : Precision) (a b : Binary) : Binary :=
  if a.isInfinite p || b.isInfinite p then infinite p
  else capped p (nearest p (a.num * b.num) (a.den * b.den))

/-- The nearest number to a part of one; infinity stays what it is. -/
def part (p : Precision) (count : Nat) (b : Binary) : Binary :=
  if b.isInfinite p then infinite p else nearest p b.num (b.den * count)

/-- The nearest number of a coarser precision. -/
def coarser (p : Precision) (b : Binary) : Binary := capped p (nearest p b.num b.den)

/-- Ten to a power, or one part of as many. -/
def powerOfTen (p : Precision) (power : Int) : Binary :=
  capped p (nearest p (Nat.pow 10 power.toNat) (Nat.pow 10 (-power).toNat))

def ofNat (p : Precision) (n : Nat) : Binary := capped p (nearest p n 1)

/-! ### Decimal digits -/

/-- Whether `c` times ten to the power of `k` is less than `quarters` quarters of the last place. -/
def isBelow (b : Binary) (c : Nat) (k : Int) (quarters : Nat) : Bool :=
  (c * Nat.pow 10 k.toNat) <<< (2 - b.exponent).toNat <
    (quarters * Nat.pow 10 (-k).toNat) <<< (b.exponent - 2).toNat

/-- Whether `c` times ten to the power of `k` is more than `quarters` quarters of the last place. -/
def isAbove (b : Binary) (c : Nat) (k : Int) (quarters : Nat) : Bool :=
  (quarters * Nat.pow 10 (-k).toNat) <<< (b.exponent - 2).toNat <
    (c * Nat.pow 10 k.toNat) <<< (2 - b.exponent).toNat

/-- Whether `c` times ten to the power of `k` is taken for the number: it is at most half a place
away, and not just half a place unless the mantissa is even.  Below the least mantissa the places
are half as wide. -/
def isReadFrom (p : Precision) (b : Binary) (c : Nat) (k : Int) : Bool :=
  let narrow := b.mantissa = 1 <<< (p.bits - 1) ∧ -(p.finest : Int) < b.exponent
  let low := if narrow then 4 * b.mantissa - 1 else 4 * b.mantissa - 2
  let high := 4 * b.mantissa + 2
  if b.mantissa % 2 = 0 then !b.isBelow c k low && !b.isAbove c k high
  else b.isAbove c k low && b.isBelow c k high

/-- The digits that end at the power `k` of ten, if a number so written is taken for this one: of
two the nearer, of two equally near the greater. -/
def digitsTo? (p : Precision) (b : Binary) (k : Int) : Option Decimal :=
  let c := (b.num * Nat.pow 10 (-k).toNat) / (b.den * Nat.pow 10 k.toNat)
  let below := c ≠ 0 && b.isReadFrom p c k
  let above := b.isReadFrom p (c + 1) k
  if below && (!above || b.isAbove (2 * c + 1) k (8 * b.mantissa)) then some ⟨c, k⟩
  else if above then some ⟨c + 1, k⟩
  else none

/-- How often `num` must be multiplied by ten to reach `den`, as far as `fuel` goes. -/
def stepsTo (den : Nat) : (fuel : Nat) → (num : Nat) → Nat
  | 0, _ => 0
  | fuel + 1, num => if den ≤ num then 0 else stepsTo den fuel (10 * num) + 1

/-- The power of ten of the first digit. -/
def order (b : Binary) : Int :=
  if b.den ≤ b.num then ((digitsOf b.whole).length : Int) - 1
  else -(stepsTo b.den (digitsOf b.den).length b.num : Int)

/-- All digits of a number. -/
def exact (b : Binary) : Decimal :=
  match b.exponent with
  | .ofNat n => ⟨b.mantissa <<< n, 0⟩
  | .negSucc n => ⟨b.num * Nat.pow 10 (n + 1) / b.den, .negSucc n⟩

/-- The number in the fewest digits that are taken for it. -/
def shortest (p : Precision) (b : Binary) : Decimal :=
  if b.mantissa = 0 then ⟨0, 0⟩
  else
    let places := (List.range (p.bits / 3 + 2)).map fun (n : Nat) => b.order - (n : Int)
    ((places.findSome? (b.digitsTo? p)).getD b.exact).trimmed

end Binary

/-- The binary number that is nearest to a decimal one. -/
def Decimal.nearest (p : Precision) (d : Decimal) : Binary :=
  Binary.nearest p (d.digits * Nat.pow 10 d.exponent.toNat) (Nat.pow 10 (-d.exponent).toNat)

end AssetPress
