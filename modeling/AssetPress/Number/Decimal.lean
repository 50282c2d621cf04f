/-!
# Decimal numbers

Numbers as they are written: digits times a power of ten.  A number can be cut to some digits,
freed of zeros at its end, and written out with its point.  Main statement: `units_trimmed` (the
zeros at the end carry no value of their own).
-/

namespace AssetPress

/-! ### Digits -/

/-- The number that decimal digits spell. -/
def numberOf (digits : List Char) : Nat := digits.foldl (fun n c => 10 * n + (c.toNat - 48)) 0

/-- The decimal digits of a number. -/
def digitsOf (n : Nat) : List Char := Nat.toDigits 10 n

/-! ### Decimal numbers -/

/-- The number `digits` times ten to the power of `exponent`. -/
structure Decimal where
  digits : Nat
  exponent : Int
  deriving DecidableEq, Repr

namespace Decimal

/-- The number with the given digits before and behind its point, times a power of ten. -/
def ofDigits (whole fraction : List Char) (exponent : Int) : Decimal :=
  ⟨numberOf (whole ++ fraction), exponent - fraction.length⟩

/-- The number without the zeros at its end. -/
def trimmed (d : Decimal) : Decimal :=
  if h : d.digits = 0 then ⟨0, 0⟩
  else if d.digits % 10 = 0 then trimmed ⟨d.digits / 10, d.exponent + 1⟩
  else d
termination_by d.digits
decreasing_by exact Nat.div_lt_self (Nat.pos_of_ne_zero h) (by decide)

/-- The number with at most `count` digits; a half is rounded up. -/
def rounded (count : Nat) (d : Decimal) : Decimal :=
  let extra := (digitsOf d.digits).length - count
  let step := Nat.pow 10 extra
  ⟨if step ≤ 2 * (d.digits % step) then d.digits / step + 1 else d.digits / step,
    d.exponent + extra⟩

/-- The number written out with its point, if it needs one. -/
def positional (d : Decimal) : List Char :=
  let digits := digitsOf d.digits
  match d.exponent with
  | .ofNat n => if d.digits = 0 then digits else digits ++ List.replicate n '0'
  | .negSucc n =>
      let places := n + 1
      if places < digits.length then
        digits.take (digits.length - places) ++ '.' :: digits.drop (digits.length - places)
      else '0' :: '.' :: List.replicate (places - digits.length) '0' ++ digits

/-- The power of ten of the first digit. -/
def order (d : Decimal) : Int := d.exponent + (digitsOf d.digits).length - 1

/-- The number written as one digit before the point and a power of ten. -/
def scientific (d : Decimal) : List Char :=
  let power := 'e' :: (toString d.order).toList
  match digitsOf d.digits with
  | first :: second :: more => first :: '.' :: second :: more ++ power
  | digits => digits ++ power

/-! ### Laws -/

/-- How many units of ten to the power of `-scale` a number has, if it is a whole number of them. -/
def units (scale : Nat) (d : Decimal) : Nat := d.digits * Nat.pow 10 (d.exponent + scale).toNat

/-- The zeros at the end carry no value of their own. -/
theorem units_trimmed {scale : Nat} (d : Decimal) (h : 0 ≤ d.exponent + scale) :
    d.trimmed.units scale = d.units scale := by
  fun_induction trimmed d with
  | case1 d hzero => simp [units, hzero]
  | case2 d hne hdiv ih =>
      rw [ih (by simp only; omega)]
      have hexp : (d.exponent + 1 + scale).toNat = (d.exponent + scale).toNat + 1 := by omega
      have hten : d.digits / 10 * 10 = d.digits := by omega
      have hpow : ∀ n, Nat.pow 10 (n + 1) = 10 * Nat.pow 10 n := fun _ => Nat.mul_comm _ 10
      simp only [units, hexp]
      rw [hpow, ← Nat.mul_assoc, hten]
  | case3 d hne hdiv => rfl

end Decimal
end AssetPress
