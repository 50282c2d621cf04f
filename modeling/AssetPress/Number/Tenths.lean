/-!
# One decimal place

A floating-point number is a mantissa times a power of two (`Dyadic`), so the decimal number with
one place that is nearest to it can be found exactly; of two that are equally near, the one with
the even last digit is taken.  Main statements: `roundDiv_near` (the error is at most one half)
and `roundDiv_tie` (a tie goes to the even neighbour).
-/

namespace AssetPress

/-! ### Rounding a quotient -/

/-- The whole number nearest to `num / den`; of two the even one. -/
def roundDiv (num den : Nat) : Nat :=
  if 2 * (num % den) < den ∨ (2 * (num % den) = den ∧ num / den % 2 = 0) then num / den
  else num / den + 1

theorem roundDiv_near {num den : Nat} (h : 0 < den) :
    2 * num ≤ 2 * (roundDiv num den * den) + den ∧
      2 * (roundDiv num den * den) ≤ 2 * num + den := by
  have hsum := Nat.div_add_mod num den
  have hlt := Nat.mod_lt num h
  rw [Nat.mul_comm] at hsum
  unfold roundDiv
  split
  · omega
  · rw [Nat.add_mul, Nat.one_mul]
    omega

/-- A quotient that is just between two whole numbers goes to the even one. -/
theorem roundDiv_tie {num den : Nat} (h : 2 * (num % den) = den) : roundDiv num den % 2 = 0 := by
  unfold roundDiv
  by_cases he : num / den % 2 = 0
  · rw [if_pos (Or.inr ⟨h, he⟩)]
    exact he
  · rw [if_neg (by omega)]
    omega

/-! ### Floating-point numbers -/

/-- The number `mantissa` times two to the power of `exponent - 1075`. -/
structure Dyadic where
  mantissa : Nat
  exponent : Nat
  deriving DecidableEq, Repr

/-- The size of a finite floating-point number, without its sign: the lowest 52 bits are the
mantissa, to which a bit is added unless the eleven bits above, the exponent, are zero. -/
def Dyadic.ofFloat (x : Float) : Dyadic :=
  let bits := x.toBits.toNat
  let mantissa := bits % 0x10000000000000
  let exponent := (bits >>> 52) % 0x800
  if exponent = 0 then ⟨mantissa, 1⟩ else ⟨mantissa + 0x10000000000000, exponent⟩

/-- The nearest whole number of tenths. -/
def Dyadic.tenths (x : Dyadic) : Nat :=
  if 1075 ≤ x.exponent then (x.mantissa <<< (x.exponent - 1075)) * 10
  else roundDiv (x.mantissa * 10) (1 <<< (1075 - x.exponent))

/-- A number of tenths with its point. -/
def showTenths (n : Nat) : String := toString (n / 10) ++ "." ++ toString (n % 10)

/-- The size of a finite floating-point number, to one decimal place. -/
def oneDecimal (x : Float) : String := showTenths (Dyadic.ofFloat x).tenths

end AssetPress
