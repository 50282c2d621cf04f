/-!
# Digits

Hexadecimal digits and their values.  Main statement: `hexDigit?_lt` (a digit counts less than
sixteen).
-/

namespace AssetPress

/-- The value of a hexadecimal digit. -/
def hexDigit? (c : Char) : Option Nat :=
  if '0' ≤ c ∧ c ≤ '9' then some (c.toNat - '0'.toNat)
  else if 'a' ≤ c ∧ c ≤ 'f' then some (c.toNat - 'a'.toNat + 10)
  else if 'A' ≤ c ∧ c ≤ 'F' then some (c.toNat - 'A'.toNat + 10)
  else none

theorem hexDigit?_lt {c : Char} {d : Nat} (h : hexDigit? c = some d) : d < 16 := by
  unfold hexDigit? at h
  have toNat_le {a b : Char} (hle : a ≤ b) : a.toNat ≤ b.toNat :=
    UInt32.le_iff_toNat_le.mp (Char.le_def.mp hle)
  have h9 : '9'.toNat = 57 := rfl
  have h0 : '0'.toNat = 48 := rfl
  have hf : 'f'.toNat = 102 := rfl
  have ha : 'a'.toNat = 97 := rfl
  have hF : 'F'.toNat = 70 := rfl
  have hA : 'A'.toNat = 65 := rfl
  split at h
  · rename_i hc
    have := toNat_le hc.2
    have hd := Option.some.inj h
    omega
  · split at h
    · rename_i hc
      have := toNat_le hc.2
      have hd := Option.some.inj h
      omega
    · split at h
      · rename_i hc
        have := toNat_le hc.2
        have hd := Option.some.inj h
        omega
      · exact absurd h (by simp)

end AssetPress
