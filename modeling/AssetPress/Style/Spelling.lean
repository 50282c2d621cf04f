import AssetPress.Style.Token

/-!
# Spelling of names and strings

A name that is read may hold any characters; where it is printed, those that would end it or that it
may not begin with are escaped.  Main statement: `spellName_of_plain` (a plain name is its own
spelling).
-/

namespace AssetPress
namespace Style

/-- A character by its number, with the blank that ends it. -/
def spellCode (c : Char) : List Char := '\\' :: Nat.toDigits 16 c.toNat ++ [' ']

/-- Whether a character stands for itself behind the first of a name. -/
def isPlainPart (c : Char) : Bool := c.isAlphanum || c == '_' || c == '-' || 128 ≤ c.toNat

def spellEscaped (c : Char) : List Char :=
  if c = '\x00' then [replacement]
  else if c.toNat < 32 || c.toNat = 127 then spellCode c
  else ['\\', c]

def spellPart (c : Char) : List Char := if isPlainPart c then [c] else spellEscaped c

def spellFirst (c : Char) : List Char := if c.isDigit then spellCode c else spellPart c

def spellName (name : List Char) : List Char :=
  match name with
  | [] => []
  | ['-'] => ['\\', '-']
  | '-' :: '-' :: rest => '-' :: '-' :: rest.flatMap spellPart
  | '-' :: c :: rest => '-' :: spellFirst c ++ rest.flatMap spellPart
  | c :: rest => spellFirst c ++ rest.flatMap spellPart

/-- The spelling of the unit `e`, which would be taken for a power of ten: its first character is
escaped. -/
def spellUnit (unit : List Char) : List Char :=
  match unit with
  | [e] => if e = 'e' ∨ e = 'E' then spellCode 'e' else spellName unit
  | e :: '-' :: rest =>
      if e = 'e' ∨ e = 'E' then spellCode 'e' ++ ('-' :: rest).flatMap spellPart
      else spellName unit
  | _ => spellName unit

def spellQuoted (c : Char) : List Char :=
  if c = '"' || c = '\\' then ['\\', c]
  else if c = '\x00' then [replacement]
  else if c.toNat < 32 || c.toNat = 127 then spellCode c
  else [c]

def spellString (text : List Char) : List Char := '"' :: text.flatMap spellQuoted ++ ['"']

theorem flatMap_spellPart {name : List Char} (h : ∀ c ∈ name, isPlainPart c = true) :
    name.flatMap spellPart = name := by
  induction name with
  | nil => rfl
  | cons c rest ih =>
      rw [List.flatMap_cons, ih fun d hd => h d (List.mem_cons_of_mem _ hd)]
      unfold spellPart
      rw [if_pos (h c List.mem_cons_self)]
      rfl

theorem spellName_of_plain {c : Char} {rest : List Char} (hc : c.isAlpha = true)
    (h : ∀ d ∈ rest, isPlainPart d = true) : spellName (c :: rest) = c :: rest := by
  have hdash : c ≠ '-' := by
    rintro rfl
    exact absurd hc (by decide)
  have hdigit : c.isDigit = false := by
    cases hd : c.isDigit with
    | false => rfl
    | true =>
        unfold Char.isDigit at hd
        unfold Char.isAlpha Char.isUpper Char.isLower at hc
        simp only [Bool.and_eq_true, Bool.or_eq_true, decide_eq_true_eq, UInt32.le_iff_toNat_le]
          at hd hc
        have h₁ : '0'.val.toNat = 48 := rfl
        have h₂ : '9'.val.toNat = 57 := rfl
        have h₃ : 'A'.val.toNat = 65 := rfl
        have h₄ : 'Z'.val.toNat = 90 := rfl
        have h₅ : 'a'.val.toNat = 97 := rfl
        have h₆ : 'z'.val.toNat = 122 := rfl
        omega
  have hfirst : spellFirst c = [c] := by
    unfold spellFirst spellPart
    rw [hdigit, if_neg (by decide), if_pos]
    unfold isPlainPart Char.isAlphanum
    rw [hc]
    rfl
  unfold spellName
  split
  · contradiction
  · rename_i heq
    exact absurd (List.cons.inj heq).1 hdash
  · rename_i heq
    exact absurd (List.cons.inj heq).1 hdash
  · rename_i heq
    exact absurd (List.cons.inj heq).1 hdash
  · rename_i heq
    obtain ⟨rfl, rfl⟩ := List.cons.inj heq
    rw [hfirst, flatMap_spellPart h]
    rfl

end Style
end AssetPress
