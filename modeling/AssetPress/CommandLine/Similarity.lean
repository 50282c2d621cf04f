import AssetPress.CommandLine.Flag

/-!
# Similar names

How much two words are alike, by the measure of Jaro: two characters match if they are equal and
not too far apart, and matching characters that come in another order count half.  A mistyped flag
is answered with the flag whose name is most like it, if any is alike enough.
-/

namespace AssetPress
namespace Similarity

/-- The characters of a word, and which of them are taken. -/
abbrev Taken := List (Char × Bool)

/-- Takes the first free `c` among the positions from `low` to before `high`, counted from
`position`. -/
def take (c : Char) (low high position : Nat) : Taken → Option Taken
  | [] => none
  | (d, taken) :: rest =>
      if low ≤ position ∧ position < high ∧ c = d ∧ taken = false then some ((d, true) :: rest)
      else (take c low high (position + 1) rest).map ((d, taken) :: ·)

/-- The characters of the first word that match, from the given position on, and what they take
of the second. -/
def matching (reach position : Nat) (second : Taken) : List Char → List Char × Taken
  | [] => ([], second)
  | c :: rest =>
      match take c (position - reach) (position + reach + 1) 0 second with
      | some second =>
          let (found, second) := matching reach (position + 1) second rest
          (c :: found, second)
      | none => matching reach (position + 1) second rest

/-- How much two words are alike, from 0 to 1. -/
def jaro (a b : List Char) : Float :=
  if a = [] ∧ b = [] then 1
  else
    let reach := max a.length b.length / 2 - 1
    let (first, taken) := matching reach 0 (b.map (·, false)) a
    let second := (taken.filter (·.2)).map (·.1)
    let count := first.length
    let swapped := ((first.zip second).filter fun (c, d) => c != d).length / 2
    if count = 0 then 0
    else
      (Float.ofNat count / Float.ofNat a.length + Float.ofNat count / Float.ofNat b.length +
        Float.ofNat (count - swapped) / Float.ofNat count) / 3

/-- The flag whose name is most like the given one; of several the last. -/
def closest? (name : String) : Option Flag :=
  let rated := Flag.all.map fun f => (f, jaro name.toList f.name.toList)
  (rated.foldl (fun best (f, rating) =>
    if rating > 0.7 then
      match best with
      | some (_, highest) => if rating < highest then best else some (f, rating)
      | none => some (f, rating)
    else best) none).map (·.1)

end Similarity
end AssetPress
