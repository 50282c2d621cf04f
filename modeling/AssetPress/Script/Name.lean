import AssetPress.Script.Kind

/-!
# Short names

Names for parameters: of one letter as far as they go, then of two characters, in a fixed order.
Main statement: `freshName_not_mem`, so that no parameter captures a name that its function uses.
-/

namespace AssetPress
namespace Script

/-- The characters that short names begin with, in the order in which they are tried. -/
def firstCharacters : List Char :=
  "abcdefghijklmnopqrstuvwxyzABCDEFGHIJKLMNOPQRSTUVWXYZ_$".toList

/-- The characters that short names go on with. -/
def laterCharacters : List Char := "0123456789".toList ++ firstCharacters

/-- The short names, in the order in which they are tried. -/
def shortNames : List (List Char) :=
  firstCharacters.map (fun c => [c]) ++
    (firstCharacters.flatMap fun c => laterCharacters.map fun d => [c, d]).filter
      fun name => wordKind name = .name

def longName (used : List (List Char)) : List Char :=
  List.replicate ((used.map List.length).foldr max 0 + 1) 'a'

def freshName (used : List (List Char)) : List Char :=
  (shortNames.find? fun name => !used.contains name).getD (longName used)

theorem length_lt_longName {used : List (List Char)} {name : List Char} (h : name ∈ used) :
    name.length < (longName used).length := by
  unfold longName
  rw [List.length_replicate]
  refine Nat.lt_succ_of_le ?_
  induction used with
  | nil => cases h
  | cons first more ih =>
      rw [List.map_cons, List.foldr_cons]
      rcases List.mem_cons.mp h with rfl | h
      · exact Nat.le_max_left _ _
      · exact Nat.le_trans (ih h) (Nat.le_max_right _ _)

theorem freshName_not_mem (used : List (List Char)) : freshName used ∉ used := by
  unfold freshName
  cases h : shortNames.find? fun name => !used.contains name with
  | some name => simpa using List.find?_some h
  | none => exact fun hmem => Nat.lt_irrefl _ (length_lt_longName hmem)

/-! ### Renaming -/

abbrev Renaming := List (List Char × List Char)

namespace Renaming

def apply (r : Renaming) (name : List Char) : List Char := (r.lookup name).getD name

/-- Short names for some names, none of them used and no two alike. -/
def fresh (used : List (List Char)) : List (List Char) → Renaming
  | [] => []
  | name :: more =>
      let short := freshName used
      (name, short) :: fresh (short :: used) more

/-- No name is called like a used one. -/
theorem not_mem_of_mem_fresh {used names : List (List Char)} {name short : List Char}
    (h : (name, short) ∈ fresh used names) : short ∉ used := by
  induction names generalizing used with
  | nil => cases h
  | cons first more ih =>
      rcases List.mem_cons.mp h with heq | hmore
      · exact (Prod.mk.inj heq).2 ▸ freshName_not_mem used
      · exact fun hmem => ih hmore (List.mem_cons_of_mem _ hmem)

end Renaming
end Script
end AssetPress
