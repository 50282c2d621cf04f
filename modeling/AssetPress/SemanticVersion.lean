import AssetPress.Text.Fields

/-!
# Semantic versions

A semantic version is three numbers between dots, then perhaps a hyphen and identifiers that tell
a pre-release, then perhaps a plus sign and identifiers that tell a build.  Numbers are written
without needless zeros, also among the identifiers of a pre-release, and the three of them fit
into 64 bits.  Main statements: `length_of_isCore` and `isNumber_of_isCore`.
-/

namespace AssetPress
namespace SemanticVersion

/-! ### Parts -/

/-- The largest number of a version. -/
def largest : Nat := 18446744073709551615

def value (digits : List Char) : Nat := digits.foldl (fun n c => 10 * n + (c.toNat - 48)) 0

/-- Digits without a needless zero in front. -/
def isCanonical (digits : List Char) : Bool := digits.head? != some '0' || digits == ['0']

/-- One of the three numbers. -/
def isNumber (field : List Char) : Bool :=
  !field.isEmpty && field.all Char.isDigit && isCanonical field && value field ≤ largest

def isIdentifier (field : List Char) : Bool :=
  !field.isEmpty && field.all fun c => c.isAlphanum || c == '-'

/-- An identifier that may stand in a pre-release. -/
def isPreIdentifier (field : List Char) : Bool :=
  isIdentifier field && (!field.all Char.isDigit || isCanonical field)

/-! ### Versions -/

/-- The three numbers. -/
def isCore (text : List Char) : Bool :=
  (text.splitOn '.').length == 3 && (text.splitOn '.').all isNumber

def isPreRelease (text : List Char) : Bool := (text.splitOn '.').all isPreIdentifier

/-- The identifiers behind the plus sign. -/
def isBuildPart (text : List Char) : Bool := (text.splitOn '.').all isIdentifier

def isSemantic (version : String) : Bool :=
  let (front, buildPart) := cut '+' version.toList
  let (core, preRelease) := cut '-' front
  isCore core && preRelease.all isPreRelease && buildPart.all isBuildPart

/-! ### Laws -/

theorem isNumber_of_isCore {text field : List Char} (h : isCore text = true)
    (hf : field ∈ text.splitOn '.') : isNumber field = true :=
  List.all_eq_true.mp (Bool.and_eq_true_iff.mp h).2 field hf

theorem length_of_isCore {text : List Char} (h : isCore text = true) :
    (text.splitOn '.').length = 3 :=
  beq_iff_eq.mp (Bool.and_eq_true_iff.mp h).1

end SemanticVersion
end AssetPress
