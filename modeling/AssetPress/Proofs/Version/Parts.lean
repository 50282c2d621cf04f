import AssetPress.Proofs.Json.RoundTrip
import AssetPress.Proofs.Text.Fields
import AssetPress.SemanticVersion

/-!
# The parts of a semantic version

A semantic version is written from its parts (`SemanticVersion.Parts`): three numbers in decimal,
the identifiers of a pre-release and those of a build.  Every text that is written so is taken for
a semantic version, and no other is (`isSemantic_eq_true_iff`).  The first plus sign and then the
first hyphen part the text, since no number holds a hyphen and neither a number nor an identifier
a plus sign; inside a part the dots do (`all_fields_iff`).
-/

namespace AssetPress
namespace SemanticVersion

/-! ### Numbers -/

theorem value_toDigits (n : Nat) : value (Nat.toDigits 10 n) = n := by
  have hfold : value (Nat.toDigits 10 n) = Nat.ofDigitChars 10 (Nat.toDigits 10 n) 0 :=
    Nat.ofDigitChars_eq_foldl.symm
  rw [hfold, Nat.ofDigitChars_ten_toDigits]

theorem toDigits_of_isDigit {c : Char} (h : c.isDigit = true) :
    Nat.toDigits 10 (c.toNat - 48) = [c] := by
  have hc : 48 ≤ c.toNat ∧ c.toNat ≤ 57 := Char.isDigit_iff_toNat.mp h
  rw [Nat.toDigits_of_lt_base (by omega)]
  refine congrArg (fun d => [d]) (Char.toNat_inj.mp ?_)
  rw [Nat.toNat_digitChar_of_lt_ten (by omega)]
  omega

/-- Digits behind the digits of a positive number are those of the number that they make with
it. -/
theorem toDigits_append_digits {n : Nat} (hn : 0 < n) {digits : List Char}
    (h : ∀ c ∈ digits, c.isDigit = true) :
    Nat.toDigits 10 n ++ digits =
      Nat.toDigits 10 (digits.foldl (fun n c => 10 * n + (c.toNat - 48)) n) := by
  induction digits generalizing n with
  | nil => rw [List.append_nil, List.foldl_nil]
  | cons c rest ih =>
      have hc := h c List.mem_cons_self
      have hbounds : 48 ≤ c.toNat ∧ c.toNat ≤ 57 := Char.isDigit_iff_toNat.mp hc
      have hfirst : Nat.toDigits 10 n ++ [c] = Nat.toDigits 10 (10 * n + (c.toNat - 48)) := by
        rw [← toDigits_of_isDigit hc, Nat.toDigits_append_toDigits (by omega) hn (by omega)]
      rw [List.foldl_cons, ← ih (by omega) fun d hd => h d (List.mem_cons_of_mem c hd), ← hfirst,
        List.append_assoc, List.singleton_append]

theorem toDigits_value {digits : List Char} (hne : digits ≠ [])
    (hdigits : ∀ c ∈ digits, c.isDigit = true) (hcanonical : isCanonical digits = true) :
    Nat.toDigits 10 (value digits) = digits := by
  obtain ⟨c, rest, rfl⟩ := List.exists_cons_of_ne_nil hne
  have hc := hdigits c List.mem_cons_self
  have hbounds : 48 ≤ c.toNat ∧ c.toNat ≤ 57 := Char.isDigit_iff_toNat.mp hc
  by_cases hzero : c = '0'
  · have hrest : rest = [] := by simpa [isCanonical, hzero] using hcanonical
    subst hzero hrest
    rfl
  · have hpos : c.toNat ≠ 48 := fun heq => hzero (Char.toNat_inj.mp heq)
    have hmore := toDigits_append_digits (n := c.toNat - 48) (by omega)
      fun d hd => hdigits d (List.mem_cons_of_mem c hd)
    rw [toDigits_of_isDigit hc] at hmore
    rw [value, List.foldl_cons, Nat.mul_zero, Nat.zero_add, ← hmore]
    rfl

theorem isNumber_iff {field : List Char} :
    isNumber field = true ↔ ∃ n, n ≤ 18446744073709551615 ∧ Nat.toDigits 10 n = field := by
  constructor
  · intro h
    simp only [isNumber, Bool.and_eq_true, Bool.not_eq_true', List.isEmpty_eq_false_iff,
      List.all_eq_true, decide_eq_true_eq] at h
    obtain ⟨⟨⟨hne, hdigits⟩, hcanonical⟩, hsmall⟩ := h
    exact ⟨value field, hsmall, toDigits_value hne hdigits hcanonical⟩
  · rintro ⟨n, hn, rfl⟩
    have hdigits : ∀ c ∈ Nat.toDigits 10 n, c.isDigit = true :=
      fun c hc => Nat.isDigit_of_mem_toDigits (by decide) (by decide) hc
    have hcanonical : isCanonical (Nat.toDigits 10 n) = true := by
      rcases Nat.eq_zero_or_pos n with rfl | hpos
      · rfl
      · simp [isCanonical, Json.head?_toDigits hpos]
    simp only [isNumber, Bool.and_eq_true, Bool.not_eq_true', List.isEmpty_eq_false_iff,
      List.all_eq_true, decide_eq_true_eq]
    exact ⟨⟨⟨Nat.toDigits_ne_nil, hdigits⟩, hcanonical⟩, (value_toDigits n).symm ▸ hn⟩

/-! ### Identifiers -/

def Digit (c : Char) : Prop := '0' ≤ c ∧ c ≤ '9'

/-- A letter of the English alphabet, a digit or a hyphen. -/
def Letter (c : Char) : Prop := 'a' ≤ c ∧ c ≤ 'z' ∨ 'A' ≤ c ∧ c ≤ 'Z' ∨ Digit c ∨ c = '-'

/-- What may stand between the dots of a build part. -/
def Identifier (word : List Char) : Prop := word ≠ [] ∧ ∀ c ∈ word, Letter c

/-- What may stand between the dots of a pre-release: an identifier that has no needless zero in
front if it is made of digits alone. -/
def PreIdentifier (word : List Char) : Prop :=
  Identifier word ∧ ((∀ c ∈ word, Digit c) → word = ['0'] ∨ word.head? ≠ some '0')

theorem isDigit_iff {c : Char} : c.isDigit = true ↔ Digit c := by
  simp only [Char.isDigit, Digit, Bool.and_eq_true, decide_eq_true_eq]
  rfl

theorem isLetter_iff {c : Char} : (c.isAlphanum || c == '-') = true ↔ Letter c := by
  have hupper : c.isUpper = true ↔ 'A' ≤ c ∧ c ≤ 'Z' := decide_eq_true_iff
  have hlower : c.isLower = true ↔ 'a' ≤ c ∧ c ≤ 'z' :=
    Bool.and_eq_true_iff.trans (and_congr decide_eq_true_iff decide_eq_true_iff)
  have hwords : c.isAlphanum = (c.isUpper || c.isLower || c.isDigit) := rfl
  simp only [hwords, Bool.or_eq_true, beq_iff_eq, hupper, hlower, isDigit_iff, Letter]
  rw [or_assoc, or_assoc, or_left_comm]

theorem isIdentifier_iff {word : List Char} : isIdentifier word = true ↔ Identifier word := by
  simp only [isIdentifier, Identifier, Bool.and_eq_true, Bool.not_eq_true',
    List.isEmpty_eq_false_iff, List.all_eq_true, isLetter_iff]

theorem isPreIdentifier_iff {word : List Char} :
    isPreIdentifier word = true ↔ PreIdentifier word := by
  have hdigits : word.all Char.isDigit = true ↔ ∀ c ∈ word, Digit c := by
    simp only [List.all_eq_true, isDigit_iff]
  have hcanonical : isCanonical word = true ↔ word = ['0'] ∨ word.head? ≠ some '0' := by
    simp only [isCanonical, Bool.or_eq_true, bne_iff_ne, beq_iff_eq]
    exact Or.comm
  simp only [isPreIdentifier, PreIdentifier, Bool.and_eq_true, Bool.or_eq_true, Bool.not_eq_true',
    isIdentifier_iff, hcanonical, ← hdigits]
  cases word.all Char.isDigit <;> simp

theorem Identifier.not_mem {word : List Char} (h : Identifier word) {c : Char}
    (hc : (c.isAlphanum || c == '-') = false) : c ∉ word := by
  intro hmem
  have hletter := isLetter_iff.mpr (h.2 c hmem)
  rw [hc] at hletter
  cases hletter

/-! ### Parts behind a mark -/

/-- Words with dots between them, behind a mark; no words need no mark. -/
def behind (mark : Char) (words : List (List Char)) : List Char :=
  if words = [] then [] else mark :: ['.'].intercalate words

/-- All fields between dots have a property that no word with a dot has. -/
theorem all_fields_iff {p : List Char → Bool} (hp : ∀ word, p word = true → '.' ∉ word)
    {text : List Char} : (text.splitOn '.').all p = true ↔
      ∃ words, words ≠ [] ∧ (∀ word ∈ words, p word = true) ∧ ['.'].intercalate words = text := by
  constructor
  · intro h
    exact ⟨text.splitOn '.', List.splitOn_ne_nil '.' text, List.all_eq_true.mp h,
      List.intercalate_splitOn '.'⟩
  · rintro ⟨words, hne, hwords, rfl⟩
    rw [List.splitOn_intercalate _ (fun word hword => hp word (hwords word hword)) hne]
    exact List.all_eq_true.mpr hwords

theorem cut_behind {mark : Char} {front : List Char} (h : mark ∉ front)
    (words : List (List Char)) : cut mark (front ++ behind mark words) =
      (front, if words = [] then none else some (['.'].intercalate words)) := by
  unfold behind
  by_cases hwords : words = []
  · rw [if_pos hwords, if_pos hwords, List.append_nil, cut_of_not_mem h]
  · rw [if_neg hwords, if_neg hwords, cut_append h]

/-- What stands behind the first mark, if its fields have such a property, is made of words. -/
theorem exists_behind_of_cut {p : List Char → Bool} (hp : ∀ word, p word = true → '.' ∉ word)
    {mark : Char} {text : List Char}
    (h : ((cut mark text).2.all fun rest => (rest.splitOn '.').all p) = true) :
    ∃ words, (∀ word ∈ words, p word = true) ∧ text = (cut mark text).1 ++ behind mark words := by
  have hspec := cut_spec mark text
  cases hrest : (cut mark text).2 with
  | none =>
      rw [hrest] at hspec
      exact ⟨[], by simp, hspec⟩
  | some rest =>
      rw [hrest] at h hspec
      obtain ⟨words, hne, hwords, rfl⟩ := (all_fields_iff hp).mp h
      refine ⟨words, hwords, ?_⟩
      rw [behind, if_neg hne]
      exact hspec

theorem not_mem_behind {mark c : Char} (hmark : c ≠ mark) (hdot : c ≠ '.')
    {words : List (List Char)} (h : ∀ word ∈ words, c ∉ word) : c ∉ behind mark words := by
  unfold behind
  split
  · exact List.not_mem_nil
  · intro hmem
    rcases List.mem_cons.mp hmem with heq | hmem
    · exact hmark heq
    · rcases mem_intercalate hmem with heq | ⟨word, hword, hc⟩
      · exact hdot heq
      · exact h word hword hc

/-! ### Versions -/

/-- The parts of a semantic version.  A version without a pre-release, or a build, has no
identifiers for it. -/
structure Parts where
  major : Nat
  minor : Nat
  patch : Nat
  preRelease : List (List Char)
  buildPart : List (List Char)
  major_le : major ≤ 18446744073709551615
  minor_le : minor ≤ 18446744073709551615
  patch_le : patch ≤ 18446744073709551615
  preIdentifier : ∀ word ∈ preRelease, PreIdentifier word
  identifier : ∀ word ∈ buildPart, Identifier word

namespace Parts

/-- The three numbers, in decimal and with dots between them. -/
def core (v : Parts) : List Char :=
  Nat.toDigits 10 v.major ++ '.' :: Nat.toDigits 10 v.minor ++ '.' :: Nat.toDigits 10 v.patch

def text (v : Parts) : List Char := v.core ++ behind '-' v.preRelease ++ behind '+' v.buildPart

end Parts

theorem not_mem_of_isNumber {field : List Char} (h : isNumber field = true) {c : Char}
    (hc : c.isDigit = false) : c ∉ field := by
  obtain ⟨n, -, rfl⟩ := isNumber_iff.mp h
  intro hmem
  rw [Nat.isDigit_of_mem_toDigits (by decide) (by decide) hmem] at hc
  cases hc

theorem isCore_iff {text : List Char} : isCore text = true ↔
    ∃ a b c, (isNumber a = true ∧ isNumber b = true ∧ isNumber c = true) ∧
      text = a ++ '.' :: b ++ '.' :: c := by
  constructor
  · intro h
    obtain ⟨a, b, c, habc⟩ : ∃ a b c, text.splitOn '.' = [a, b, c] := by
      have hlength := length_of_isCore h
      rcases hfields : text.splitOn '.' with _ | ⟨a, _ | ⟨b, _ | ⟨c, _ | ⟨d, more⟩⟩⟩⟩ <;>
        simp [hfields] at hlength
      exact ⟨a, b, c, rfl⟩
    have hnumber : ∀ field ∈ [a, b, c], isNumber field = true :=
      fun field hfield => isNumber_of_isCore h (habc ▸ hfield)
    refine ⟨a, b, c, ⟨hnumber a (by simp), hnumber b (by simp), hnumber c (by simp)⟩, ?_⟩
    have htext : ['.'].intercalate (text.splitOn '.') = text := List.intercalate_splitOn '.'
    rw [← htext, habc]
    simp
  · rintro ⟨a, b, c, ⟨ha, hb, hc⟩, rfl⟩
    have hfields : (a ++ '.' :: b ++ '.' :: c).splitOn '.' = [a, b, c] := by
      rw [List.splitOn_append_cons_self, List.splitOn_append_cons_self,
        List.splitOn_eq_singleton (not_mem_of_isNumber ha rfl),
        List.splitOn_eq_singleton (not_mem_of_isNumber hb rfl),
        List.splitOn_eq_singleton (not_mem_of_isNumber hc rfl)]
      rfl
    rw [isCore, hfields]
    simp [ha, hb, hc]

namespace Parts
variable (v : Parts)

theorem isCore_core : isCore v.core = true :=
  isCore_iff.mpr ⟨_, _, _, ⟨isNumber_iff.mpr ⟨_, v.major_le, rfl⟩,
    isNumber_iff.mpr ⟨_, v.minor_le, rfl⟩, isNumber_iff.mpr ⟨_, v.patch_le, rfl⟩⟩, rfl⟩

theorem not_mem_core {c : Char} (hdigit : c.isDigit = false) (hdot : c ≠ '.') : c ∉ v.core := by
  have hnumber : ∀ n, c ∉ Nat.toDigits 10 n := by
    intro n hmem
    rw [Nat.isDigit_of_mem_toDigits (by decide) (by decide) hmem] at hdigit
    cases hdigit
  simp [core, hnumber, hdot]

/-- The mark of a build stands in none of the parts before it. -/
theorem plus_not_mem : '+' ∉ v.core ++ behind '-' v.preRelease := by
  intro hmem
  rcases List.mem_append.mp hmem with hmem | hmem
  · exact v.not_mem_core rfl (by decide) hmem
  · refine not_mem_behind (by decide) (by decide) (fun word hword => ?_) hmem
    exact (v.preIdentifier word hword).1.not_mem rfl

end Parts

/-- Exactly the texts that are written from the parts of a version are semantic versions. -/
theorem isSemantic_eq_true_iff {version : String} :
    isSemantic version = true ↔ ∃ v : Parts, v.text = version.toList := by
  have hpre : ∀ word, isPreIdentifier word = true → '.' ∉ word :=
    fun word h => (isPreIdentifier_iff.mp h).1.not_mem rfl
  have hbuild : ∀ word, isIdentifier word = true → '.' ∉ word :=
    fun word h => (isIdentifier_iff.mp h).not_mem rfl
  constructor
  · intro h
    simp only [isSemantic, Bool.and_eq_true] at h
    obtain ⟨⟨hcore, hpreRelease⟩, hbuildPart⟩ := h
    obtain ⟨a, b, c, ⟨ha, hb, hc⟩, habc⟩ := isCore_iff.mp hcore
    obtain ⟨major, hmajor, rfl⟩ := isNumber_iff.mp ha
    obtain ⟨minor, hminor, rfl⟩ := isNumber_iff.mp hb
    obtain ⟨patch, hpatch, rfl⟩ := isNumber_iff.mp hc
    obtain ⟨pre, hpreWords, hfront⟩ := exists_behind_of_cut hpre hpreRelease
    obtain ⟨build, hbuildWords, hwhole⟩ := exists_behind_of_cut hbuild hbuildPart
    refine ⟨⟨major, minor, patch, pre, build, hmajor, hminor, hpatch,
      fun word hword => isPreIdentifier_iff.mp (hpreWords word hword),
      fun word hword => isIdentifier_iff.mp (hbuildWords word hword)⟩, ?_⟩
    rw [hwhole, hfront, habc]
    rfl
  · rintro ⟨v, htext⟩
    have hpreRelease : (if v.preRelease = [] then none
        else some (['.'].intercalate v.preRelease)).all isPreRelease = true := by
      split
      case isTrue => rfl
      case isFalse hne =>
        exact (all_fields_iff hpre).mpr ⟨_, hne,
          fun word hword => isPreIdentifier_iff.mpr (v.preIdentifier word hword), rfl⟩
    have hbuildPart : (if v.buildPart = [] then none
        else some (['.'].intercalate v.buildPart)).all isBuildPart = true := by
      split
      case isTrue => rfl
      case isFalse hne =>
        exact (all_fields_iff hbuild).mpr ⟨_, hne,
          fun word hword => isIdentifier_iff.mpr (v.identifier word hword), rfl⟩
    unfold isSemantic
    rw [← htext, Parts.text, cut_behind v.plus_not_mem]
    simp only
    rw [cut_behind (v.not_mem_core rfl (by decide))]
    simp only [v.isCore_core, hpreRelease, hbuildPart, Bool.and_self]

/-- A needless zero is refused in a pre-release, but neither in a build nor beside a letter. -/
example : isSemantic "1.0.0-0a.--1+00.1" = true ∧ isSemantic "1.0.0-a.00" = false := by decide

end SemanticVersion
end AssetPress
