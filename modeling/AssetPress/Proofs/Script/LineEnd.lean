import AssetPress.Script.Token

/-!
# Tokens in front of a line end

No token reaches over the line end at the end of its text: words, numbers and marks go on through
characters of their own, and a line end is none of them, and strings, patterns and templates have
closed before.  Main statement: `Lexeme.first_swap`, by which a token is the same whatever stands
behind that line end.
-/

namespace AssetPress
namespace Script

/-- Whether a token is neither a broken one nor the end of the text. -/
def Kind.isSolid : Kind → Bool
  | broken _ => false
  | endOfText => false
  | _ => true

namespace Kind

variable {kind : Kind}

theorem isBroken_of_isSolid (h : kind.isSolid = true) : kind.isBroken = false := by
  cases kind <;> first | rfl | cases h

theorem ne_endOfText_of_isSolid (h : kind.isSolid = true) : kind ≠ .endOfText := by
  rintro rfl
  cases h

theorem isSolid_of_ne_endOfText (hbroken : kind.isBroken = false) (hend : kind ≠ .endOfText) :
    kind.isSolid = true := by
  cases kind <;> first | rfl | exact absurd rfl hend | cases hbroken

end Kind

/-- What a text may end in: a line end or nothing. -/
inductive IsEnding : List Char → Prop
  | bare : IsEnding []
  | line : IsEnding ['\n']

section stretches
variable {p : Char → Bool} {c : Char}

/-- What does not go on at a character is the same with that character behind it. -/
theorem takeWhile_append_stop (hc : p c = false) (a b : List Char) :
    (a ++ c :: b).takeWhile p = a.takeWhile p := by
  induction a with
  | nil => simp [hc]
  | cons d more ih => by_cases hd : p d = true <;> simp [hd, ih]

theorem dropWhile_append_stop (hc : p c = false) (a b : List Char) :
    (a ++ c :: b).dropWhile p = a.dropWhile p ++ c :: b := by
  induction a with
  | nil => simp [hc]
  | cons d more ih => by_cases hd : p d = true <;> simp [hd, ih]

end stretches

namespace Numeral

/-- Whether no base is larger than the number of digits and letters. -/
def IsUsual : Numeral → Prop
  | based base => base ≤ 36
  | _ => True

theorem isUsual_of_markNext? {c : Char} {next : Numeral} (h : next?.markNext? c = some next) :
    next.IsUsual := by
  unfold next?.markNext? at h
  split at h
  · cases h
    trivial
  · cases h

theorem isUsual_of_wholeNext? {c : Char} {next : Numeral} (h : next?.wholeNext? c = some next) :
    next.IsUsual := by
  unfold next?.wholeNext? at h
  split at h
  · cases h
    trivial
  split at h
  · cases h
    trivial
  split at h
  · cases h
    trivial
  · exact isUsual_of_markNext? h

theorem baseOf?_le {c : Char} {base : Nat} (h : baseOf? c = some base) : base ≤ 36 := by
  unfold baseOf? at h
  split at h <;> cases h <;> decide

theorem IsUsual.next? {part next : Numeral} {c : Char} (h : part.IsUsual)
    (hnext : part.next? c = some next) : next.IsUsual := by
  cases part with
  | zero =>
      unfold Numeral.next? at hnext
      cases hbase : baseOf? c with
      | some base =>
          simp only [hbase] at hnext
          cases hnext
          exact baseOf?_le hbase
      | none =>
          simp only [hbase] at hnext
          exact isUsual_of_wholeNext? hnext
  | whole => exact isUsual_of_wholeNext? hnext
  | fraction =>
      unfold Numeral.next? at hnext
      simp only at hnext
      split at hnext
      · cases hnext
        trivial
      · exact isUsual_of_markNext? hnext
  | mark | power =>
      unfold Numeral.next? at hnext
      simp only at hnext
      split at hnext <;> cases hnext
      trivial
  | based base =>
      unfold Numeral.next? at hnext
      simp only at hnext
      split at hnext
      · cases hnext
        exact h
      · split at hnext <;> cases hnext
        trivial
  | big => cases hnext

theorem isUsual_ofFirst (c : Char) : (ofFirst c).IsUsual := by
  unfold ofFirst
  split
  · trivial
  split <;> trivial

theorem next?_lineEnd {part : Numeral} (h : part.IsUsual) : part.next? '\n' = none := by
  cases part with
  | based base =>
      have hvalue : ¬ digitValue '\n' < base := by
        have : digitValue '\n' = 36 := by decide
        unfold IsUsual at h
        omega
      simp [Numeral.next?, hvalue]
  | _ => decide

theorem split_append_lineEnd {part : Numeral} (h : part.IsUsual) (a b : List Char) :
    part.split (a ++ '\n' :: b) =
      ((part.split a).1, (part.split a).2.1, (part.split a).2.2 ++ '\n' :: b) := by
  induction a generalizing part with
  | nil => simp [split, next?_lineEnd h]
  | cons c more ih =>
      rw [List.cons_append, split, split]
      cases hnext : part.next? c with
      | none => rfl
      | some next => simp only [ih (h.next? hnext)]

end Numeral

/-! ### Lexemes -/

namespace Lexeme

def before (l : Lexeme) (behind : List Char) : Lexeme := { l with stop := l.stop ++ behind }

/-- Two lexemes that differ in the ends of the texts behind them alone. -/
def Swaps (s s' : List Char) (l l' : Lexeme) : Prop :=
  ∃ stop, l.stop = stop ++ s ∧ l' = { l with stop := stop ++ s' }

theorem swaps_before (l : Lexeme) (s s' : List Char) : Swaps s s' (l.before s) (l.before s') :=
  ⟨l.stop, rfl, rfl⟩

variable {s : List Char}

theorem word_append (a b : List Char) : word (a ++ '\n' :: b) = (word a).before ('\n' :: b) := by
  have hplain : isPlainPart '\n' = false := by decide
  have hpart : isWordPart '\n' = false := by decide
  unfold word
  dsimp only
  rw [takeWhile_append_stop hplain, dropWhile_append_stop hplain, takeWhile_append_stop hpart,
    dropWhile_append_stop hpart]
  split <;> rfl

theorem word_swap (hs : IsEnding s) (a b : List Char) :
    Swaps s ('\n' :: b) (word (a ++ s)) (word (a ++ '\n' :: b)) := by
  have hword : word (a ++ s) = (word a).before s := by
    cases hs with
    | bare => simp [before]
    | line => exact word_append a []
  rw [hword, word_append]
  exact swaps_before _ _ _

theorem letters_swap (hs : IsEnding s) (kind : Kind) (before a b : List Char) :
    Swaps s ('\n' :: b)
      ⟨kind, before ++ (a ++ s).takeWhile isWordPart, (a ++ s).dropWhile isWordPart⟩
      ⟨kind, before ++ (a ++ '\n' :: b).takeWhile isWordPart,
        (a ++ '\n' :: b).dropWhile isWordPart⟩ := by
  have hpart : isWordPart '\n' = false := by decide
  refine ⟨a.dropWhile isWordPart, ?_, ?_⟩
  · cases hs with
    | bare => simp
    | line => exact dropWhile_append_stop hpart a []
  · rw [takeWhile_append_stop hpart, dropWhile_append_stop hpart]
    cases hs with
    | bare => simp
    | line => rw [takeWhile_append_stop hpart]

theorem numeral_append (c : Char) (a b : List Char) :
    numeral c (a ++ '\n' :: b) =
      ⟨if ((Numeral.ofFirst c).split a).2.1 = .big then .bigNumber else .number,
        c :: ((Numeral.ofFirst c).split a).1, ((Numeral.ofFirst c).split a).2.2 ++ '\n' :: b⟩ := by
  have hsplit := Numeral.split_append_lineEnd (Numeral.isUsual_ofFirst c) a b
  unfold numeral
  rw [hsplit]
  generalize (Numeral.ofFirst c).split a = parts
  obtain ⟨more, part, stop⟩ := parts
  cases part with
  | mark => cases stop <;> rfl
  | _ => rfl

theorem numeral_of_isSolid {c : Char} {a : List Char} (h : (numeral c a).kind.isSolid = true) :
    numeral c a =
      ⟨if ((Numeral.ofFirst c).split a).2.1 = .big then .bigNumber else .number,
        c :: ((Numeral.ofFirst c).split a).1, ((Numeral.ofFirst c).split a).2.2⟩ := by
  unfold numeral at h ⊢
  generalize (Numeral.ofFirst c).split a = parts at h ⊢
  obtain ⟨more, part, stop⟩ := parts
  cases part with
  | mark =>
      cases stop with
      | nil => cases h
      | cons d stop => rfl
  | _ => rfl

theorem numeral_swap (hs : IsEnding s) {c : Char} {a : List Char}
    (h : (numeral c (a ++ s)).kind.isSolid = true) (b : List Char) :
    Swaps s ('\n' :: b) (numeral c (a ++ s)) (numeral c (a ++ '\n' :: b)) := by
  refine ⟨((Numeral.ofFirst c).split a).2.2, ?_⟩
  cases hs with
  | bare =>
      rw [List.append_nil] at h ⊢
      rw [numeral_append, numeral_of_isSolid h]
      exact ⟨(List.append_nil _).symm, rfl⟩
  | line =>
      rw [numeral_append, numeral_append]
      exact ⟨rfl, rfl⟩

theorem string_swap (hs : IsEnding s) {quote : Char} (hquote : quote ≠ '\n') {read : List Char}
    {escaped : Bool} {a : List Char} (h : (string quote read escaped (a ++ s)).kind.isSolid = true)
    (b : List Char) :
    Swaps s ('\n' :: b) (string quote read escaped (a ++ s))
      (string quote read escaped (a ++ '\n' :: b)) := by
  induction a generalizing read escaped with
  | nil =>
      cases hs with
      | bare => cases h
      | line => cases escaped <;> simp [string, isLineEnd, Ne.symm hquote] at h <;> cases h
  | cons c more ih =>
      rw [List.cons_append, string] at h
      rw [List.cons_append, List.cons_append, string, string]
      by_cases hescaped : escaped = true
      · rw [if_pos hescaped] at h ⊢
        rw [if_pos hescaped]
        exact ih h
      rw [if_neg hescaped] at h ⊢
      rw [if_neg hescaped]
      by_cases hend : c = quote
      · rw [if_pos hend, if_pos hend]
        exact ⟨more, rfl, rfl⟩
      rw [if_neg hend] at h ⊢
      rw [if_neg hend]
      by_cases hline : isLineEnd c = true
      · rw [if_pos hline] at h
        cases h
      rw [if_neg hline] at h ⊢
      rw [if_neg hline]
      exact ih h

theorem lineEnd_not_mem_of_mark {mark : String} (h : (marks.lookup mark).isSome = true) :
    '\n' ∉ mark.toList := by
  have hall : ∀ m ∈ marks, '\n' ∉ m.1.toList := by decide
  obtain ⟨m, hm, heq⟩ := List.lookup_isSome_iff.mp h
  rw [beq_iff_eq.mp heq]
  exact hall m hm

theorem longestMarkUpTo?_append {a : List Char} (ha : a ≠ []) (b : List Char) (count : Nat) :
    longestMarkUpTo? (a ++ '\n' :: b) count = longestMarkUpTo? a count := by
  have hpos : 0 < a.length := List.length_pos_iff.mpr ha
  induction count with
  | zero => rfl
  | succ count ih =>
      by_cases hfits : count + 1 ≤ a.length
      · rw [longestMarkUpTo?, longestMarkUpTo?, List.take_append_of_le_length hfits, ih]
      · have hline : '\n' ∈ (a ++ '\n' :: b).take (count + 1) := by
          have hmore : count + 1 - a.length = count - a.length + 1 := by omega
          rw [List.take_append, hmore]
          simp
        have hnone : ¬ (marks.lookup (String.ofList ((a ++ '\n' :: b).take (count + 1)))).isSome =
            true := by
          intro h
          have hfree := lineEnd_not_mem_of_mark h
          rw [String.toList_ofList] at hfree
          exact hfree hline
        have hwhole : ∀ k, a.length ≤ k → a.take k = a := fun k hk => List.take_of_length_le hk
        obtain ⟨rest, rfl⟩ : ∃ rest, count = rest + 1 := ⟨count - 1, by omega⟩
        rw [longestMarkUpTo?, if_neg hnone, ih]
        conv => rhs; rw [longestMarkUpTo?, hwhole (rest + 1 + 1) (by omega)]
        split
        case isTrue hmark =>
          rw [longestMarkUpTo?, hwhole (rest + 1) (by omega), if_pos hmark]
        case isFalse => rfl

theorem mark?_append {a : List Char} (ha : a ≠ []) (b : List Char) :
    mark? (a ++ '\n' :: b) = mark? a := by
  cases a with
  | nil => exact absurd rfl ha
  | cons c more =>
      have hlongest := longestMarkUpTo?_append ha b longestMark
      rw [List.cons_append] at hlongest ⊢
      rw [mark?, mark?, hlongest]

/-- A mark stands at the beginning of the text, and is not empty. -/
theorem prefix_of_longestMarkUpTo? {a : List Char} {count : Nat} {mark : String}
    (h : longestMarkUpTo? a count = some mark) : mark.toList <+: a ∧ mark.toList ≠ [] := by
  induction count with
  | zero => cases h
  | succ count ih =>
      rw [longestMarkUpTo?] at h
      split at h
      case isTrue hmark =>
        have hne : ∀ m ∈ marks, m.1.toList ≠ [] := by decide
        obtain ⟨m, hm, heq⟩ := List.lookup_isSome_iff.mp hmark
        rw [← Option.some.inj h]
        refine ⟨?_, ?_⟩
        · rw [String.toList_ofList]
          exact List.take_prefix _ _
        · rw [beq_iff_eq.mp heq]
          exact hne m hm
      case isFalse => exact ih h

theorem prefix_of_mark? {a : List Char} {mark : String} (h : mark? a = some mark) :
    mark.toList <+: a ∧ mark.toList ≠ [] := by
  cases a with
  | nil => cases h
  | cons c more =>
      rw [mark?] at h
      split at h
      · rw [← Option.some.inj h, String.toList_ofList]
        exact ⟨⟨more, rfl⟩, List.cons_ne_nil _ _⟩
      · exact prefix_of_longestMarkUpTo? h

theorem mark_swap (hs : IsEnding s) {a : List Char} (ha : a ≠ [])
    (h : (mark (a ++ s)).kind.isSolid = true) (b : List Char) :
    Swaps s ('\n' :: b) (mark (a ++ s)) (mark (a ++ '\n' :: b)) := by
  have hmark : mark? (a ++ s) = mark? a := by
    cases hs with
    | bare => rw [List.append_nil]
    | line => exact mark?_append ha []
  unfold mark at h ⊢
  rw [hmark] at h ⊢
  rw [mark?_append ha b]
  cases hfound : mark? a with
  | none =>
      rw [hfound] at h
      cases h
  | some m =>
      have hlength : m.length ≤ a.length := by
        rw [← String.length_toList]
        exact (prefix_of_mark? hfound).1.length_le
      refine ⟨a.drop m.length, ?_, ?_⟩
      · exact List.drop_append_of_le_length hlength
      · simp only [List.take_append_of_le_length hlength, List.drop_append_of_le_length hlength]

theorem template_swap (hs : IsEnding s) {read : List Char} {escaped dollar : Bool} {a : List Char}
    (h : (template read escaped dollar (a ++ s)).kind.isSolid = true) (b : List Char) :
    Swaps s ('\n' :: b) (template read escaped dollar (a ++ s))
      (template read escaped dollar (a ++ '\n' :: b)) := by
  induction a generalizing read escaped dollar with
  | nil =>
      have hquote : '\n' ≠ backQuote := by decide
      cases hs with
      | bare => cases h
      | line => cases escaped <;> simp [template, hquote] at h <;> cases h
  | cons c more ih =>
      rw [List.cons_append, template] at h
      rw [List.cons_append, List.cons_append, template, template]
      by_cases hescaped : escaped = true
      · rw [if_pos hescaped] at h ⊢
        rw [if_pos hescaped]
        exact ih h
      rw [if_neg hescaped] at h ⊢
      rw [if_neg hescaped]
      by_cases hclose : c = backQuote
      · rw [if_pos hclose, if_pos hclose]
        exact ⟨more, rfl, rfl⟩
      rw [if_neg hclose] at h ⊢
      rw [if_neg hclose]
      by_cases hopen : (dollar && c == '\x7b') = true
      · rw [if_pos hopen, if_pos hopen]
        exact ⟨more, rfl, rfl⟩
      rw [if_neg hopen] at h ⊢
      rw [if_neg hopen]
      exact ih h

theorem pattern_swap (hs : IsEnding s) {read : List Char} {inClass escaped : Bool} {a : List Char}
    (h : (pattern read inClass escaped (a ++ s)).kind.isSolid = true) (b : List Char) :
    Swaps s ('\n' :: b) (pattern read inClass escaped (a ++ s))
      (pattern read inClass escaped (a ++ '\n' :: b)) := by
  induction a generalizing read inClass escaped with
  | nil => cases hs <;> cases h
  | cons c more ih =>
      rw [List.cons_append, pattern] at h
      rw [List.cons_append, List.cons_append, pattern, pattern]
      by_cases hline : isLineEnd c = true
      · rw [if_pos hline] at h
        cases h
      rw [if_neg hline] at h ⊢
      rw [if_neg hline]
      by_cases hescaped : escaped = true
      · rw [if_pos hescaped] at h ⊢
        rw [if_pos hescaped]
        exact ih h
      rw [if_neg hescaped] at h ⊢
      rw [if_neg hescaped]
      by_cases hclose : (decide (c = '/') && !inClass) = true
      · rw [if_pos hclose, if_pos hclose]
        exact letters_swap hs .pattern _ more b
      rw [if_neg hclose] at h ⊢
      rw [if_neg hclose]
      exact ih h

theorem privateMember_swap (hs : IsEnding s) {a : List Char}
    (h : (privateMember (a ++ s)).kind.isSolid = true) (b : List Char) :
    Swaps s ('\n' :: b) (privateMember (a ++ s)) (privateMember (a ++ '\n' :: b)) := by
  cases a with
  | nil => cases hs <;> cases h
  | cons c more =>
      rw [List.cons_append, privateMember] at h
      rw [List.cons_append, List.cons_append, privateMember, privateMember]
      by_cases hstart : isWordStart c = true
      · rw [if_pos hstart, if_pos hstart]
        exact letters_swap hs .privateName ['#', c] more b
      · rw [if_neg hstart] at h
        cases h

/-- A token at the beginning of a text is the same whatever stands behind the end of the line. -/
theorem first_swap (hs : IsEnding s) {operand : Bool} {a : List Char} (ha : a ≠ [])
    (h : (first operand (a ++ s)).kind.isSolid = true) (b : List Char) :
    Swaps s ('\n' :: b) (first operand (a ++ s)) (first operand (a ++ '\n' :: b)) := by
  cases a with
  | nil => exact absurd rfl ha
  | cons c more =>
      have hdigit : (more ++ '\n' :: b).head?.any Char.isDigit =
          (more ++ s).head?.any Char.isDigit := by
        cases more with
        | nil => cases hs <;> rfl
        | cons => rfl
      rw [List.cons_append, first] at h
      rw [List.cons_append, List.cons_append, first, first]
      simp only [hdigit]
      by_cases hword : isWordStart c = true
      · rw [if_pos hword, if_pos hword]
        exact word_swap hs (c :: more) b
      rw [if_neg hword] at h ⊢
      rw [if_neg hword]
      by_cases hnumber : c.isDigit = true
      · rw [if_pos hnumber] at h ⊢
        rw [if_pos hnumber]
        exact numeral_swap hs h b
      rw [if_neg hnumber] at h ⊢
      rw [if_neg hnumber]
      by_cases hpoint : (decide (c = '.') && (more ++ s).head?.any Char.isDigit) = true
      · rw [if_pos hpoint] at h ⊢
        rw [if_pos hpoint]
        exact numeral_swap hs h b
      rw [if_neg hpoint] at h ⊢
      rw [if_neg hpoint]
      by_cases hquote : (decide (c = '\'') || decide (c = '"')) = true
      · rw [if_pos hquote] at h ⊢
        rw [if_pos hquote]
        have hline : c ≠ '\n' := by
          rintro rfl
          exact absurd hquote (by decide)
        exact string_swap hs hline h b
      rw [if_neg hquote] at h ⊢
      rw [if_neg hquote]
      by_cases hback : c = backQuote
      · rw [if_pos hback] at h ⊢
        rw [if_pos hback]
        exact template_swap hs h b
      rw [if_neg hback] at h ⊢
      rw [if_neg hback]
      by_cases hhash : c = '#'
      · rw [if_pos hhash] at h ⊢
        rw [if_pos hhash]
        exact privateMember_swap hs h b
      rw [if_neg hhash] at h ⊢
      rw [if_neg hhash]
      by_cases hslash : (decide (c = '/') && operand) = true
      · rw [if_pos hslash] at h ⊢
        rw [if_pos hslash]
        exact pattern_swap hs h b
      rw [if_neg hslash] at h ⊢
      rw [if_neg hslash]
      exact mark_swap hs ha h b

/-- What is no end of a text: a common one of them is written with some characters. -/
structure IsProper (l : Lexeme) : Prop where
  kind_ne_end : l.kind ≠ .endOfText
  text_ne_nil : l.kind.isSolid = true → l.text ≠ []

theorem isProper_of_ne_nil {kind : Kind} (hkind : kind ≠ .endOfText) {text : List Char}
    (htext : text ≠ []) (stop : List Char) : IsProper ⟨kind, text, stop⟩ :=
  ⟨hkind, fun _ => htext⟩

theorem isProper_broken (why : Break) (rest : List Char) : (broken why rest).IsProper :=
  ⟨nofun, nofun⟩

theorem isProper_word {c : Char} (hc : isWordStart c = true) (rest : List Char) :
    (word (c :: rest)).IsProper := by
  have hpart : isWordPart c = true := by simp [isWordPart, hc]
  unfold word
  dsimp only
  split
  case h_1 k hk =>
      refine isProper_of_ne_nil (by simp) (fun hnil => ?_) _
      have hempty : keyword? [] = some k := hnil ▸ hk
      cases hempty
  case h_2 =>
      refine isProper_of_ne_nil (by decide) ?_ _
      by_cases hplain : isPlainPart c = true
      · simp [hplain]
      · simp [hplain, hpart]

theorem isProper_numeral (c : Char) (rest : List Char) : (numeral c rest).IsProper := by
  unfold numeral
  split
  · exact isProper_broken _ _
  · exact isProper_of_ne_nil (by decide) (List.cons_ne_nil _ _) _
  · exact isProper_of_ne_nil (by decide) (List.cons_ne_nil _ _) _

theorem isProper_string (quote : Char) (read : List Char) (escaped : Bool) (text : List Char) :
    (string quote read escaped text).IsProper := by
  fun_induction string quote read escaped text with
  | case2 => assumption
  | case3 => exact isProper_of_ne_nil (by decide) (by simp) _
  | case5 => assumption
  | _ => exact isProper_broken _ _

theorem isProper_mark (text : List Char) : (mark text).IsProper := by
  unfold mark
  split
  case h_1 m hm =>
      obtain ⟨hbegins, hne⟩ := prefix_of_mark? hm
      refine isProper_of_ne_nil (by simp) ?_ _
      rw [← String.length_toList, ← List.prefix_iff_eq_take.mp hbegins]
      exact hne
  case h_2 => exact isProper_broken _ _

theorem isProper_template (read : List Char) (escaped dollar : Bool) (text : List Char) :
    (template read escaped dollar text).IsProper := by
  fun_induction template read escaped dollar text with
  | case1 => exact isProper_broken _ _
  | case2 => assumption
  | case5 => assumption
  | _ => exact isProper_of_ne_nil (by decide) (by simp) _

theorem isProper_privateMember (text : List Char) : (privateMember text).IsProper := by
  unfold privateMember
  split
  · exact isProper_broken _ _
  split
  · exact isProper_of_ne_nil (by decide) (List.cons_ne_nil _ _) _
  · exact isProper_broken _ _

theorem isProper_pattern (read : List Char) (inClass escaped : Bool) (text : List Char) :
    (pattern read inClass escaped text).IsProper := by
  fun_induction pattern read inClass escaped text with
  | case3 => assumption
  | case4 => exact isProper_of_ne_nil (by decide) (by simp) _
  | case5 => assumption
  | _ => exact isProper_broken _ _

/-- Before the end of a text something stands. -/
theorem isProper_first (operand : Bool) (c : Char) (rest : List Char) :
    (first operand (c :: rest)).IsProper := by
  unfold first
  dsimp only
  split
  case isTrue hword => exact isProper_word hword rest
  split
  · exact isProper_numeral c rest
  split
  · exact isProper_numeral c rest
  split
  · exact isProper_string c [c] false rest
  split
  · exact isProper_template [c] false false rest
  split
  · exact isProper_privateMember rest
  split
  · exact isProper_pattern [c] false false rest
  · exact isProper_mark (c :: rest)

end Lexeme

end Script
end AssetPress
