import AssetPress.Proofs.Script.LineEnd

/-!
# Tokens behind blanks and comments

Behind blanks and comments, too, a token is the same whatever stands behind the line end of its
text (`Token.next_swaps`), and where nothing else is left, what stands behind the line end comes
next, on a line of its own (`Token.next_of_endOfText`).
-/

namespace AssetPress
namespace Script

namespace Gap

/-- A line that has ended in front of a text changes nothing else. -/
theorem pass_true (line : Bool) (g : Gap) (text : List Char) :
    g.pass true text = (true, (g.pass line text).2) := by
  induction text generalizing g line with
  | nil => cases g <;> rfl
  | cons c rest ih =>
      cases g with
      | blank =>
          rw [pass, pass]
          split
          · exact ih line blank
          split
          · exact ih true blank
          split
          · exact ih line (slash (c :: rest))
          · rfl
      | slash text =>
          rw [pass, pass]
          split
          · exact ih true lineComment
          split
          · exact ih line (blockComment rest)
          · rfl
      | lineComment => exact ih line _
      | blockComment inside => exact ih line _
      | blockStar inside => exact ih line _

/-- What is passed over in front of a token, with more text behind it. -/
def before (behind : List Char) : Gap → Gap
  | slash text => slash (text ++ behind)
  | blockComment inside => blockComment (inside ++ behind)
  | blockStar inside => blockStar (inside ++ behind)
  | g => g

/-- What holds of a gap on the way from blanks: a comment up to the end of its line has ended it,
and a slash stands where it has been seen. -/
def IsSound (line : Bool) : Gap → Prop
  | lineComment => line = true
  | slash text => text ≠ []
  | _ => True

/-- What a text leaves behind a gap does not change with what stands behind the end of the line: a
token stays, and where none is left, what stands behind the line end is next. -/
def Swaps (s b : List Char) (line : Bool) (g : Gap) (a : List Char) : Prop :=
  ∀ line' start, (g.before s).pass line (a ++ s) = (line', .ok start) →
    start = [] ∧ (g.before ('\n' :: b)).pass line (a ++ '\n' :: b) = blank.pass true b ∨
      ∃ start', start' ≠ [] ∧ start = start' ++ s ∧
        (g.before ('\n' :: b)).pass line (a ++ '\n' :: b) = (line', .ok (start' ++ '\n' :: b))

variable {s b : List Char} {line : Bool} {g : Gap}

theorem swaps_nil (hs : IsEnding s) (hsound : g.IsSound line) : g.Swaps s b line [] := by
  intro line' start h
  cases g with
  | blank => cases hs <;> cases h <;> exact .inl ⟨rfl, rfl⟩
  | slash text =>
      have hstart : start = text ++ s := by cases hs <;> cases h <;> simp
      have hline : line' = line := by cases hs <;> cases h <;> rfl
      exact .inr ⟨text, hsound, hstart, hline ▸ rfl⟩
  | lineComment =>
      cases (hsound : line = true)
      cases hs <;> cases h <;> exact .inl ⟨rfl, rfl⟩
  | blockComment inside => cases hs <;> cases h
  | blockStar inside => cases hs <;> cases h

/-- One character in front of others takes a gap to the next one or ends it, whatever stands at the
end of the text. -/
theorem pass_cons (hsound : g.IsSound line) (c : Char) (rest : List Char) :
    (∃ (line' : Bool) (g' : Gap), g'.IsSound line' ∧ ∀ s,
      (g.before s).pass line (c :: (rest ++ s)) = (g'.before s).pass line' (rest ++ s)) ∨
    ∃ start, start ≠ [] ∧
      ∀ s, (g.before s).pass line (c :: (rest ++ s)) = (line, .ok (start ++ s)) := by
  cases g with
  | blank =>
      by_cases hblank : isBlank c = true
      · exact .inl ⟨line, blank, trivial, fun s => if_pos hblank⟩
      by_cases hline : isLineEnd c = true
      · exact .inl ⟨true, blank, trivial, fun s => (if_neg hblank).trans (if_pos hline)⟩
      by_cases hslash : c = '/'
      · exact .inl ⟨line, slash (c :: rest), List.cons_ne_nil _ _, fun s =>
          (if_neg hblank).trans ((if_neg hline).trans (if_pos hslash))⟩
      · exact .inr ⟨c :: rest, List.cons_ne_nil _ _, fun s =>
          (if_neg hblank).trans ((if_neg hline).trans (if_neg hslash))⟩
  | slash text =>
      by_cases hslash : c = '/'
      · exact .inl ⟨true, lineComment, rfl, fun s => if_pos hslash⟩
      by_cases hstar : c = '*'
      · exact .inl ⟨line, blockComment rest, trivial, fun s =>
          (if_neg hslash).trans (if_pos hstar)⟩
      · exact .inr ⟨text, hsound, fun s => (if_neg hslash).trans (if_neg hstar)⟩
  | lineComment =>
      by_cases hline : isLineEnd c = true
      · exact .inl ⟨line, blank, trivial, fun s => by simp only [before, pass, if_pos hline]⟩
      · exact .inl ⟨line, lineComment, hsound, fun s => by simp only [before, pass, if_neg hline]⟩
  | blockComment inside =>
      by_cases hstar : c = '*'
      · exact .inl ⟨line, blockStar inside, trivial, fun s => by
          simp only [before, pass, if_pos hstar]⟩
      · exact .inl ⟨line, blockComment inside, trivial, fun s => by
          simp only [before, pass, if_neg hstar]⟩
  | blockStar inside =>
      by_cases hslash : c = '/'
      · exact .inl ⟨line, blank, trivial, fun s => by simp only [before, pass, if_pos hslash]⟩
      by_cases hstar : c = '*'
      · exact .inl ⟨line, blockStar inside, trivial, fun s => by
          simp only [before, pass, if_neg hslash, if_pos hstar]⟩
      · exact .inl ⟨line, blockComment inside, trivial, fun s => by
          simp only [before, pass, if_neg hslash, if_neg hstar]⟩

theorem swaps_of_isSound (hs : IsEnding s) (hsound : g.IsSound line) (a : List Char) :
    g.Swaps s b line a := by
  induction a generalizing line g with
  | nil => exact swaps_nil hs hsound
  | cons c rest ih =>
      intro line' start h
      rw [List.cons_append] at h ⊢
      obtain ⟨line₂, g', hsound', hstep⟩ | ⟨start', hne, hstop⟩ := pass_cons hsound c rest
      · rw [hstep] at h ⊢
        exact ih hsound' line' start h
      · rw [hstop] at h ⊢
        cases h
        exact .inr ⟨start', hne, rfl, rfl⟩

end Gap

namespace Token

variable {s : List Char}

theorem kind_next_error {text inside : List Char} {line : Bool}
    (h : Gap.blank.pass false text = (line, .error inside)) :
    (next text).kind = .broken .notFound := by
  rw [next, h]
  rfl

/-- Two tokens that differ in the ends of the texts around them alone. -/
inductive Swaps (s s' : List Char) : Token → Token → Prop
  | mk {kind : Kind} {text start stop : List Char} {line : Bool} :
      kind.isSolid = true → start ≠ [] →
        Swaps s s' ⟨⟨kind, text, stop ++ s⟩, start ++ s, line⟩
          ⟨⟨kind, text, stop ++ s'⟩, start ++ s', line⟩

theorem Swaps.of_lexeme {s' start : List Char} {l l' : Lexeme} {line : Bool}
    (hl : Lexeme.Swaps s s' l l') (hsolid : l.kind.isSolid = true) (hstart : start ≠ []) :
    Swaps s s' ⟨l, start ++ s, line⟩ ⟨l', start ++ s', line⟩ := by
  obtain ⟨kind, text, stop⟩ := l
  obtain ⟨stop, rfl, rfl⟩ := hl
  exact .mk hsolid hstart

/-- A token is the same whatever stands behind the end of the line. -/
theorem next_swaps (hs : IsEnding s) {a : List Char}
    (h : (next (a ++ s)).kind.isSolid = true) (b : List Char) :
    Swaps s ('\n' :: b) (next (a ++ s)) (next (a ++ '\n' :: b)) := by
  rcases hpass : Gap.blank.pass false (a ++ s) with ⟨line, inside | start⟩
  · rw [kind_next_error hpass] at h
    cases h
  have hnext : next (a ++ s) = ⟨Lexeme.first false start, start, line⟩ := by rw [next, hpass]
  rw [hnext] at h ⊢
  obtain ⟨rfl, -⟩ | ⟨start', hne, rfl, hpass'⟩ :=
    Gap.swaps_of_isSound (g := .blank) (b := b) hs trivial a line start hpass
  · cases h
  have hnext' : next (a ++ '\n' :: b) =
      ⟨Lexeme.first false (start' ++ '\n' :: b), start' ++ '\n' :: b, line⟩ := by
    change Gap.blank.pass false (a ++ '\n' :: b) = _ at hpass'
    rw [next, hpass']
  rw [hnext']
  exact .of_lexeme (Lexeme.first_swap hs hne h b) h hne

theorem nextPart_swaps (hs : IsEnding s) {a : List Char}
    (hbroken : (nextPart (a ++ s)).kind.isBroken = false) (b : List Char) :
    Swaps s ('\n' :: b) (nextPart (a ++ s)) (nextPart (a ++ '\n' :: b)) := by
  have hproper := Lexeme.isProper_template [] false false (a ++ s)
  have h : (nextPart (a ++ s)).kind.isSolid = true :=
    Kind.isSolid_of_ne_endOfText hbroken hproper.kind_ne_end
  have ha : a ≠ [] := by
    rintro rfl
    cases hs <;> cases h
  exact .of_lexeme (Lexeme.template_swap hs h b) h ha

theorem Swaps.asOperand (hs : IsEnding s) {b : List Char} {t t' : Token}
    (h : Swaps s ('\n' :: b) t t') (hbroken : t.asOperand.kind.isBroken = false) :
    Swaps s ('\n' :: b) t.asOperand t'.asOperand := by
  cases h with
  | @mk kind text start stop line hkind hstart =>
      rw [Token.asOperand] at hbroken ⊢
      rw [Token.asOperand]
      by_cases hslash : kind = .mark "/" ∨ kind = .mark "/="
      · rw [if_pos hslash] at hbroken ⊢
        rw [if_pos hslash]
        have hend : (Lexeme.first true (start ++ s)).kind ≠ .endOfText := by
          obtain ⟨c, rest, rfl⟩ := List.exists_cons_of_ne_nil hstart
          exact (Lexeme.isProper_first true c (rest ++ s)).kind_ne_end
        have hsolid := Kind.isSolid_of_ne_endOfText hbroken hend
        exact .of_lexeme (Lexeme.first_swap hs hstart hsolid b) hsolid hstart
      · rw [if_neg hslash, if_neg hslash]
        exact .mk hkind hstart

/-- Behind blanks and comments up to the end of the line, what stands behind that is next. -/
theorem next_of_endOfText (hs : IsEnding s) {a : List Char}
    (h : (next (a ++ s)).kind = .endOfText) (b : List Char) :
    next (a ++ '\n' :: b) = { next b with afterLineEnd := true } := by
  rcases hpass : Gap.blank.pass false (a ++ s) with ⟨line, inside | start⟩
  · rw [kind_next_error hpass] at h
    cases h
  have hstart : start = [] := by
    cases start with
    | nil => rfl
    | cons c rest =>
        rw [next, hpass] at h
        exact absurd h (Lexeme.isProper_first false c rest).kind_ne_end
  obtain ⟨-, hpass'⟩ | ⟨start', hne, heq, -⟩ :=
    Gap.swaps_of_isSound (g := .blank) (b := b) hs trivial a line start hpass
  · change Gap.blank.pass false (a ++ '\n' :: b) = _ at hpass'
    rw [next, hpass', Gap.pass_true false, next]
    rcases Gap.blank.pass false b with ⟨line, inside | start⟩ <;> rfl
  · rw [hstart] at heq
    exact absurd (List.append_eq_nil_iff.mp heq.symm).1 hne

end Token

end Script
end AssetPress
