import AssetPress.Proofs.Results
import AssetPress.Script.Reader

/-!
# Tokens with which no statement begins

Brackets that close something, the words that go on with a statement and most operators begin
neither a statement nor an expression (`Kind.isIdle`), so a script that is accepted begins with none
of them (`Routine.not_isIdle_of_run`).  Of the tokens that could go on with an expression of the
line before, few are left (`Kind.goesOn`).
-/

namespace AssetPress
namespace Script

/-- Marks and words with which neither a statement nor an expression begins. -/
def Kind.isIdle : Kind → Bool
  | .mark m => !(Operator.prefixes ++ [";", "\x7b", "[", "(", "/", "/="]).contains m
  | .keyword word => ["else", "catch", "finally", "default", "in", "instanceof"].contains word
  | _ => false

/-- Marks with which an expression may begin, and go on at the beginning of a line. -/
def Kind.goesOn : Kind → Bool
  | .mark m => ["(", "[", "+", "-", "/", "/="].contains m
  | _ => false

theorem Kind.isIdle_of_isLink {kind : Kind} (h : kind.isLink = true) : kind.isIdle = true := by
  have hmarks : ∀ m ∈ [",", "*", "...", "=", ":", "=>", ")", "]", "\x7d"],
      (Kind.mark m).isIdle = true := by decide
  have hwords : ∀ word ∈ ["else", "catch", "finally", "default"],
      (Kind.keyword word).isIdle = true := by decide
  cases kind with
  | mark m => exact hmarks m (List.contains_iff_mem.mp h)
  | keyword word => exact hwords word (List.contains_iff_mem.mp h)
  | _ => cases h

theorem Kind.goesOn_of_ofKind? {kind : Kind} {o : Operator} (h : Operator.ofKind? kind = some o)
    (hidle : kind.isIdle = false) : kind.goesOn = true := by
  have hmarks : ∀ o ∈ Operator.all,
      (mark o.text).isIdle = true ∨ (mark o.text).goesOn = true := by decide
  have hwords : ∀ o ∈ Operator.words, (keyword o.text).isIdle = true := by decide
  cases kind with
  | mark m =>
      change Operator.all.find? (fun o => o.text == m) = some o at h
      have htext := List.find?_some h
      obtain rfl : o.text = m := beq_iff_eq.mp htext
      have hor := hmarks o (List.mem_of_find?_eq_some h)
      rw [hidle] at hor
      exact hor.resolve_left Bool.false_ne_true
  | keyword word =>
      change Operator.words.find? (fun o => o.text == word) = some o at h
      have htext := List.find?_some h
      obtain rfl : o.text = word := beq_iff_eq.mp htext
      rw [hwords o (List.mem_of_find?_eq_some h)] at hidle
      cases hidle
  | _ => cases h

/-- At the beginning of a line, an expression goes on at few tokens with which others begin. -/
theorem Sight.goesOn_of_continuation? {t : Sight} {continuation : Continuation}
    (h : t.continuation? = some continuation) (hline : t.afterLineEnd = true)
    (hidle : t.kind.isIdle = false) : t.kind.goesOn = true := by
  unfold continuation? at h
  split at h
  case h_1 heq => rw [heq]; rfl
  case h_3 heq => rw [heq]; rfl
  case h_8 | h_9 | h_10 => rw [hline] at h; cases h
  case h_11 =>
    obtain ⟨o, ho, -⟩ := Option.map_eq_some_iff.mp h
    exact Kind.goesOn_of_ofKind? ho hidle
  all_goals
    rename_i heq
    rw [heq] at hidle
    cases hidle

/-! ### Statements -/

theorem Operator.prefixOfKind?_of_isIdle {kind : Kind} (h : kind.isIdle = true) :
    prefixOfKind? kind = none := by
  have hwords : ∀ word ∈ ["else", "catch", "finally", "default", "in", "instanceof"],
      prefixes.find? (· == word) = none := by decide
  cases kind with
  | mark m =>
      have hm : m ∉ prefixes ++ [";", "\x7b", "[", "(", "/", "/="] := by
        simpa [Kind.isIdle] using h
      show prefixes.find? (· == m) = none
      rw [List.find?_eq_none]
      intro m' hm' heq
      exact hm (List.mem_append_left _ (beq_iff_eq.mp heq ▸ hm'))
  | keyword word => exact hwords word (List.contains_iff_mem.mp h)
  | _ => cases h

theorem Kind.isName_of_isIdle {kind : Kind} (h : kind.isIdle = true) : kind.isName = false := by
  have hwords : ∀ word ∈ ["else", "catch", "finally", "default", "in", "instanceof"],
      (keyword word).isName = false := by decide
  cases kind with
  | keyword word => exact hwords word (List.contains_iff_mem.mp h)
  | name => cases h
  | _ => rfl

theorem Sight.value?_of_isIdle {t : Sight} (h : t.kind.isIdle = true) :
    t.value? = .error (.expected .operand) := by
  unfold value?
  split
  case h_10 => rfl
  all_goals
    rename_i heq
    rw [heq] at h
    cases h

theorem Reading.operandAt_of_isIdle {t : Sight} (h : t.kind.isIdle = true) (ending : Ending) :
    operandAt ending t = giveUp t (.expected .operand) := by
  unfold operandAt
  split
  case h_7 =>
    rw [Operator.prefixOfKind?_of_isIdle h]
    simp only [Kind.isName_of_isIdle h, Sight.value?_of_isIdle h]
    rfl
  all_goals
    rename_i heq
    rw [heq] at h
    cases h

theorem Reading.statementAt_of_isIdle {t : Sight} (h : t.kind.isIdle = true) :
    statementAt t = do return .evaluate (← sentence) := by
  unfold statementAt
  split
  case h_19 =>
    have hname : t.kind.isName = false := Kind.isName_of_isIdle h
    rw [isLabel, hname]
    rfl
  all_goals
    rename_i heq
    rw [heq] at h
    cases h

theorem Token.asOperand_of_isIdle {t : Token} (h : t.kind.isIdle = true) : t.asOperand = t := by
  refine if_neg ?_
  rintro (hslash | hslash) <;> rw [hslash] at h <;> cases h

theorem Routine.operand_run_of_isIdle {ends : Bool} {fuel : Nat} {ending : Ending} {c : Cursor}
    (h : c.token.kind.isIdle = true) (result : Phrase × Cursor) :
    (Routine.operand ending).run ends fuel c ≠ .ok result := by
  intro hrun
  cases fuel with
  | zero => cases hrun
  | succ fuel =>
      obtain ⟨⟨t, c'⟩, hlook, hrest⟩ := of_bind_ok hrun
      have hkind : t.kind = c.token.kind := by
        rw [Step.run, Token.asOperand_of_isIdle h] at hlook
        split at hlook
        · cases hlook
        · obtain ⟨token, htoken, hsight⟩ := of_bind_ok hlook
          cases hsight
          rw [Token.whole] at htoken
          split at htoken <;> cases htoken
          rfl
      rw [← hkind] at h
      change (Reading.operandAt ending t).run ends (Routine.run ends fuel) c' = _ at hrest
      rw [Reading.operandAt_of_isIdle h] at hrest
      cases hrest

theorem Routine.of_run_statement {ends : Bool} {fuel : Nat} {c : Cursor}
    {result : Statement × Cursor} (h : Routine.statement.run ends fuel c = .ok result) :
    ∃ n, fuel = n + 1 ∧
      (Reading.statementAt c.sight).run ends (Routine.run ends n) c = .ok result := by
  cases fuel with
  | zero => cases h
  | succ n =>
      obtain ⟨⟨t, c'⟩, hlook, hrest⟩ := of_bind_ok h
      rw [Step.run] at hlook
      split at hlook
      · cases hlook
      · cases hlook
        exact ⟨n, rfl, hrest⟩

/-- No statement begins with an idle token. -/
theorem Routine.not_isIdle_of_run {ends : Bool} {fuel : Nat} {c : Cursor}
    {result : Statement × Cursor} (h : Routine.statement.run ends fuel c = .ok result) :
    c.token.kind.isIdle = false := by
  refine Bool.eq_false_iff.mpr fun hidle => ?_
  obtain ⟨n, rfl, hrun⟩ := of_run_statement h
  rw [Reading.statementAt_of_isIdle hidle] at hrun
  obtain ⟨⟨e, c₂⟩, hexpr, -⟩ := of_bind_ok hrun
  cases n with
  | zero => cases hexpr
  | succ n =>
      obtain ⟨⟨left, c₃⟩, hoperand, -⟩ := of_bind_ok hexpr
      exact operand_run_of_isIdle hidle _ hoperand

/-- A semicolon where a statement is expected is one that does nothing. -/
theorem Routine.of_run_semicolon {ends : Bool} {fuel : Nat} {c c' : Cursor} {statement : Statement}
    (hsemicolon : c.token.kind = .mark ";")
    (h : Routine.statement.run ends fuel c = .ok (statement, c')) :
    ∃ t, c.behind = .ok t ∧ statement = .empty ∧ c' = c.moveTo t := by
  obtain ⟨n, rfl, hrun⟩ := of_run_statement h
  have hkind : c.sight.kind = .mark ";" := hsemicolon
  simp only [Reading.statementAt, hkind] at hrun
  obtain ⟨⟨_, c₂⟩, hskip, hdone⟩ := of_bind_ok hrun
  obtain ⟨t, hbehind, hmove⟩ := of_bind_ok hskip
  cases hmove
  cases hdone
  exact ⟨t, hbehind, rfl, rfl⟩

theorem not_isIdle_of_readStatements {ends : Bool} {fuel count : Nat} {c : Cursor}
    {statements : List Statement} (h : readStatements ends fuel count c = .ok statements) :
    c.token.kind.isIdle = false := by
  cases count with
  | zero => cases h
  | succ count =>
      rw [readStatements] at h
      split at h
      case isTrue hend =>
        rw [beq_iff_eq.mp hend]
        rfl
      case isFalse =>
        obtain ⟨result, hfirst, -⟩ := of_bind_ok h
        exact Routine.not_isIdle_of_run (c := c.restart) hfirst

end Script
end AssetPress
