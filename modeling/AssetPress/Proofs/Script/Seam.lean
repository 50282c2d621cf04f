import AssetPress.Proofs.Script.Beginnings
import AssetPress.Proofs.Script.Gap
import AssetPress.Proofs.Script.Runs

/-!
# Where two scripts meet

A script is read by itself, and as the front part of a longer one.  Up to the end of the front part
both runs see the same tokens; there, the first run sees the end of the text where the second one
sees a script that goes on, at the beginning of a line (`Meets`).  No step finds anything else at
the one place than at the other, as long as the script behind cannot go on with an expression that
the end of the text ends (`kept_meets`): with the tokens that could, no script begins.
-/

namespace AssetPress
namespace Script

variable {ends : Bool} {fuel count : Nat} {statements : List Statement} {c d : Cursor}

/-! ### Scripts behind others -/

/-- Where a statement begins, nothing else matters than the text from there on. -/
theorem readStatements_congr (h : c.restart = d.restart) :
    readStatements ends fuel count c = readStatements ends fuel count d := by
  cases count with
  | zero => rfl
  | succ count =>
      have hend : c.atEnd = d.atEnd := by
        have hkind := congrArg (fun c => c.token.kind) h
        change c.token.kind = d.token.kind at hkind
        rw [Cursor.atEnd, Cursor.atEnd, hkind]
      rw [readStatements, readStatements, h, hend]

/-- At the place begins a script with the given statements.  A line or a statement has ended in
front of it and, if `ends` is true, no expression goes on there. -/
structure Tail (ends : Bool) (fuel count : Nat) (statements : List Statement) (c : Cursor) :
    Prop where
  reads : readStatements true fuel count c = .ok statements
  isWhole : c.token.kind.isBroken = false
  isFresh : c.sight.afterLineEnd = true
  isApart : ends = true → c.continuation? = none

theorem Kind.beq_of_isLink {kind link : Kind} (h : kind.isLink = false)
    (hlink : link.isLink = true) : (kind == link) = false := by
  refine beq_eq_false_iff_ne.mpr ?_
  rintro rfl
  exact Bool.false_ne_true (h.symm.trans hlink)

/-- A script begins with no token that goes on with a statement. -/
theorem Tail.not_isLink (h : Tail ends fuel count statements c) : c.token.kind.isLink = false :=
  Bool.eq_false_iff.mpr fun hlink =>
    Bool.false_ne_true ((not_isIdle_of_readStatements h.reads).symm.trans
      (Kind.isIdle_of_isLink hlink))

theorem Tail.over (h : Tail ends fuel count statements c) :
    Tail ends fuel count statements { c with isOver := true } where
  reads := h.reads ▸ readStatements_congr rfl
  isWhole := h.isWhole
  isFresh := Bool.or_true _
  isApart _ := rfl

/-- Behind a semicolon the script goes on. -/
theorem Tail.behind (h : Tail ends fuel count statements c)
    (hsemicolon : c.token.kind = .mark ";") :
    ∃ t, c.behind = .ok t ∧ Tail ends fuel count statements { c.moveTo t with isOver := true } := by
  have hreads := h.reads
  cases count with
  | zero => cases hreads
  | succ count =>
      have hend : ¬ c.atEnd = true := by simp [Cursor.atEnd, hsemicolon]
      rw [readStatements, if_neg hend] at hreads
      obtain ⟨⟨statement, c₂⟩, hfirst, hrest⟩ := of_bind_ok hreads
      obtain ⟨t, hbehind, rfl, rfl⟩ :=
        Routine.of_run_semicolon (c := c.restart) hsemicolon hfirst
      obtain ⟨more, hmore, hlast⟩ := of_bind_ok hrest
      cases hlast
      refine ⟨t, hbehind, ?_, ?_, Bool.or_true _, fun _ => rfl⟩
      · have hsame : ∀ n, readStatements true fuel n { c.moveTo t with isOver := true } =
            readStatements true fuel n (c.restart.moveTo t) := fun n => readStatements_congr rfl
        rw [hsame]
        exact readStatements_mono (fun h => h) (Nat.le_refl fuel) (Nat.le_succ count) hmore
      · obtain ⟨-, hwhole, rfl⟩ := Cursor.behind_eq_ok_iff.mp hbehind
        exact hwhole

/-! ### Places on both sides -/

/-- Two places in scripts that differ in what stands behind the end of a line: before that end they
see the same token, and at it one sees the end of the text and the other one a script. -/
inductive Meets (s b : List Char) (tail : Cursor → Prop) : Cursor → Cursor → Prop
  | inside {script : List Char} {t t' : Token} {isOver : Bool} : t.Swaps s ('\n' :: b) t' →
      Meets s b tail ⟨script ++ s, t, isOver⟩ ⟨script ++ '\n' :: b, t', isOver⟩
  | atEnd {c d : Cursor} : c.atEnd = true → tail d → Meets s b tail c d

namespace Token.Swaps

variable {s s' script script' : List Char} {t t' u u' : Token} {isOver : Bool}

theorem kind_eq (h : t.Swaps s s' t') : t'.kind = t.kind := by cases h; rfl

theorem afterLineEnd_eq (h : t.Swaps s s' t') : t'.afterLineEnd = t.afterLineEnd := by cases h; rfl

theorem endsStatement_eq (h : t.Swaps s s' t') : t'.endsStatement = t.endsStatement := by
  cases h
  rfl

theorem misfit_eq (h : t.Swaps s s' t') (problem : Problem) :
    t'.misfit problem = t.misfit problem := by
  cases h
  rfl

theorem isSolid (h : t.Swaps s s' t') : t.kind.isSolid = true := by cases h; assumption

theorem atEnd_left (h : t.Swaps s s' t') (script : List Char) (isOver : Bool) :
    Cursor.atEnd ⟨script, t, isOver⟩ = false :=
  beq_eq_false_iff_ne.mpr (Kind.ne_endOfText_of_isSolid h.isSolid)

theorem atEnd_right (h : t.Swaps s s' t') (script : List Char) (isOver : Bool) :
    Cursor.atEnd ⟨script, t', isOver⟩ = false :=
  beq_eq_false_iff_ne.mpr (h.kind_eq ▸ Kind.ne_endOfText_of_isSolid h.isSolid)

theorem whole_eq (h : t.Swaps s s' t') : t'.whole = .ok t' :=
  Token.whole_eq_ok_iff.mpr ⟨h.kind_eq ▸ Kind.isBroken_of_isSolid h.isSolid, rfl⟩

theorem sightOf_eq (h : u.Swaps s s' u') (script : List Char) (isOver : Bool) :
    Cursor.sightOf ⟨script ++ s', t', isOver⟩ u' = Cursor.sightOf ⟨script ++ s, t, isOver⟩ u := by
  cases h
  simp [Cursor.sightOf, Nat.add_sub_add_right]

theorem sight_eq (h : t.Swaps s s' t') (script : List Char) (isOver : Bool) :
    Cursor.sight ⟨script ++ s', t', isOver⟩ = Cursor.sight ⟨script ++ s, t, isOver⟩ := by
  rw [Cursor.sight, Cursor.sight, sightOf_eq h, h.afterLineEnd_eq]

theorem goOn_eq (h : t.Swaps s s' t') (ends : Bool) (ending : Ending) (script : List Char)
    (isOver : Bool) :
    Cursor.goOn true ending ⟨script ++ s', t', isOver⟩ =
      Cursor.goOn ends ending ⟨script ++ s, t, isOver⟩ := by
  have hsight := h.sight_eq script isOver
  have hcontinuation : Cursor.continuation? ⟨script ++ s', t', isOver⟩ =
      Cursor.continuation? ⟨script ++ s, t, isOver⟩ := by
    rw [Cursor.continuation?, Cursor.continuation?, hsight]
  -- Away from the end of the text it does not matter whether that end ends an expression.
  have hends : Cursor.endsExpression true ending ⟨script ++ s', t', isOver⟩ =
      Cursor.endsExpression ends ending ⟨script ++ s, t, isOver⟩ := by
    rw [Cursor.endsExpression, Cursor.endsExpression, h.atEnd_left, h.atEnd_right,
      Cursor.endsStatement, Cursor.endsStatement, h.endsStatement_eq, Bool.not_false, Bool.or_true,
      Bool.or_true]
  rw [Cursor.goOn, Cursor.goOn, hends, hcontinuation, hsight, h.kind_eq, h.misfit_eq]

theorem statementEnds_eq (h : t.Swaps s s' t') (atEnd : Option Problem) (script : List Char)
    (isOver : Bool) :
    Cursor.statementEnds atEnd ⟨script ++ s', t', isOver⟩ =
      Cursor.statementEnds atEnd ⟨script ++ s, t, isOver⟩ := by
  rw [Cursor.statementEnds, Cursor.statementEnds, h.atEnd_left, h.atEnd_right, h.sight_eq,
    h.kind_eq, h.misfit_eq, Cursor.endsStatement, Cursor.endsStatement, h.endsStatement_eq]

end Token.Swaps

/-! ### Steps on both sides -/

section steps
variable {s b script : List Char} {t t' : Token} {isOver : Bool} {tail : Cursor → Prop}

/-- Behind the same token stands the same one on both sides, or the end of the text on the one side
and the script behind it on the other. -/
theorem exists_behind (hs : IsEnding s) (h : t.Swaps s ('\n' :: b) t')
    (hwhole : (Token.next b).kind.isBroken = false) {u : Token}
    (hu : Cursor.behind ⟨script ++ s, t, isOver⟩ = .ok u) :
    ∃ u', Cursor.behind ⟨script ++ '\n' :: b, t', isOver⟩ = .ok u' ∧
      (u.Swaps s ('\n' :: b) u' ∨
        u.kind = .endOfText ∧ u' = { Token.next b with afterLineEnd := true }) := by
  obtain ⟨-, hbroken, rfl⟩ := Cursor.behind_eq_ok_iff.mp hu
  have hend := h.atEnd_right (script ++ '\n' :: b) isOver
  cases h with
  | @mk kind text start stop line hkind hstart =>
      dsimp only at hbroken ⊢
      by_cases hkind : (Token.next (stop ++ s)).kind = .endOfText
      · have hnext := Token.next_of_endOfText hs hkind b
        refine ⟨_, ?_, .inr ⟨hkind, rfl⟩⟩
        rw [← hnext]
        exact Cursor.behind_eq_ok_iff.mpr ⟨hend, hnext ▸ hwhole, rfl⟩
      · have hswaps := Token.next_swaps hs (Kind.isSolid_of_ne_endOfText hbroken hkind) b
        refine ⟨_, ?_, .inl hswaps⟩
        exact Cursor.behind_eq_ok_iff.mpr
          ⟨hend, hswaps.kind_eq ▸ Kind.isBroken_of_isSolid hswaps.isSolid, rfl⟩

/-- The script behind the seam, as it is seen from the places in front of it. -/
def IsSeam (b : List Char) (tail : Cursor → Prop) : Prop :=
  ∀ script, tail ⟨script, { Token.next b with afterLineEnd := true }, false⟩

/-- What stands behind a token is the next token where the two sides move on. -/
theorem Meets.of_behind (hseam : IsSeam b (Tail ends fuel count statements)) {u u' : Token}
    (h : u.Swaps s ('\n' :: b) u' ∨
      u.kind = .endOfText ∧ u' = { Token.next b with afterLineEnd := true }) :
    Meets s b (Tail ends fuel count statements) ⟨script ++ s, u, isOver⟩
      ⟨script ++ '\n' :: b, u', isOver⟩ := by
  obtain hswaps | ⟨hend, rfl⟩ := h
  · exact .inside hswaps
  · refine .atEnd (beq_iff_eq.mpr hend) ?_
    cases isOver with
    | false => exact hseam _
    | true => exact (hseam _).over

/-- In front of the seam, steps find the same on both sides. -/
theorem Step.follows_inside (hs : IsEnding s) (hseam : IsSeam b (Tail ends fuel count statements))
    (h : t.Swaps s ('\n' :: b) t') {β : Type} (step : Step β) {found : β} {c' : Cursor}
    (hrun : step.run ends ⟨script ++ s, t, isOver⟩ = .ok (found, c')) :
    ∃ d', step.run true ⟨script ++ '\n' :: b, t', isOver⟩ = .ok (found, d') ∧
      Meets s b (Tail ends fuel count statements) c' d' := by
  have hwhole : (Token.next b).kind.isBroken = false := (hseam []).isWhole
  have hlink : (Token.next b).kind.isLink = false := (hseam []).not_isLink
  have hend := h.atEnd_left (script ++ s) isOver
  have hend' := h.atEnd_right (script ++ '\n' :: b) isOver
  cases step with
  | look problem =>
      rw [run, hend] at hrun
      rw [run, hend', h.sight_eq]
      cases hrun
      exact ⟨_, rfl, .inside h⟩
  | lookOperand =>
      rw [run, hend, if_neg Bool.false_ne_true] at hrun
      rw [run, hend', if_neg Bool.false_ne_true]
      obtain ⟨u, hu, hdone⟩ := of_bind_ok hrun
      obtain ⟨hbroken, rfl⟩ := Token.whole_eq_ok_iff.mp hu
      have hoperand := h.asOperand hs hbroken
      cases hdone
      refine ⟨⟨script ++ '\n' :: b, t'.asOperand, false⟩, ?_, .inside hoperand⟩
      rw [hoperand.whole_eq]
      exact congrArg Except.ok (Prod.ext (hoperand.sight_eq script false) rfl)
  | nextIs kind link =>
      cases hrun
      exact ⟨_, by rw [run, h.kind_eq], .inside h⟩
  | lookBehind problem =>
      obtain ⟨u, hu, hdone⟩ := of_bind_ok hrun
      obtain ⟨u', hu', hswaps | ⟨hkind, rfl⟩⟩ := exists_behind hs h hwhole hu
      · have hsolid := Kind.ne_endOfText_of_isSolid hswaps.isSolid
        rw [if_neg hsolid] at hdone
        cases hdone
        refine ⟨_, ?_, .inside h⟩
        rw [run, hu']
        exact (if_neg (hswaps.kind_eq ▸ hsolid)).trans (by rw [hswaps.sightOf_eq])
      · rw [if_pos hkind] at hdone
        cases hdone
  | behindIs kind link =>
      obtain ⟨u, hu, hdone⟩ := of_bind_ok hrun
      obtain ⟨u', hu', hmove⟩ := exists_behind hs h hwhole hu
      have hsame : (u'.kind == kind) = (u.kind == kind) := by
        obtain hswaps | ⟨hkind, rfl⟩ := hmove
        · rw [hswaps.kind_eq]
        · have hother : ((Token.next b).kind == kind) = false := Kind.beq_of_isLink hlink link
          have hend : (Kind.endOfText == kind) = false := Kind.beq_of_isLink rfl link
          rw [hkind, hend, hother]
      cases hdone
      refine ⟨_, ?_, .inside h⟩
      rw [run, hu', ← hsame]
      rfl
  | lookBeside =>
      obtain ⟨u, hu, hdone⟩ := of_bind_ok hrun
      cases hdone
      obtain ⟨u', hu', hswaps | ⟨hkind, rfl⟩⟩ := exists_behind hs h hwhole hu
      · refine ⟨_, ?_, .inside h⟩
        rw [run, hu', ← hswaps.kind_eq, ← hswaps.afterLineEnd_eq, ← hswaps.sightOf_eq]
        rfl
      · refine ⟨_, ?_, .inside h⟩
        rw [run, hu', if_neg fun hbeside => hbeside.1 hkind]
        have hline : ¬ (true : Bool) = false := fun h => Bool.false_ne_true h.symm
        exact congrArg Except.ok (Prod.ext (if_neg fun hbeside => hline hbeside.2) rfl)
  | skip =>
      obtain ⟨u, hu, hdone⟩ := of_bind_ok hrun
      cases hdone
      obtain ⟨u', hu', hmove⟩ := exists_behind hs h hwhole hu
      refine ⟨_, ?_, .of_behind hseam hmove⟩
      rw [run, hu']
      rfl
  | skipToPart =>
      rw [run, hend, if_neg Bool.false_ne_true] at hrun
      rw [run, hend', if_neg Bool.false_ne_true]
      obtain ⟨u, hu, hdone⟩ := of_bind_ok hrun
      obtain ⟨hbroken, rfl⟩ := Token.whole_eq_ok_iff.mp hu
      cases hdone
      cases h with
      | mk hkind hstart =>
          have hpart := Token.nextPart_swaps hs hbroken b
          refine ⟨_, ?_, .inside hpart⟩
          rw [hpart.whole_eq]
          rfl
  | goOn ending =>
      obtain ⟨seen, hseen, hdone⟩ := of_bind_ok hrun
      cases hdone
      refine ⟨_, ?_, .inside h⟩
      rw [run, h.goOn_eq ends, hseen]
      rfl
  | statementEnds atEnd =>
      obtain ⟨seen, hseen, hdone⟩ := of_bind_ok hrun
      cases hdone
      refine ⟨_, ?_, .inside h⟩
      rw [run, h.statementEnds_eq, hseen]
      rfl
  | endStatement otherwise =>
      rw [run] at hrun ⊢
      rw [h.kind_eq]
      by_cases hsemicolon : t.kind = .mark ";"
      · rw [if_pos hsemicolon] at hrun ⊢
        obtain ⟨u, hu, hdone⟩ := of_bind_ok hrun
        cases hdone
        obtain ⟨u', hu', hmove⟩ := exists_behind hs h hwhole hu
        refine ⟨_, ?_, .of_behind hseam hmove⟩
        rw [hu']
        rfl
      · rw [if_neg hsemicolon] at hrun ⊢
        obtain ⟨c₂, hc₂, hdone⟩ := of_bind_ok hrun
        obtain ⟨hfree, rfl⟩ := Cursor.endHere_eq_ok_iff.mp hc₂
        rw [← h.sight_eq] at hfree
        cases hdone
        refine ⟨_, ?_, .inside h⟩
        rw [Cursor.endHere_eq_ok_iff.mpr ⟨hfree, rfl⟩]
        rfl

theorem Cursor.behind_ne_ok_of_atEnd (h : c.atEnd = true) (t : Token) : c.behind ≠ .ok t :=
  fun hbehind => Bool.false_ne_true ((behind_eq_ok_iff.mp hbehind).1.symm.trans h)

/-- Behind the end of a statement, or on a line of its own, a script may begin. -/
theorem Tail.endsStatement (h : Tail ends fuel count statements d) : d.endsStatement = true := by
  have hfresh := h.isFresh
  have hwhole := h.isWhole
  change (d.token.afterLineEnd || d.isOver) = true at hfresh
  rw [Cursor.endsStatement]
  cases hover : d.isOver with
  | true => rfl
  | false =>
      rw [hover, Bool.or_false] at hfresh
      rw [Bool.false_or]
      unfold Token.endsStatement
      split
      case h_1 why heq =>
        rw [heq] at hwhole
        cases hwhole
      case h_4 => exact hfresh
      all_goals rfl

/-- At the end of the text, an expression may go on on the other side, but no step finds it to. -/
theorem Cursor.goOn_of_atEnd (h : c.atEnd = true) (htail : Tail ends fuel count statements d)
    {ending : Ending} {found : Option (Sight × Continuation)}
    (hrun : c.goOn ends ending = .ok found) :
    found = none ∧ d.goOn true ending = .ok none := by
  have hkind : c.token.kind = .endOfText := beq_iff_eq.mp h
  have hcontinuation : c.continuation? = none := by
    unfold continuation?
    split
    · rfl
    · simp [Sight.continuation?, Cursor.sight, Cursor.sightOf, hkind, Operator.ofKind?]
  have hstop : ending.stopsAt c.token.kind = false := by rw [hkind]; rfl
  rw [goOn, hstop, if_neg Bool.false_ne_true, hcontinuation] at hrun
  dsimp only at hrun
  split at hrun
  case isFalse => cases hrun
  case isTrue hends =>
    cases hrun
    refine ⟨rfl, ?_⟩
    rw [endsExpression, h, Bool.not_true, Bool.or_false, Bool.and_eq_true, Bool.and_eq_true]
      at hends
    have hends' : d.endsExpression true ending = true := by
      rw [endsExpression, hends.1.1, htail.endsStatement]
      rfl
    rw [goOn, htail.isApart hends.2, hends']
    split <;> rfl

/-- At the end of the text, steps find the same as in front of the script on the other side. -/
theorem Step.follows_atEnd (h : c.atEnd = true) (htail : Tail ends fuel count statements d)
    {β : Type} (step : Step β) {found : β} {c' : Cursor}
    (hrun : step.run ends c = .ok (found, c')) :
    ∃ d', step.run true d = .ok (found, d') ∧
      Meets s b (Tail ends fuel count statements) c' d' := by
  have hkind : c.token.kind = .endOfText := beq_iff_eq.mp h
  cases step with
  | look problem | lookOperand | skipToPart =>
      rw [run, if_pos h] at hrun
      cases hrun
  | lookBehind problem | behindIs kind link | lookBeside | skip =>
      obtain ⟨t, hbehind, -⟩ := of_bind_ok hrun
      exact absurd hbehind (Cursor.behind_ne_ok_of_atEnd h t)
  | nextIs kind link =>
      cases hrun
      refine ⟨d, ?_, .atEnd h htail⟩
      have hend : (Kind.endOfText == kind) = false := Kind.beq_of_isLink rfl link
      rw [run, hkind, hend, Kind.beq_of_isLink htail.not_isLink link]
  | goOn ending =>
      obtain ⟨seen, hseen, hdone⟩ := of_bind_ok hrun
      obtain ⟨rfl, hgoes⟩ := Cursor.goOn_of_atEnd h htail hseen
      cases hdone
      refine ⟨d, ?_, .atEnd h htail⟩
      rw [run, hgoes]
      rfl
  | statementEnds atEnd =>
      obtain ⟨seen, hseen, hdone⟩ := of_bind_ok hrun
      have hfresh : d.sight.afterLineEnd = true := htail.isFresh
      have hdown : d.statementEnds atEnd = .ok true := by
        rw [Cursor.statementEnds, hfresh, htail.endsStatement, Bool.not_true, Bool.and_false,
          Bool.or_true]
        rfl
      have hseen' : seen = true := by
        rw [Cursor.statementEnds] at hseen
        split at hseen
        · cases hseen
        · cases hseen
          simp [Cursor.endsStatement, Token.endsStatement, hkind]
      cases hdone
      refine ⟨d, ?_, .atEnd h htail⟩
      rw [run, hdown, hseen']
      rfl
  | endStatement otherwise =>
      have hother : c.token.kind ≠ .mark ";" := by simp [hkind]
      rw [run, if_neg hother] at hrun
      obtain ⟨c₂, hc₂, hdone⟩ := of_bind_ok hrun
      obtain ⟨-, rfl⟩ := Cursor.endHere_eq_ok_iff.mp hc₂
      cases hdone
      have hend : Cursor.atEnd { c with isOver := true } = true := h
      rw [run]
      by_cases hsemicolon : d.token.kind = .mark ";"
      · obtain ⟨t, ht, htail'⟩ := htail.behind hsemicolon
        refine ⟨_, ?_, .atEnd hend htail'⟩
        rw [if_pos hsemicolon, ht]
        rfl
      · refine ⟨_, ?_, .atEnd hend htail.over⟩
        rw [if_neg hsemicolon, Cursor.endHere_eq_ok_iff.mpr ⟨?_, rfl⟩]
        · rfl
        · rw [htail.isFresh, Bool.or_true]

/-- Steps find the same on both sides of a seam. -/
theorem kept_meets (hs : IsEnding s) (hseam : IsSeam b (Tail ends fuel count statements)) :
    Kept (Meets s b (Tail ends fuel count statements)) ends true := by
  intro β step c d hmeets found c' hrun
  cases hmeets with
  | inside hswaps => exact step.follows_inside hs hseam hswaps hrun
  | atEnd hend htail => exact step.follows_atEnd hend htail hrun

end steps

end Script
end AssetPress
