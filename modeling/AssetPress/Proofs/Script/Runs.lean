import AssetPress.Proofs.Results
import AssetPress.Script.Reader

/-!
# Runs side by side

One run follows another along a relation of places if it finds whatever the other one finds, and
they end at related places (`Follows`).  A relation that every step keeps is kept by every reading,
and so by every part of the grammar (`Routine.run_follows`), also where one of the runs has a larger
bound.  Main statement: `readStatements_mono`, by which a script that is read within some bounds is
read as the same statements within larger ones.
-/

namespace AssetPress
namespace Script

variable {R : Cursor → Cursor → Prop} {ends ends' : Bool}

/-- From related places, the second run finds what the first one finds, and they end at related
places. -/
def Follows (R : Cursor → Cursor → Prop) {β : Type} (f g : Cursor → Except Fault (β × Cursor)) :
    Prop :=
  ∀ ⦃c d⦄, R c d → ∀ ⦃found c'⦄, f c = .ok (found, c') → ∃ d', g d = .ok (found, d') ∧ R c' d'

/-- Steps keep a relation of places. -/
def Kept (R : Cursor → Cursor → Prop) (ends ends' : Bool) : Prop :=
  ∀ ⦃β : Type⦄ (s : Step β), Follows R (s.run ends) (s.run ends')

theorem Reading.run_follows (hkept : Kept R ends ends')
    {answer answer' : {β : Type} → Routine β → Cursor → Except Fault (β × Cursor)}
    (hcall : ∀ {β : Type} (r : Routine β), Follows R (answer r) (answer' r)) {α : Type}
    (x : Reading α) : Follows R (x.run ends answer) (x.run ends' answer') := by
  induction x with
  | done value =>
      intro c d h found c' hrun
      cases hrun
      exact ⟨d, rfl, h⟩
  | fail problem token place =>
      intro c d h found c' hrun
      cases hrun
  | step s next ih =>
      intro c d h found c' hrun
      obtain ⟨⟨seen, c₂⟩, hstep, hnext⟩ := of_bind_ok hrun
      obtain ⟨d₂, hstep', h₂⟩ := hkept s h hstep
      obtain ⟨d', hnext', h'⟩ := ih seen h₂ hnext
      refine ⟨d', ?_, h'⟩
      rw [run, hstep']
      exact hnext'
  | call r next ih =>
      intro c d h found c' hrun
      obtain ⟨⟨seen, c₂⟩, hanswer, hnext⟩ := of_bind_ok hrun
      obtain ⟨d₂, hanswer', h₂⟩ := hcall r h hanswer
      obtain ⟨d', hnext', h'⟩ := ih seen h₂ hnext
      refine ⟨d', ?_, h'⟩
      rw [run, hanswer']
      exact hnext'

theorem Routine.run_follows (hkept : Kept R ends ends') {n m : Nat} (hnm : n ≤ m) {β : Type}
    (r : Routine β) : Follows R (r.run ends n) (r.run ends' m) := by
  induction n generalizing m β with
  | zero =>
      intro c d h found c' hrun
      cases hrun
  | succ n ih =>
      obtain ⟨m, rfl⟩ : ∃ k, m = k + 1 := ⟨m - 1, by omega⟩
      have hcall : ∀ {β : Type} (r : Routine β), Follows R (r.run ends n) (r.run ends' m) :=
        fun r => ih (by omega) r
      exact Reading.run_follows hkept hcall (.ofRoutine r)

/-! ### Larger bounds -/

theorem Cursor.endsExpression_mono (hends : ends = true → ends' = true) {ending : Ending}
    {c : Cursor} (h : c.endsExpression ends ending = true) :
    c.endsExpression ends' ending = true := by
  unfold endsExpression at h ⊢
  cases ends <;> cases ends' <;> simp_all

theorem Cursor.goOn_mono (hends : ends = true → ends' = true) {ending : Ending} {c : Cursor}
    {found : Option (Sight × Continuation)} (h : c.goOn ends ending = .ok found) :
    c.goOn ends' ending = .ok found := by
  unfold goOn at h ⊢
  by_cases hstop : ending.stopsAt c.token.kind = true
  · rwa [if_pos hstop] at h ⊢
  rw [if_neg hstop] at h ⊢
  cases hcontinuation : c.continuation? with
  | some continuation => simpa only [hcontinuation] using h
  | none =>
      simp only [hcontinuation] at h ⊢
      split at h
      case isTrue hend => rwa [if_pos (endsExpression_mono hends hend)]
      case isFalse => cases h

/-- A step that succeeds where the end of the text ends no expression succeeds where it does. -/
theorem kept_eq (hends : ends = true → ends' = true) : Kept Eq ends ends' := by
  rintro β s c _ rfl found c' hrun
  refine ⟨c', ?_, rfl⟩
  cases s with
  | goOn ending =>
      obtain ⟨seen, hseen, hdone⟩ := of_bind_ok hrun
      rw [Step.run, Cursor.goOn_mono hends hseen]
      exact hdone
  | _ => exact hrun

/-- A script that is read within some bounds is read as the same statements within larger ones. -/
theorem readStatements_mono (hends : ends = true → ends' = true) {fuel fuel' n m : Nat}
    (hfuel : fuel ≤ fuel') (hnm : n ≤ m) {c : Cursor} {statements : List Statement}
    (h : readStatements ends fuel n c = .ok statements) :
    readStatements ends' fuel' m c = .ok statements := by
  induction n generalizing m c statements with
  | zero => cases h
  | succ n ih =>
      obtain ⟨m, rfl⟩ : ∃ k, m = k + 1 := ⟨m - 1, by omega⟩
      rw [readStatements] at h ⊢
      by_cases hend : c.atEnd = true
      · rwa [if_pos hend] at h ⊢
      rw [if_neg hend] at h ⊢
      obtain ⟨⟨statement, c₂⟩, hfirst, hrest⟩ := of_bind_ok h
      obtain ⟨more, hmore, hlast⟩ := of_bind_ok hrest
      obtain ⟨_, hfirst', rfl⟩ := Routine.run_follows (kept_eq hends) hfuel .statement rfl hfirst
      have hmore' := ih (show n ≤ m by omega) hmore
      rw [hfirst']
      show (readStatements ends' fuel' m c₂ >>= _) = _
      rw [hmore']
      exact hlast

end Script
end AssetPress
