import AssetPress.Proofs.Results
import AssetPress.Proofs.Script.LineEnd
import AssetPress.Script.Reader

/-!
# What readings find

Tokens are written with some characters, and so is what a step sees of them (`Step.Finds`).  What a
reading finds is told by what its steps find and by what the routines that it calls promise
(`Reading.Yields`).  Main statement: `Routine.keeps_promise`, so that routines keep their promises
if the reading of each of them does as long as all others do.
-/

namespace AssetPress
namespace Script

/-! ### Tokens -/

/-- A token is written with some characters, unless it is the end of the text or a broken one. -/
def Lexeme.IsSound (l : Lexeme) : Prop := l.kind.isSolid = true → l.text ≠ []

theorem Lexeme.isSound_first (operand : Bool) (text : List Char) :
    (first operand text).IsSound := by
  cases text with
  | nil => exact fun h => nomatch h
  | cons c rest => exact (isProper_first operand c rest).text_ne_nil

theorem Token.isSound_next (text : List Char) : (next text).toLexeme.IsSound := by
  unfold next
  split
  · exact Lexeme.isSound_first false _
  · exact fun h => nomatch h

theorem Token.isSound_nextPart (text : List Char) : (nextPart text).toLexeme.IsSound :=
  (Lexeme.isProper_template [] false false text).text_ne_nil

theorem Token.isSound_asOperand {t : Token} (h : t.toLexeme.IsSound) :
    t.asOperand.toLexeme.IsSound := by
  unfold asOperand
  split
  · exact Lexeme.isSound_first true _
  · exact h

/-- What is seen of a token that is written with some characters. -/
def Sight.IsSound (t : Sight) : Prop := t.kind.isSolid = true → t.text ≠ []

/-! ### Steps -/

def Step.Finds : {β : Type} → Step β → β → Prop
  | _, .look _, t => t.IsSound
  | _, .lookOperand, t => t.IsSound
  | _, .goOn _, found =>
      ∀ t continuation, found = some (t, continuation) →
        t.IsSound ∧ t.continuation? = some continuation
  | _, _, _ => True

theorem Cursor.finds_of_goOn {ends : Bool} {ending : Ending} {c : Cursor} {t : Sight}
    {continuation : Continuation} (hc : c.token.toLexeme.IsSound)
    (h : c.goOn ends ending = .ok (some (t, continuation))) :
    t.IsSound ∧ t.continuation? = some continuation := by
  unfold goOn at h
  split at h
  · cases h
  split at h
  case h_1 continuation' hcontinuation =>
    cases h
    rw [continuation?] at hcontinuation
    split at hcontinuation
    · cases hcontinuation
    · exact ⟨hc, hcontinuation⟩
  case h_2 => split at h <;> cases h

theorem Step.finds {ends : Bool} {β : Type} (step : Step β) {c c' : Cursor} {found : β}
    (hc : c.token.toLexeme.IsSound) (h : step.run ends c = .ok (found, c')) :
    step.Finds found ∧ c'.token.toLexeme.IsSound := by
  have hbehind : ∀ {t : Token}, c.behind = .ok t → t.toLexeme.IsSound := by
    intro t ht
    obtain ⟨-, -, rfl⟩ := Cursor.behind_eq_ok_iff.mp ht
    exact Token.isSound_next _
  cases step with
  | look problem =>
      rw [run] at h
      split at h <;> cases h
      exact ⟨hc, hc⟩
  | lookOperand =>
      rw [run] at h
      split at h
      · cases h
      · obtain ⟨t, ht, hdone⟩ := of_bind_ok h
        obtain ⟨-, rfl⟩ := Token.whole_eq_ok_iff.mp ht
        cases hdone
        exact ⟨Token.isSound_asOperand hc, Token.isSound_asOperand hc⟩
  | nextIs kind link =>
      cases h
      exact ⟨trivial, hc⟩
  | lookBehind problem =>
      obtain ⟨t, -, hdone⟩ := of_bind_ok h
      split at hdone <;> cases hdone
      exact ⟨trivial, hc⟩
  | behindIs kind link =>
      obtain ⟨t, -, hdone⟩ := of_bind_ok h
      cases hdone
      exact ⟨trivial, hc⟩
  | lookBeside =>
      obtain ⟨t, -, hdone⟩ := of_bind_ok h
      cases hdone
      exact ⟨trivial, hc⟩
  | skip =>
      obtain ⟨t, ht, hdone⟩ := of_bind_ok h
      cases hdone
      exact ⟨trivial, hbehind ht⟩
  | skipToPart =>
      rw [run] at h
      split at h
      · cases h
      · obtain ⟨t, ht, hdone⟩ := of_bind_ok h
        obtain ⟨-, rfl⟩ := Token.whole_eq_ok_iff.mp ht
        cases hdone
        exact ⟨trivial, Token.isSound_nextPart _⟩
  | goOn ending =>
      obtain ⟨seen, hseen, hdone⟩ := of_bind_ok h
      cases hdone
      exact ⟨fun t continuation heq => Cursor.finds_of_goOn hc (heq ▸ hseen), hc⟩
  | statementEnds atEnd =>
      obtain ⟨seen, -, hdone⟩ := of_bind_ok h
      cases hdone
      exact ⟨trivial, hc⟩
  | endStatement otherwise =>
      rw [run] at h
      split at h
      · obtain ⟨t, ht, hdone⟩ := of_bind_ok h
        cases hdone
        exact ⟨trivial, hbehind ht⟩
      · obtain ⟨c₂, hc₂, hdone⟩ := of_bind_ok h
        cases hdone
        obtain ⟨-, rfl⟩ := Cursor.endHere_eq_ok_iff.mp hc₂
        exact ⟨trivial, hc⟩

/-! ### Readings -/

/-- What the routines find. -/
abbrev Promise := {β : Type} → Routine β → β → Prop

namespace Reading

variable {promise : Promise} {α β : Type} {post : α → Prop}

/-- What a reading finds, as far as its steps and the promises of routines tell. -/
def Yields (promise : Promise) (post : α → Prop) : Reading α → Prop
  | done value => post value
  | fail _ _ _ => True
  | step s next => ∀ found, s.Finds found → (next found).Yields promise post
  | call r next => ∀ found, promise r found → (next found).Yields promise post

theorem Yields.of_forall (h : ∀ value, post value) (x : Reading α) : x.Yields promise post := by
  induction x with
  | done value => exact h value
  | fail problem token place => trivial
  | step s next ih => exact fun found _ => ih found
  | call r next ih => exact fun found _ => ih found

theorem Yields.bind {middle : β → Prop} {x : Reading β} {f : β → Reading α}
    (hx : x.Yields promise middle) (hf : ∀ value, middle value → (f value).Yields promise post) :
    (x >>= f).Yields promise post := by
  induction x with
  | done value => exact hf value hx
  | fail problem token place => trivial
  | step s next ih => exact fun found hfound => ih found (hx found hfound)
  | call r next ih => exact fun found hfound => ih found (hx found hfound)

/-- What has been found before may not matter. -/
theorem Yields.after {x : Reading β} {f : β → Reading α}
    (hf : ∀ value, (f value).Yields promise post) : (x >>= f).Yields promise post :=
  .bind (.of_forall (fun _ => trivial) x : x.Yields promise fun _ => True) fun value _ => hf value

theorem Yields.of_run {ends : Bool}
    {answer : {β : Type} → Routine β → Cursor → Except Fault (β × Cursor)}
    (hanswer : ∀ {β : Type} (r : Routine β) {c c' : Cursor} {found : β},
      c.token.toLexeme.IsSound → answer r c = .ok (found, c') →
        promise r found ∧ c'.token.toLexeme.IsSound)
    {x : Reading α} (hx : x.Yields promise post) {c c' : Cursor} {value : α}
    (hc : c.token.toLexeme.IsSound) (h : x.run ends answer c = .ok (value, c')) :
    post value ∧ c'.token.toLexeme.IsSound := by
  induction x generalizing c with
  | done value =>
      cases h
      exact ⟨hx, hc⟩
  | fail problem token place => cases h
  | step s next ih =>
      obtain ⟨⟨found, c₂⟩, hstep, hnext⟩ := of_bind_ok h
      obtain ⟨hfound, hc₂⟩ := s.finds hc hstep
      exact ih found (hx found hfound) hc₂ hnext
  | call r next ih =>
      obtain ⟨⟨found, c₂⟩, hcall, hnext⟩ := of_bind_ok h
      obtain ⟨hfound, hc₂⟩ := hanswer r hc hcall
      exact ih found (hx found hfound) hc₂ hnext

end Reading

/-- Routines keep their promises if the reading of each does as long as the others do. -/
theorem Routine.keeps_promise {promise : Promise}
    (hall : ∀ {β : Type} (r : Routine β), (Reading.ofRoutine r).Yields promise (promise r))
    {ends : Bool} {fuel : Nat} {β : Type} (r : Routine β) {c c' : Cursor} {found : β}
    (hc : c.token.toLexeme.IsSound) (h : r.run ends fuel c = .ok (found, c')) :
    promise r found ∧ c'.token.toLexeme.IsSound := by
  induction fuel generalizing β c c' with
  | zero => cases h
  | succ fuel ih => exact (hall r).of_run (fun r _ _ _ hc h => ih r hc h) hc h

end Script
end AssetPress
