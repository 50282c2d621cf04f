import AssetPress.Path

/-!
# Performing tasks

A *task* changes a state and may fail; a failed task keeps the state it has reached.  `perform`
says what a task answers and which state it leaves, with one law for each way in which tasks are
put together.  What came before an answer is found by `of_perform_bind_ok` and
`of_perform_bind_error`.
-/

namespace AssetPress

variable {σ ε ε' α β : Type}

/-- What a task answers, started in state `s`, and the state that it leaves. -/
def perform (s : σ) (x : ExceptT ε (StateM σ) α) : Except ε α × σ := x.run.run s

instance decidableEqExcept [DecidableEq ε] [DecidableEq α] : DecidableEq (Except ε α)
  | .ok a, .ok b => decidable_of_iff (a = b) (by simp)
  | .error e, .error e' => decidable_of_iff (e = e') (by simp)
  | .ok _, .error _ => .isFalse nofun
  | .error _, .ok _ => .isFalse nofun

/-! ### One law for each combination -/

@[simp] theorem perform_pure (s : σ) (a : α) :
    perform s (pure a : ExceptT ε (StateM σ) α) = (.ok a, s) := rfl

@[simp] theorem perform_throw (s : σ) (e : ε) :
    perform s (throw e : ExceptT ε (StateM σ) α) = (.error e, s) := rfl

@[simp] theorem perform_mk_pure (s : σ) (r : Except ε α) :
    perform s (ExceptT.mk (pure r)) = (r, s) := rfl

@[simp] theorem perform_lift (s : σ) (x : StateM σ α) :
    perform s (liftM x : ExceptT ε (StateM σ) α) = (.ok (x s).1, (x s).2) := rfl

theorem perform_bind (s : σ) (x : ExceptT ε (StateM σ) α) (f : α → ExceptT ε (StateM σ) β) :
    perform s (x >>= f) =
      match perform s x with
      | (.ok a, s') => perform s' (f a)
      | (.error e, s') => (.error e, s') := by
  show (ExceptT.bindCont f (x s).1 : StateM σ (Except ε β)) (x s).2 = _
  rcases hx : x s with ⟨r, s'⟩
  rw [show perform s x = (r, s') from hx]
  cases r <;> rfl

theorem perform_adapt (s : σ) (f : ε → ε') (x : ExceptT ε (StateM σ) α) :
    perform s (x.adapt f) = ((perform s x).1.mapError f, (perform s x).2) := rfl

theorem perform_tryCatch (s : σ) (x : ExceptT ε (StateM σ) α) (f : ε → ExceptT ε (StateM σ) α) :
    perform s (tryCatch x f) =
      match perform s x with
      | (.ok a, s') => (.ok a, s')
      | (.error e, s') => perform s' (f e) := by
  rcases hx : x s with ⟨r, s'⟩
  rw [show perform s x = (r, s') from hx]
  show (match (x s).1 with
    | .ok a => pure (.ok a)
    | .error e => f e : StateM σ (Except ε α)) (x s).2 = _
  rw [hx]
  cases r <;> rfl

/-! ### What came before an answer -/

theorem of_perform_adapt_ok {s s' : σ} {f : ε → ε'} {x : ExceptT ε (StateM σ) α} {a : α}
    (h : perform s (x.adapt f) = (.ok a, s')) : perform s x = (.ok a, s') := by
  rw [perform_adapt] at h
  rcases hx : perform s x with ⟨r, m⟩
  rw [hx] at h
  cases r with
  | error e => cases h
  | ok b =>
      cases h
      rfl

theorem of_perform_adapt_error {s s' : σ} {f : ε → ε'} {x : ExceptT ε (StateM σ) α} {e : ε'}
    (h : perform s (x.adapt f) = (.error e, s')) :
    ∃ why, e = f why ∧ perform s x = (.error why, s') := by
  rw [perform_adapt] at h
  rcases hx : perform s x with ⟨r, m⟩
  rw [hx] at h
  cases r with
  | error why =>
      cases h
      exact ⟨why, rfl, rfl⟩
  | ok b => cases h

theorem of_perform_bind_ok {s s' : σ} {x : ExceptT ε (StateM σ) α}
    {f : α → ExceptT ε (StateM σ) β} {b : β} (h : perform s (x >>= f) = (.ok b, s')) :
    ∃ a m, perform s x = (.ok a, m) ∧ perform m (f a) = (.ok b, s') := by
  rw [perform_bind] at h
  rcases hx : perform s x with ⟨r, m⟩
  rw [hx] at h
  cases r with
  | error e => cases h
  | ok a => exact ⟨a, m, rfl, h⟩

theorem of_perform_bind_error {s s' : σ} {x : ExceptT ε (StateM σ) α}
    {f : α → ExceptT ε (StateM σ) β} {e : ε} (h : perform s (x >>= f) = (.error e, s')) :
    perform s x = (.error e, s') ∨
      ∃ a m, perform s x = (.ok a, m) ∧ perform m (f a) = (.error e, s') := by
  rw [perform_bind] at h
  rcases hx : perform s x with ⟨r, m⟩
  rw [hx] at h
  cases r with
  | error e' =>
      cases h
      exact Or.inl rfl
  | ok a => exact Or.inr ⟨a, m, rfl, h⟩

end AssetPress
