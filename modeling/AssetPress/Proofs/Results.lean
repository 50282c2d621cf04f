/-!
# Results

What can be said of tasks that fail or succeed: of one after another, and of one that goes through a
list.
-/

namespace AssetPress

/-! ### One task after another -/

theorem of_bind_ok {ε α β : Type} {x : Except ε α} {f : α → Except ε β} {b : β}
    (h : x >>= f = .ok b) : ∃ a, x = .ok a ∧ f a = .ok b := by
  cases x with
  | error e => cases h
  | ok a => exact ⟨a, rfl, h⟩

/-- Of two steps the first one that fails decides. -/
theorem bind_eq_error_iff {α β ε : Type} {x : Except ε α} {f : α → Except ε β} {e : ε} :
    x >>= f = .error e ↔ x = .error e ∨ ∃ a, x = .ok a ∧ f a = .error e := by
  cases x <;> simp [bind, Except.bind]

/-! ### Going through a list -/

/-- The first member on which a task fails is what going through a list fails with. -/
theorem mapM_eq_error_iff {α β ε : Type} {f : α → Except ε β} {xs : List α} {e : ε} :
    xs.mapM f = .error e ↔ ∃ before x after, xs = before ++ x :: after ∧
      (∀ y ∈ before, ∃ b, f y = .ok b) ∧ f x = .error e := by
  induction xs with
  | nil => simp [pure, Except.pure]
  | cons x rest ih =>
      have hpure : ∀ b, (rest.mapM f >>= fun ys => pure (b :: ys)) = .error e ↔
          rest.mapM f = .error e := fun b => by simp [bind_eq_error_iff, pure, Except.pure]
      rw [List.mapM_cons, bind_eq_error_iff]
      simp only [hpure, ih, List.cons_eq_append_iff]
      constructor
      · rintro (hx | ⟨b, hx, before, y, after, rfl, hbefore, hy⟩)
        · exact ⟨[], x, rest, Or.inl ⟨rfl, rfl⟩, nofun, hx⟩
        · refine ⟨x :: before, y, after, Or.inr ⟨before, rfl, rfl⟩, ?_, hy⟩
          exact List.forall_mem_cons.mpr ⟨⟨b, hx⟩, hbefore⟩
      · rintro ⟨_, y, after, ⟨rfl, hsplit⟩ | ⟨before, rfl, rfl⟩, hbefore, hy⟩
        · obtain ⟨rfl, -⟩ := List.cons.inj hsplit
          exact Or.inl hy
        · obtain ⟨⟨b, hx⟩, hbefore⟩ := List.forall_mem_cons.mp hbefore
          exact Or.inr ⟨b, hx, before, y, after, rfl, hbefore, hy⟩

/-- What is read through a list, member by member. -/
theorem map_eq_map_of_mapM_ok {α β γ ε : Type} {f : α → Except ε β} {g : α → γ} {k : β → γ}
    (hfg : ∀ x y, f x = .ok y → g x = k y) {xs : List α} {ys : List β} (h : xs.mapM f = .ok ys) :
    xs.map g = ys.map k := by
  induction xs generalizing ys with
  | nil =>
      rw [List.mapM_nil] at h
      cases h
      rfl
  | cons x rest ih =>
      rw [List.mapM_cons] at h
      cases hx : f x with
      | error e =>
          rw [hx] at h
          cases h
      | ok y =>
          cases hrest : rest.mapM f with
          | error e =>
              rw [hx, hrest] at h
              cases h
          | ok more =>
              rw [hx, hrest] at h
              cases h
              rw [List.map_cons, List.map_cons, hfg x y hx, ih hrest]

/-- What members are known to give is what going through the list gives. -/
theorem mapM_ok_of_map_eq {α β γ δ ε : Type} {f : α → Except ε β} {g : α → Except δ γ} {k : β → γ}
    (hfg : ∀ x y, g x = .ok (k y) → f x = .ok y) {xs : List α} {ys : List β}
    (h : xs.map g = (ys.map k).map .ok) : xs.mapM f = .ok ys := by
  induction xs generalizing ys with
  | nil =>
      cases ys with
      | nil => rfl
      | cons y more => cases h
  | cons x rest ih =>
      cases ys with
      | nil => cases h
      | cons y more =>
          obtain ⟨hx, hrest⟩ := List.cons.inj h
          rw [List.mapM_cons, hfg x y hx, ih hrest]
          rfl

theorem mapM_congr_of_mem {α β ε : Type} {f g : α → Except ε β} {xs : List α}
    (h : ∀ x ∈ xs, f x = g x) : xs.mapM f = xs.mapM g := by
  induction xs with
  | nil => rfl
  | cons x rest ih =>
      rw [List.mapM_cons, List.mapM_cons, h x (.head _), ih fun y hy => h y (.tail _ hy)]

/-- A reading through a list that succeeds is the same with any reader that succeeds where the first
one does, and fails in ways of its own elsewhere. -/
theorem mapM_eq_ok_of_refines {α β ε ε' : Type} {f : α → Except ε β} {f' : α → Except ε' β}
    (h : ∀ x y, f x = .ok y → f' x = .ok y) {xs : List α} {ys : List β}
    (hxs : xs.mapM f = .ok ys) : xs.mapM f' = .ok ys := by
  induction xs generalizing ys with
  | nil =>
      cases hxs
      rfl
  | cons x more ih =>
      rw [List.mapM_cons] at hxs ⊢
      cases hx : f x with
      | error e =>
          rw [hx] at hxs
          cases hxs
      | ok y =>
          cases hmore : more.mapM f with
          | error e =>
              rw [hx, hmore] at hxs
              cases hxs
          | ok zs =>
              rw [hx, hmore] at hxs
              cases hxs
              rw [h x y hx, ih hmore]
              rfl

end AssetPress
