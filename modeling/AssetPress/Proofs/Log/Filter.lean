import AssetPress.Log.Filter

/-!
# What a filter decides

Of the directives that are about an event a narrowest one decides (`narrowest_of_deciding?`), and
none decides exactly if none is about the event (`deciding?_eq_none_iff`).  So another plain level
makes a difference to no event that some directive is about (`enables_withPlain_of_fits`), and one
further down shows whatever was shown before (`filter_withPlain_sublist`).
-/

namespace AssetPress

namespace LogFilter

variable {f : LogFilter} {e : Event} {d : Directive} {l l' : Level}

/-! ### The deciding directive -/

theorem exists_narrower (b d : Directive) : ∃ x, narrower (some b) d = some x ∧
    (x = b ∨ x = d) ∧ b.narrowness ≤ x.narrowness ∧ d.narrowness ≤ x.narrowness := by
  by_cases hlt : d.narrowness < b.narrowness
  · exact ⟨b, if_pos hlt, Or.inl rfl, Nat.le_refl _, Nat.le_of_lt hlt⟩
  · exact ⟨d, if_neg hlt, Or.inr rfl, Nat.le_of_not_lt hlt, Nat.le_refl _⟩

/-- One of the directives is kept to the end, and none of them is narrower. -/
theorem exists_foldl_narrower (ds : List Directive) (b : Directive) :
    ∃ d, ds.foldl narrower (some b) = some d ∧ d ∈ b :: ds ∧
      ∀ o ∈ b :: ds, o.narrowness ≤ d.narrowness := by
  induction ds generalizing b with
  | nil =>
      refine ⟨b, rfl, List.mem_cons_self, fun o ho => ?_⟩
      obtain rfl : o = b := List.mem_singleton.mp ho
      exact Nat.le_refl _
  | cons first rest ih =>
      obtain ⟨x, hx, heither, hb, hfirst⟩ := exists_narrower b first
      obtain ⟨d, hd, hmem, hwidest⟩ := ih x
      have hkept : x.narrowness ≤ d.narrowness := hwidest x List.mem_cons_self
      refine ⟨d, by rw [List.foldl_cons, hx, hd], ?_, fun o ho => ?_⟩
      · rcases List.mem_cons.mp hmem with rfl | hrest
        · rcases heither with rfl | rfl <;> simp
        · simp [hrest]
      · rcases List.mem_cons.mp ho with rfl | ho
        · exact Nat.le_trans hb hkept
        · rcases List.mem_cons.mp ho with rfl | ho
          · exact Nat.le_trans hfirst hkept
          · exact hwidest o (List.mem_cons_of_mem x ho)

theorem deciding?_eq_none_iff : f.deciding? e = none ↔ ∀ d ∈ f.rules, d.fits e = false := by
  unfold deciding?
  cases hfits : f.rules.filter fun d => d.fits e with
  | nil =>
      have hnone := List.filter_eq_nil_iff.mp hfits
      exact ⟨fun _ d hd => Bool.eq_false_iff.mpr (hnone d hd), fun _ => rfl⟩
  | cons b ds =>
      obtain ⟨hb, hfit⟩ := List.mem_filter.mp (hfits ▸ List.mem_cons_self)
      obtain ⟨d, hd, -⟩ := exists_foldl_narrower ds b
      constructor
      · intro h
        exact absurd (hd.symm.trans h) (Option.some_ne_none d)
      · intro h
        rw [h b hb] at hfit
        cases hfit

/-- What decides is one of the directives, it is about the event, and none that is about it is
narrower. -/
theorem narrowest_of_deciding? (h : f.deciding? e = some d) :
    d ∈ f.rules ∧ d.fits e = true ∧
      ∀ o ∈ f.rules, o.fits e = true → o.narrowness ≤ d.narrowness := by
  unfold deciding? at h
  cases hfits : f.rules.filter fun d => d.fits e with
  | nil =>
      rw [hfits] at h
      cases h
  | cons b ds =>
      rw [hfits] at h
      obtain ⟨x, hx, hmem, hwidest⟩ := exists_foldl_narrower ds b
      obtain rfl : x = d := Option.some.inj (hx.symm.trans h)
      obtain ⟨hd, hfit⟩ := List.mem_filter.mp (hfits ▸ hmem)
      exact ⟨hd, hfit, fun o ho hofits => hwidest o (hfits ▸ List.mem_filter.mpr ⟨ho, hofits⟩)⟩

/-! ### Another plain level -/

theorem deciding?_withPlain (f : LogFilter) (l : Level) (e : Event) :
    (f.withPlain l).deciding? e = f.deciding? e := rfl

/-- Where a directive is about the event, the plain level has no say. -/
theorem enables_withPlain_of_fits (h : ∃ d ∈ f.rules, d.fits e = true) (l : Level) :
    (f.withPlain l).enables e = f.enables e := by
  unfold enables threshold
  rw [deciding?_withPlain]
  cases hd : f.deciding? e with
  | some d => rfl
  | none =>
      obtain ⟨d, hmem, hfit⟩ := h
      rw [deciding?_eq_none_iff.mp hd d hmem] at hfit
      cases hfit

/-- Where none is, it decides alone. -/
theorem enables_withPlain_iff_of_not_fits (h : ¬ ∃ d ∈ f.rules, d.fits e = true) (l : Level) :
    (f.withPlain l).enables e = true ↔ e.level.rank ≤ l.rank := by
  have hnone : ∀ d ∈ (f.withPlain l).rules, d.fits e = false :=
    fun d hd => Bool.eq_false_iff.mpr fun hfit => h ⟨d, hd, hfit⟩
  rw [enables_of_no_rule hnone]
  exact decide_eq_true_iff

theorem enables_withPlain_of_rank_le (h : l.rank ≤ l'.rank)
    (hshown : (f.withPlain l).enables e = true) : (f.withPlain l').enables e = true := by
  by_cases hfits : ∃ d ∈ f.rules, d.fits e = true
  · rw [enables_withPlain_of_fits hfits] at hshown ⊢
    exact hshown
  · rw [enables_withPlain_iff_of_not_fits hfits] at hshown ⊢
    exact Nat.le_trans hshown h

/-- A plain level further down removes no event from a log, and leaves them in their order. -/
theorem filter_withPlain_sublist (f : LogFilter) (h : l.rank ≤ l'.rank) (events : List Event) :
    (events.filter (f.withPlain l).enables).Sublist (events.filter (f.withPlain l').enables) := by
  have hboth : events.filter (f.withPlain l).enables =
      (events.filter (f.withPlain l').enables).filter (f.withPlain l).enables := by
    rw [List.filter_filter]
    refine List.filter_congr fun e _ => ?_
    cases hshown : (f.withPlain l).enables e with
    | false => rfl
    | true => rw [enables_withPlain_of_rank_le h hshown]; rfl
  rw [hboth]
  exact List.filter_sublist

end LogFilter
end AssetPress
