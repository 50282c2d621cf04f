import AssetPress.CommandLine.Settings
import AssetPress.Proofs.Results

/-!
# What reading the command line keeps true

Of the two flags that exclude each other each is recorded as used once it has been raised
(`Reading.Records`).  Every argument keeps that true (`Records.step`), so it holds when the
arguments end, where both being recorded is complained about: no arguments yield settings with both
(`not_quiet_and_json_of_parse`).
-/

namespace AssetPress

theorem Settings.of_withValue {s s' : Settings} {flag : Flag} {value : Bytes}
    (h : s.withValue flag value = .ok s') : s'.quiet = s.quiet ∧ s'.json = s.json := by
  have htext : ∀ set : String → Settings,
      (∀ text, (set text).quiet = s.quiet ∧ (set text).json = s.json) →
        withValue.withText value set = .ok s' → s'.quiet = s.quiet ∧ s'.json = s.json := by
    intro set hset hread
    unfold withValue.withText at hread
    split at hread
    · cases hread
      exact hset _
    · cases hread
  cases flag with
  | version => exact htext (fun text => { s with version := some text }) (fun _ => ⟨rfl, rfl⟩) h
  | scripts => exact htext (fun text => { s with scripts := some text }) (fun _ => ⟨rfl, rfl⟩) h
  | styles => exact htext (fun text => { s with styles := some text }) (fun _ => ⟨rfl, rfl⟩) h
  | buildDir =>
      unfold withValue at h
      simp only at h
      split at h <;> cases h
      exact ⟨rfl, rfl⟩
  | _ =>
      cases h
      exact ⟨rfl, rfl⟩

namespace Reading

/-- The flags that exclude each other are among those used, if they have been raised. -/
structure Records (r : Reading) : Prop where
  quiet : r.settings.quiet = true → .quiet ∈ r.used
  json : r.settings.json = true → .json ∈ r.used

variable {r r' : Reading}

theorem records_start : start.Records where
  quiet h := by cases h
  json h := by cases h

/-- What is recorded stays so while the settings of both flags stay and used flags are added. -/
theorem Records.of_subset (hr : r.Records) (hquiet : r'.settings.quiet = r.settings.quiet)
    (hjson : r'.settings.json = r.settings.json) (hused : r.used ⊆ r'.used) : r'.Records where
  quiet h := hused (hr.quiet (hquiet ▸ h))
  json h := hused (hr.json (hjson ▸ h))

/-! ### Flags -/

theorem Records.give (hr : r.Records) {flag : Flag} {value : Bytes}
    (h : r.give flag value = .ok r') : r'.Records := by
  unfold Reading.give at h
  split at h
  · cases h
  · obtain ⟨settings, hvalue, hend⟩ := of_bind_ok h
    cases hend
    obtain ⟨hquiet, hjson⟩ := Settings.of_withValue hvalue
    exact hr.of_subset hquiet hjson (List.subset_append_left _ _)

theorem Records.settle (hr : r.Records) (h : r.settle = .ok r') : r'.Records := by
  unfold Reading.settle at h
  split at h
  · cases h
    exact hr
  · cases h
  · exact Records.give (r := { r with pending := none }) ⟨hr.quiet, hr.json⟩ h

theorem Records.raise (hr : r.Records) {flag : Flag} (h : r.raise flag = .ok r') :
    r'.Records := by
  cases flag with
  | help => cases h
  | verbose =>
      cases h
      have hkept : ∀ f : Flag, f ≠ .verbose → f ∈ r.used →
          f ∈ r.used.erase .verbose ++ [.verbose] :=
        fun f hf hmem => List.mem_append_left _ ((List.mem_erase_of_ne hf).mpr hmem)
      exact ⟨fun hq => hkept .quiet (by decide) (hr.quiet hq),
        fun hj => hkept .json (by decide) (hr.json hj)⟩
  | quiet =>
      unfold Reading.raise raise.once at h
      simp only at h
      split at h
      · cases h
      · cases h
        exact ⟨fun _ => List.mem_append_right _ List.mem_cons_self,
          fun hj => List.mem_append_left _ (hr.json hj)⟩
  | json =>
      unfold Reading.raise raise.once at h
      simp only at h
      split at h
      · cases h
      · cases h
        exact ⟨fun hq => List.mem_append_left _ (hr.quiet hq),
          fun _ => List.mem_append_right _ List.mem_cons_self⟩
  | _ =>
      cases h
      exact hr

theorem Records.await (hr : r.Records) {flag : Flag}
    (h : (do return { ← r.settle with pending := some (flag, none) }) = Except.ok r') :
    r'.Records := by
  obtain ⟨m, hsettle, hend⟩ := of_bind_ok h
  cases hend
  have hm := hr.settle hsettle
  exact ⟨hm.quiet, hm.json⟩

/-! ### Arguments -/

theorem Records.long (hr : r.Records) {text : Bytes} (h : r.long text = .ok r') : r'.Records := by
  unfold Reading.long at h
  simp only at h
  split at h
  · cases h
  · split at h
    · obtain ⟨m, hsettle, hgive⟩ := of_bind_ok h
      exact (hr.settle hsettle).give hgive
    · exact hr.await h
    · cases h
    · obtain ⟨m, hsettle, hraise⟩ := of_bind_ok h
      exact (hr.settle hsettle).raise hraise

theorem Records.short (hr : r.Records) {text : Bytes} (h : r.short text = .ok r') :
    r'.Records := by
  unfold Reading.short at h
  split at h
  · cases h
  · split at h
    · cases h
    · split at h
      · split at h
        · exact hr.await h
        · obtain ⟨m, hsettle, hgive⟩ := of_bind_ok h
          exact (hr.settle hsettle).give hgive
      · obtain ⟨m, hsettle, hraise⟩ := of_bind_ok h
        exact (hr.settle hsettle).raise hraise

theorem Records.plain (hr : r.Records) {argument : Bytes} (h : r.plain argument = .ok r') :
    r'.Records := by
  unfold Reading.plain at h
  split at h
  · cases h
    exact ⟨hr.quiet, hr.json⟩
  · cases h

/-- Every argument keeps the record. -/
theorem Records.step (hr : r.Records) {argument : Bytes} (h : r.step argument = .ok r') :
    r'.Records := by
  unfold Reading.step at h
  split at h
  · cases h
  · split at h
    · split at h
      · cases h
        exact ⟨hr.quiet, hr.json⟩
      · split at h
        · exact hr.short h
        · exact hr.plain h
    · split at h
      · exact hr.long h
      · split at h
        · exact hr.short h
        · exact hr.plain h
    · exact hr.plain h

theorem Records.steps (hr : r.Records) {arguments : List Bytes}
    (h : arguments.foldlM Reading.step r = .ok r') : r'.Records := by
  induction arguments generalizing r with
  | nil =>
      cases h
      exact hr
  | cons argument rest ih =>
      rw [List.foldlM_cons] at h
      obtain ⟨m, hstep, hrest⟩ := of_bind_ok h
      exact ih (hr.step hstep) hrest

/-! ### The end -/

/-- The uses of the flags that exclude each other are at least two if both have been used. -/
theorem exists_two_of_used {used : List Flag} (hquiet : .quiet ∈ used) (hjson : .json ∈ used) :
    ∃ first second rest,
      (used.filter fun f => f == .quiet || f == .json) = first :: second :: rest := by
  have hq : Flag.quiet ∈ used.filter fun f => f == .quiet || f == .json :=
    List.mem_filter.mpr ⟨hquiet, rfl⟩
  have hj : Flag.json ∈ used.filter fun f => f == .quiet || f == .json :=
    List.mem_filter.mpr ⟨hjson, rfl⟩
  cases hflags : used.filter fun f => f == .quiet || f == .json with
  | nil =>
      rw [hflags] at hq
      cases hq
  | cons first more =>
      cases more with
      | cons second rest => exact ⟨first, second, rest, rfl⟩
      | nil =>
          -- One use cannot be that of both flags.
          rw [hflags] at hq hj
          have heq := (List.mem_singleton.mp hq).trans (List.mem_singleton.mp hj).symm
          cases heq

/-- Both flags are complained about when the arguments end, unless something else is. -/
theorem exists_conflict_of_finish (hr : r.Records) (hpending : r.pending = none)
    (hquiet : r.settings.quiet = true) (hjson : r.settings.json = true) :
    ∃ first second used, r.finish = .error (.conflict first second used) := by
  obtain ⟨first, second, rest, htwo⟩ := exists_two_of_used (hr.quiet hquiet) (hr.json hjson)
  have hsettle : r.settle = .ok r := by rw [Reading.settle, hpending]
  have hused : r.used ≠ [] := List.ne_nil_of_mem (hr.quiet hquiet)
  refine ⟨first, second, r.used.erase second, ?_⟩
  rw [finish, hsettle]
  show (if r.used = [] then _ else _) = _
  rw [if_neg hused]
  show (if (r.settings.quiet && r.settings.json) = true then _ else _) = _
  rw [hquiet, hjson, if_pos (by rfl), htwo]
  rfl

theorem not_quiet_and_json_of_finish (hr : r.Records) {s : Settings} (h : r.finish = .ok s) :
    ¬ (s.quiet = true ∧ s.json = true) := by
  unfold finish at h
  obtain ⟨m, hsettle, hrest⟩ := of_bind_ok h
  have hm := hr.settle hsettle
  have hused : m.used ≠ [] := by
    intro hnil
    simp only [hnil, if_true] at hrest
    cases hrest
  simp only [hused, if_false] at hrest
  by_cases hboth : (m.settings.quiet && m.settings.json) = true
  · obtain ⟨hquiet, hjson⟩ := Bool.and_eq_true_iff.mp hboth
    obtain ⟨first, second, rest, htwo⟩ := exists_two_of_used (hm.quiet hquiet) (hm.json hjson)
    rw [if_pos hboth, htwo] at hrest
    cases hrest
  · rw [if_neg hboth] at hrest
    cases hrest
    rintro ⟨hquiet, hjson⟩
    exact hboth (by rw [hquiet, hjson]; rfl)

end Reading

/-- No arguments ask for silence and for JSON at once. -/
theorem Settings.not_quiet_and_json_of_parse {arguments : List Bytes} {s : Settings}
    (h : parse arguments = .ok s) : ¬ (s.quiet = true ∧ s.json = true) := by
  obtain ⟨r, hsteps, hfinish⟩ := of_bind_ok h
  exact Reading.not_quiet_and_json_of_finish (Reading.records_start.steps hsteps) hfinish

end AssetPress
