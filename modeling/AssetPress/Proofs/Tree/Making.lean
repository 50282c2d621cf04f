import AssetPress.Proofs.Path.Lineage
import AssetPress.Proofs.Tree.Directory
import AssetPress.Proofs.Tree.Linkless

/-!
# Making a way

In a tree without links, steps on which nothing but directories stands in the way (`Passable`)
lead to a directory exactly if every place on them is one (`Paved`, `walkWith_of_passable`).
Making a directory at their end does one of three things (`makeDir_cases`): it finds the whole way
there, or it makes the last place of it, or the way before that place is not there.  Making the
way is all that may be done to the tree (`Makes`).  If the way is made up to the last step that
does not stay, and that is not enough, then because it is stranded there
(`Makes.stranded_of_broken`).
-/

namespace AssetPress
namespace Tree

/-- Wherever the steps pass, there is a directory or nothing. -/
def Passable (t : Tree) (d : Location) (steps : List Step) : Prop :=
  ∀ xs, xs <+: steps → t.get? (d.follow xs) = none ∨ t.get? (d.follow xs) = some .dir

/-- Wherever the steps pass, there is a directory. -/
def Paved (t : Tree) (d : Location) (steps : List Step) : Prop :=
  ∀ xs, xs <+: steps → t.get? (d.follow xs) = some .dir

/-- `u` is `t` with a directory wherever the steps pass. -/
structure Makes (t u : Tree) (d : Location) (steps : List Step) : Prop where
  paved : u.Paved d steps
  get?_off : ∀ l, (∀ xs, xs <+: steps → d.follow xs ≠ l) → u.get? l = t.get? l

instance (t : Tree) (d : Location) (steps : List Step) : Decidable (t.Passable d steps) :=
  decidable_of_iff (∀ k < steps.length + 1, t.get? (d.follow (steps.take k)) = none ∨
      t.get? (d.follow (steps.take k)) = some .dir) <| by
    constructor
    · intro h xs hxs
      have hlength := h xs.length (Nat.lt_succ_of_le hxs.length_le)
      rw [← List.prefix_iff_eq_take.mp hxs] at hlength
      exact hlength
    · intro h k _
      exact h _ (List.take_prefix k steps)

variable {t u v : Tree} {d : Location} {xs ys steps : List Step}

/-! ### Passable and paved ways -/

theorem Passable.of_isPrefix (h : t.Passable d steps) (hxs : xs <+: steps) : t.Passable d xs :=
  fun zs hzs => h zs (hzs.trans hxs)

theorem Paved.of_isPrefix (h : t.Paved d steps) (hxs : xs <+: steps) : t.Paved d xs :=
  fun zs hzs => h zs (hzs.trans hxs)

theorem paved_nil (hd : t.get? d = some .dir) : t.Paved d [] := by
  intro zs hzs
  rw [List.prefix_nil.mp hzs]
  exact hd

/-- A way is paved if it is up to its last step, and that leads to a directory. -/
theorem paved_concat_iff {s : Step} :
    t.Paved d (xs ++ [s]) ↔ t.Paved d xs ∧ t.get? (d.follow (xs ++ [s])) = some .dir := by
  constructor
  · intro h
    exact ⟨h.of_isPrefix (List.prefix_append xs [s]), h _ List.prefix_rfl⟩
  · rintro ⟨hfirst, hlast⟩ zs hzs
    rcases List.prefix_concat_iff.mp hzs with rfl | hzs
    · exact hlast
    · exact hfirst zs hzs

theorem follow_concat (d : Location) (xs : List Step) (s : Step) :
    d.follow (xs ++ [s]) = (d.follow xs).step s := Location.follow_append d xs [s]

theorem Paved.concat (h : t.Paved d xs) {s : Step} (hs : ∀ n, s ≠ .name n) :
    t.Paved d (xs ++ [s]) := by
  have hend := h xs List.prefix_rfl
  refine paved_concat_iff.mpr ⟨h, ?_⟩
  rw [follow_concat]
  cases s with
  | stay => exact hend
  | up => exact get?_parent hend
  | name n => exact absurd rfl (hs n)
  | refused why => exact hend

theorem Paved.append (h : t.Paved d xs) (hys : Step.Idle ys) : t.Paved d (xs ++ ys) := by
  induction ys generalizing xs with
  | nil =>
      rw [List.append_nil]
      exact h
  | cons s rest ih =>
      have hstay : s = .stay := hys s List.mem_cons_self
      have hnext : t.Paved d (xs ++ [s]) := h.concat fun n heq => by
        rw [hstay] at heq
        cases heq
      have hrest := ih hnext fun x hx => hys x (List.mem_cons_of_mem s hx)
      rw [List.append_assoc] at hrest
      exact hrest

theorem AddsDirs.passable (h : t.AddsDirs u) (hpass : t.Passable d steps) :
    u.Passable d steps := by
  intro zs hzs
  rcases h (d.follow zs) with heq | ⟨-, hdir⟩
  · rw [heq]
    exact hpass zs hzs
  · exact Or.inr hdir

theorem AddsDirs.paved (h : t.AddsDirs u) (hpaved : t.Paved d steps) : u.Paved d steps :=
  fun zs hzs => h.keeps.get?_dir (hpaved zs hzs)

/-! ### Made ways -/

theorem makes_of_paved (h : t.Paved d steps) : t.Makes t d steps := ⟨h, fun _ _ => rfl⟩

theorem Makes.trans (h₁ : t.Makes u d xs) (h₂ : u.Makes v d ys) (hxs : xs <+: ys) :
    t.Makes v d ys where
  paved := h₂.paved
  get?_off l hl := by
    rw [h₂.get?_off l hl]
    exact h₁.get?_off l fun zs hzs => hl zs (hzs.trans hxs)

theorem Makes.append (h : t.Makes u d xs) (hys : Step.Idle ys) : t.Makes u d (xs ++ ys) :=
  h.trans (makes_of_paved (h.paved.append hys)) (List.prefix_append xs ys)

theorem Makes.addsDirs (h : t.Makes u d steps) (hpass : t.Passable d steps) : t.AddsDirs u := by
  intro l
  by_cases hon : ∃ zs, zs <+: steps ∧ d.follow zs = l
  · obtain ⟨zs, hzs, rfl⟩ := hon
    have hdir := h.paved zs hzs
    rcases hpass zs hzs with hnone | hthere
    · exact Or.inr ⟨hnone, hdir⟩
    · exact Or.inl (hdir.trans hthere.symm)
  · exact Or.inl (h.get?_off l fun zs hzs heq => hon ⟨zs, hzs, heq⟩)

theorem makes_insert (h : t.Paved d xs) (n : Name) :
    t.Makes (t.insert (d.follow xs) n .dir) d (xs ++ [.name n]) := by
  have haccepts : t.Accepts (d.follow xs) n .dir := ⟨h xs List.prefix_rfl, Or.inl rfl⟩
  have hend : d.follow (xs ++ [.name n]) = d.follow xs ++ [n] := follow_concat d xs (.name n)
  refine ⟨fun zs hzs => ?_, fun l hl => ?_⟩
  · rw [get?_insert haccepts]
    split
    case isTrue => rfl
    case isFalse hne =>
      rcases List.prefix_concat_iff.mp hzs with rfl | hzs
      · exact absurd hend hne
      · exact h zs hzs
  · refine get?_insert_ne fun heq => hl _ List.prefix_rfl ?_
    rw [hend, heq]

/-! ### Stranded ways -/

/-- The steps end with some that stay, behind a name at whose place nothing stands; and no step
before that name passes its place. -/
def Stranded (t : Tree) (d : Location) (steps : List Step) : Prop :=
  ∃ way n idle, steps = way ++ .name n :: idle ∧ idle ≠ [] ∧ Step.Idle idle ∧
    t.get? (d.follow way ++ [n]) = none ∧
    ∀ xs, xs <+: way → d.follow xs ≠ d.follow way ++ [n]

theorem not_stranded_of_getLast?_ne (h : steps.getLast? ≠ some .stay) : ¬ t.Stranded d steps := by
  rintro ⟨way, n, idle, rfl, hne, hidle, -⟩
  obtain ⟨front, last, rfl⟩ : ∃ front last, idle = front ++ [last] :=
    ⟨_, _, (List.dropLast_concat_getLast hne).symm⟩
  refine h ?_
  rw [← List.cons_append, ← List.append_assoc, List.getLast?_concat,
    hidle last (List.mem_append_right front List.mem_cons_self)]

section stranded
variable {first idle : List Step} (h : t.Makes u d first.dropLast)
include h

/-- Where making the way up to the last step that does not stay is not enough, the way is
stranded. -/
theorem Makes.stranded_of_broken (hpass : t.Passable d (first ++ idle))
    (hknown : ∀ why, .refused why ∉ first) (hidle : Step.Idle idle)
    (hbroken : ¬ u.Paved d (first ++ idle).dropLast) : t.Stranded d (first ++ idle) := by
  have hne : idle ≠ [] := by
    rintro rfl
    rw [List.append_nil] at hbroken
    exact hbroken h.paved
  have hfirst : ¬ u.Paved d first := by
    intro hpaved
    rw [List.dropLast_append_of_ne_nil hne] at hbroken
    exact hbroken (hpaved.append fun s hs => hidle s (List.dropLast_subset idle hs))
  rcases List.eq_nil_or_concat first with rfl | ⟨way, last, hconcat⟩
  · exact absurd h.paved hfirst
  rw [List.concat_eq_append] at hconcat
  subst hconcat
  rw [List.dropLast_concat] at h
  cases last with
  | stay => exact absurd (h.paved.concat fun n => Step.noConfusion) hfirst
  | up => exact absurd (h.paved.concat fun n => Step.noConfusion) hfirst
  | refused why => exact absurd (List.mem_append_right way List.mem_cons_self) (hknown why)
  | name n =>
      have hend : d.follow (way ++ [.name n]) = d.follow way ++ [n] := follow_concat d way (.name n)
      have hmissing : u.get? (d.follow way ++ [n]) ≠ some .dir := by
        intro hdir
        rw [← hend] at hdir
        exact hfirst (paved_concat_iff.mpr ⟨h.paved, hdir⟩)
      have hoff : ∀ xs, xs <+: way → d.follow xs ≠ d.follow way ++ [n] := by
        intro xs hxs heq
        rw [← heq] at hmissing
        exact hmissing (h.paved xs hxs)
      refine ⟨way, n, idle, by simp, hne, hidle, ?_, hoff⟩
      rcases hpass _ (List.prefix_append _ idle) with hnone | hdir
      · rw [← hend]
        exact hnone
      · rw [hend, ← h.get?_off _ hoff] at hdir
        exact absurd hdir hmissing

/-- A stranded way is not made by making it up to the last step that does not stay. -/
theorem Makes.broken_of_stranded (hlast : first.getLast? = some .stay → first = [.stay])
    (hstranded : t.Stranded d (first ++ idle)) : ¬ u.Paved d (first ++ idle).dropLast := by
  obtain ⟨way, n, rest, hsteps, hne, hrest, hnone, hoff⟩ := hstranded
  -- The name is not among the steps that have been made: behind it all steps stay.
  have hlater : ¬ way ++ [.name n] <+: first.dropLast := by
    rintro ⟨ys, hys⟩
    have hfirst : first ≠ [] := by
      rintro rfl
      simp at hys
    have hsplit := List.dropLast_concat_getLast hfirst
    rw [← hys] at hsplit
    have hrest' : ys ++ first.getLast hfirst :: idle = rest := by
      rw [← hsplit] at hsteps
      simpa using hsteps
    have hstay : first.getLast hfirst = .stay :=
      hrest _ (hrest' ▸ List.mem_append_right ys List.mem_cons_self)
    have hone := hlast (by rw [List.getLast?_eq_some_getLast hfirst, hstay])
    rw [hone] at hys
    simp at hys
  have hbefore : first.dropLast <+: way := by
    have hmade : first.dropLast <+: first ++ idle :=
      (List.dropLast_prefix first).trans (List.prefix_append first idle)
    have hname : way ++ [.name n] <+: first ++ idle := ⟨rest, by rw [hsteps]; simp⟩
    rcases List.prefix_or_prefix_of_prefix hmade hname with hshort | hlong
    · rcases List.prefix_concat_iff.mp hshort with heq | hway
      · exact absurd (heq ▸ List.prefix_rfl) hlater
      · exact hway
    · exact absurd hlong hlater
  have hpassed : way ++ [.name n] <+: (first ++ idle).dropLast := by
    rw [hsteps, List.dropLast_append_cons, List.dropLast_cons_of_ne_nil hne]
    exact ⟨rest.dropLast, by simp⟩
  intro hpaved
  have hthere := hpaved _ hpassed
  rw [follow_concat] at hthere
  have hkept := h.get?_off _ fun xs hxs => hoff xs (hxs.trans hbefore)
  have hgone : (none : Option Entry) = some .dir := hnone.symm.trans (hkept.symm.trans hthere)
  cases hgone

end stranded

/-! ### Walking a passable way -/

theorem Passable.tail {s : Step} (h : t.Passable d (s :: steps)) : t.Passable (d.step s) steps :=
  fun zs hzs => h (s :: zs) ((List.prefix_cons_inj s).mpr hzs)

theorem paved_cons_iff {s : Step} :
    t.Paved d (s :: steps) ↔ t.get? d = some .dir ∧ t.Paved (d.step s) steps := by
  constructor
  · intro h
    exact ⟨h [] List.nil_prefix, fun zs hzs => h (s :: zs) ((List.prefix_cons_inj s).mpr hzs)⟩
  · rintro ⟨hd, hrest⟩ zs hzs
    cases zs with
    | nil => exact hd
    | cons x zs =>
        obtain ⟨rfl, hmore⟩ := List.cons_prefix_cons.mp hzs
        exact hrest zs hmore

/-- Along passable steps a walk arrives at a directory if the way is paved, and otherwise it finds
that something is missing; no link is met. -/
theorem walkWith_of_passable
    {follow : Location → Path → List Step → Bool → Except OsError Spot} {strict : Bool}
    (hd : t.get? d = some .dir) (hsteps : ∀ why, .refused why ∉ steps)
    (h : t.Passable d steps) :
    t.Paved d steps ∧ t.walkWith false follow strict d steps = .ok (.dir (d.follow steps)) ∨
      ¬ t.Paved d steps ∧ (t.walkWith false follow strict d steps = .error .notFound ∨
        ∃ l n, t.walkWith false follow strict d steps = .ok (.vacant l n)) := by
  induction steps generalizing d with
  | nil => exact Or.inl ⟨paved_nil hd, rfl⟩
  | cons s rest ih =>
      have hrest : ∀ why, .refused why ∉ rest := fun why hmem =>
        hsteps why (List.mem_cons_of_mem s hmem)
      have hpaved : t.Paved d (s :: rest) ↔ t.Paved (d.step s) rest :=
        paved_cons_iff.trans ⟨And.right, fun hmore => ⟨hd, hmore⟩⟩
      rw [hpaved]
      cases s with
      | stay => exact ih hd hrest h.tail
      | up => exact ih (get?_parent hd) hrest h.tail
      | refused why => exact absurd List.mem_cons_self (hsteps why)
      | name n =>
          rw [walkWith]
          simp only [Bool.false_and, Bool.false_eq_true, if_false]
          have hplace : d.step (.name n) = d ++ [n] := rfl
          rcases h.tail [] List.nil_prefix with hnone | hdir
          · have hmissing : t.get? (d ++ [n]) = none := hnone
            have hbroken : ¬ t.Paved (d.step (.name n)) rest := by
              intro hmore
              have hthere := hmore [] List.nil_prefix
              rw [hnone] at hthere
              cases hthere
            rw [hmissing]
            refine Or.inr ⟨hbroken, ?_⟩
            simp only
            split
            · exact Or.inr ⟨d, n, rfl⟩
            · exact Or.inl rfl
          · have hthere : t.get? (d ++ [n]) = some .dir := hdir
            rw [hthere]
            exact ih hdir hrest h.tail

theorem walk_of_passable (ht : t.NoLinks) (links : Nat) (strict : Bool)
    (hd : t.get? d = some .dir) (hsteps : ∀ why, .refused why ∉ steps)
    (h : t.Passable d steps) :
    t.Paved d steps ∧ t.walk false links strict d steps = .ok (.dir (d.follow steps)) ∨
      ¬ t.Paved d steps ∧ (t.walk false links strict d steps = .error .notFound ∨
        ∃ l n, t.walk false links strict d steps = .ok (.vacant l n)) := by
  rw [walk_eq_of_noLinks ht]
  exact walkWith_of_passable hd hsteps h

/-! ### Making a directory -/

section paths
variable {base : Location} {p : Path}

theorem isDir_iff_paved (ht : t.NoLinks) (hb : t.get? base = some .dir) (hp : p.Usable)
    (h : t.Passable (p.start base) p.steps) :
    t.isDir base p = true ↔ t.Paved (p.start base) p.steps := by
  rw [isDir_iff, resolve_of_refused?_eq_none hp.refused?_eq_none]
  rcases walk_of_passable ht maxLinks p.endsWithSlash (get?_start hb p) hp.refused_not_mem h with
    ⟨hpaved, hwalk⟩ | ⟨hbroken, hwalk | ⟨_, _, hwalk⟩⟩
  · exact ⟨fun _ => hpaved, fun _ => ⟨_, hwalk⟩⟩
  · rw [hwalk]
    exact ⟨fun ⟨_, hl⟩ => (by cases hl), fun hpaved => absurd hpaved hbroken⟩
  · rw [hwalk]
    exact ⟨fun ⟨_, hl⟩ => (by cases hl), fun hpaved => absurd hpaved hbroken⟩

theorem walkToDir_of_passable (ht : t.NoLinks) (hd : t.get? d = some .dir)
    (hsteps : ∀ why, .refused why ∉ steps) (h : t.Passable d steps) :
    t.Paved d steps ∧ t.walkToDir d steps = .ok (d.follow steps) ∨
      ¬ t.Paved d steps ∧ t.walkToDir d steps = .error .notFound := by
  unfold walkToDir
  rcases walk_of_passable ht maxLinks true hd hsteps h with
    ⟨hpaved, hwalk⟩ | ⟨hbroken, hwalk | ⟨_, _, hwalk⟩⟩
  · rw [hwalk]
    exact Or.inl ⟨hpaved, rfl⟩
  · rw [hwalk]
    exact Or.inr ⟨hbroken, rfl⟩
  · rw [hwalk]
    exact Or.inr ⟨hbroken, rfl⟩

/-- Making a directory at the end of passable steps finds the whole way paved, or makes the last
place of it, or does not find the way to that place. -/
theorem makeDir_cases (ht : t.NoLinks) (hb : t.get? base = some .dir) (hp : p.Usable)
    (h : t.Passable (p.start base) p.steps) :
    t.Paved (p.start base) p.steps ∧ t.makeDir base p = .error .alreadyExists ∨
      (∃ u, t.Paved (p.start base) p.steps.dropLast ∧ t.makeDir base p = .ok u ∧
        t.Makes u (p.start base) p.steps) ∨
      ¬ t.Paved (p.start base) p.steps.dropLast ∧ t.makeDir base p = .error .notFound := by
  have hd := get?_start hb p
  by_cases hpaved : t.Paved (p.start base) p.steps
  · exact Or.inl ⟨hpaved, makeDir_of_isDir ((isDir_iff_paved ht hb hp h).mpr hpaved)⟩
  refine Or.inr ?_
  obtain ⟨way, last, hsteps⟩ : ∃ way last, p.steps = way ++ [last] := by
    rcases List.eq_nil_or_concat p.steps with hnil | ⟨way, last, hconcat⟩
    · rw [hnil] at hpaved
      exact absurd (paved_nil hd) hpaved
    · exact ⟨way, last, hconcat.trans List.concat_eq_append⟩
  have hknown : ∀ why, .refused why ∉ way ++ [last] := hsteps ▸ hp.refused_not_mem
  rw [hsteps] at h hpaved
  rw [hsteps, List.dropLast_concat]
  unfold makeDir make placeOf
  rw [hp.refused?_eq_none]
  simp only [hsteps, List.dropLast_concat, List.getLast?_concat]
  rcases walkToDir_of_passable ht hd
    (fun why hmem => hknown why (List.mem_append_left [last] hmem))
    (h.of_isPrefix (List.prefix_append way [last])) with ⟨hway, hwalk⟩ | ⟨hbroken, hwalk⟩
  · rw [hwalk]
    cases last with
    | stay => exact absurd (hway.concat fun n => Step.noConfusion) hpaved
    | up => exact absurd (hway.concat fun n => Step.noConfusion) hpaved
    | refused why => exact absurd (List.mem_append_right way List.mem_cons_self) (hknown why)
    | name n =>
        have hend : (p.start base).follow (way ++ [.name n]) = (p.start base).follow way ++ [n] :=
          follow_concat _ way (.name n)
        rcases h _ List.prefix_rfl with hnone | hdir
        · rw [hend] at hnone
          refine Or.inl ⟨_, hway, ?_, makes_insert hway n⟩
          simp [hnone]
        · exact absurd (paved_concat_iff.mpr ⟨hway, hdir⟩) hpaved
  · rw [hwalk]
    exact Or.inr ⟨hbroken, rfl⟩

end paths
end Tree
end AssetPress
