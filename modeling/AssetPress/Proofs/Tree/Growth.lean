import AssetPress.Tree.Operations

/-!
# How trees grow

Ways in which a later tree can stand to an earlier one: every entry is still there with its kind
(`Tree.Keeps`), nothing but directories has been added (`Tree.AddsDirs`), one regular file has been
written (`Tree.Puts`), or first the one and then the other has been done (`Tree.Saves`).  The second
and the third are cases of the first, and all that making directories and writing files does to a
tree is one of them (`addsDirs_of_makeDir`, `puts_of_writeSpot`).
-/

namespace AssetPress

/-- Both regular files, both directories, or links to the same target. -/
def Entry.Alike : Entry → Entry → Prop
  | .file _, .file _ => True
  | .link a, .link b => a = b
  | .dir, .dir => True
  | _, _ => False

namespace Entry

theorem Alike.refl (e : Entry) : e.Alike e := by
  cases e <;> simp [Alike]

theorem Alike.trans {a b c : Entry} (hab : a.Alike b) (hbc : b.Alike c) : a.Alike c := by
  cases a <;> cases b <;> cases c <;> simp_all [Alike]

theorem Alike.eq_dir {e : Entry} (h : Alike .dir e) : e = .dir := by
  cases e <;> simp_all [Alike]

theorem Alike.eq_link {e : Entry} {target : Path} (h : Alike (.link target) e) :
    e = .link target := by
  cases e <;> simp_all [Alike]

theorem Alike.exists_file {e : Entry} {content : Bytes} (h : Alike (.file content) e) :
    ∃ new, e = .file new := by
  cases e with
  | file new => exact ⟨new, rfl⟩
  | link target => exact absurd h (by simp [Alike])
  | dir => exact absurd h (by simp [Alike])

end Entry

namespace Tree

/-- Every entry of `t` stands in `u` with its kind. -/
def Keeps (t u : Tree) : Prop := ∀ l e, t.get? l = some e → ∃ e', u.get? l = some e' ∧ e.Alike e'

/-- `u` is `t` with nothing but directories added. -/
def AddsDirs (t u : Tree) : Prop :=
  ∀ l, u.get? l = t.get? l ∨ t.get? l = none ∧ u.get? l = some .dir

/-- `u` is `t` with a regular file written at `l`, where there was one before or nothing. -/
structure Puts (t u : Tree) (l : Location) (content : Bytes) : Prop where
  get?_eq : ∀ k, u.get? k = if k = l then some (.file content) else t.get? k
  free : t.get? l = none ∨ ∃ old, t.get? l = some (.file old)

/-- At `l` there is nothing or a regular file. -/
def Admits (t : Tree) (l : Location) : Prop :=
  t.get? l = none ∨ ∃ old, t.get? l = some (.file old)

variable {t u v : Tree}

/-! ### Keeping what is there -/

theorem Keeps.refl (t : Tree) : t.Keeps t := fun _ e h => ⟨e, h, Entry.Alike.refl e⟩

theorem Keeps.trans (h₁ : t.Keeps u) (h₂ : u.Keeps v) : t.Keeps v := by
  intro l e h
  obtain ⟨e₁, he₁, a₁⟩ := h₁ l e h
  obtain ⟨e₂, he₂, a₂⟩ := h₂ l e₁ he₁
  exact ⟨e₂, he₂, a₁.trans a₂⟩

theorem Keeps.get?_dir (h : t.Keeps u) {l : Location} (hl : t.get? l = some .dir) :
    u.get? l = some .dir := by
  obtain ⟨e, he, ha⟩ := h l _ hl
  rw [he, ha.eq_dir]

theorem Keeps.get?_link (h : t.Keeps u) {l : Location} {target : Path}
    (hl : t.get? l = some (.link target)) : u.get? l = some (.link target) := by
  obtain ⟨e, he, ha⟩ := h l _ hl
  rw [he, ha.eq_link]

theorem Keeps.exists_file (h : t.Keeps u) {l : Location} {content : Bytes}
    (hl : t.get? l = some (.file content)) : ∃ new, u.get? l = some (.file new) := by
  obtain ⟨e, he, ha⟩ := h l _ hl
  obtain ⟨new, rfl⟩ := ha.exists_file
  exact ⟨new, he⟩

/-! ### Adding directories -/

theorem AddsDirs.refl (t : Tree) : t.AddsDirs t := fun _ => Or.inl rfl

theorem AddsDirs.trans (h₁ : t.AddsDirs u) (h₂ : u.AddsDirs v) : t.AddsDirs v := by
  intro l
  rcases h₂ l with h | ⟨hu, hv⟩
  · rw [h]
    exact h₁ l
  · rcases h₁ l with h | ⟨_, hdir⟩
    · exact Or.inr ⟨by rw [← h, hu], hv⟩
    · rw [hdir] at hu
      cases hu

theorem AddsDirs.keeps (h : t.AddsDirs u) : t.Keeps u := by
  intro l e hl
  rcases h l with heq | ⟨hnone, _⟩
  · exact ⟨e, by rw [heq, hl], Entry.Alike.refl e⟩
  · rw [hnone] at hl
    cases hl

theorem AddsDirs.get?_of_ne_dir (h : t.AddsDirs u) {l : Location} {e : Entry}
    (hl : u.get? l = some e) (he : e ≠ .dir) : t.get? l = some e := by
  rcases h l with heq | ⟨_, hdir⟩
  · rw [← heq, hl]
  · rw [hdir] at hl
    exact absurd (Option.some.inj hl).symm he

theorem AddsDirs.noLinks (h : t.AddsDirs u) (ht : t.NoLinks) : u.NoLinks := fun l target hl =>
  ht l target (h.get?_of_ne_dir hl (by simp))

theorem addsDirs_of_insert (d : Location) (n : Name) (hfree : t.get? (d ++ [n]) = none) :
    t.AddsDirs (t.insert d n .dir) := by
  intro l
  by_cases ha : t.Accepts d n .dir
  · rw [get?_insert ha]
    by_cases hl : l = d ++ [n]
    · subst hl
      rw [if_pos rfl]
      exact Or.inr ⟨hfree, rfl⟩
    · rw [if_neg hl]
      exact Or.inl rfl
  · unfold insert
    rw [dif_neg ha]
    exact Or.inl rfl

theorem addsDirs_of_makeDir {base : Location} {p : Path} (h : t.makeDir base p = .ok u) :
    t.AddsDirs u := by
  unfold makeDir make at h
  cases hp : t.placeOf base p with
  | error why =>
      rw [hp] at h
      cases h
  | ok place =>
      obtain ⟨d, n⟩ := place
      rw [hp] at h
      simp only at h
      split at h
      case isTrue => cases h
      case isFalse hfree =>
        cases h
        exact addsDirs_of_insert d n (by simpa using hfree)

/-! ### Writing a file -/

theorem Puts.get?_self {l : Location} {content : Bytes} (h : t.Puts u l content) :
    u.get? l = some (.file content) := by
  rw [h.get?_eq, if_pos rfl]

theorem Puts.get?_ne {l k : Location} {content : Bytes} (h : t.Puts u l content) (hk : k ≠ l) :
    u.get? k = t.get? k := by
  rw [h.get?_eq, if_neg hk]

theorem Puts.admits {l : Location} {content : Bytes} (h : t.Puts u l content) : t.Admits l := h.free

theorem Puts.keeps {l : Location} {content : Bytes} (h : t.Puts u l content) : t.Keeps u := by
  intro k e hk
  by_cases hkl : k = l
  · subst hkl
    refine ⟨_, h.get?_self, ?_⟩
    rcases h.free with hnone | ⟨old, hold⟩
    · rw [hnone] at hk
      cases hk
    · rw [hold] at hk
      cases hk
      trivial
  · exact ⟨e, by rw [h.get?_ne hkl, hk], Entry.Alike.refl e⟩

theorem Puts.noLinks {l : Location} {content : Bytes} (h : t.Puts u l content) (ht : t.NoLinks) :
    u.NoLinks := by
  intro k target hk
  by_cases hkl : k = l
  · rw [hkl, h.get?_self] at hk
    cases hk
  · rw [h.get?_ne hkl] at hk
    exact ht k target hk

theorem Puts.eq_of_get? {l : Location} {content : Bytes} (h : t.Puts u l content)
    (hl : t.get? l = some (.file content)) : u = t := by
  refine ext_get? fun k => ?_
  by_cases hk : k = l
  · rw [hk, h.get?_self, hl]
  · exact h.get?_ne hk

theorem puts_of_writeSpot {spot : Spot} {content : Bytes} (hs : spot.Holds t)
    (h : t.writeSpot content spot = .ok u) : ∃ d n,
      (spot = .vacant d n ∨ ∃ old, spot = .file d n old) ∧ t.Puts u (d ++ [n]) content := by
  obtain ⟨d, n, hspot, hget⟩ := get?_writeSpot hs h
  refine ⟨d, n, hspot, hget, ?_⟩
  rcases hspot with rfl | ⟨old, rfl⟩
  · exact Or.inl hs.2
  · exact Or.inr ⟨old, hs⟩

/-! ### Saving a file -/

/-- `u` is `t` with a regular file saved at `l`, where there was one before or nothing; what else is
new are directories. -/
structure Saves (t u : Tree) (l : Location) (content : Bytes) : Prop where
  get?_self : u.get? l = some (.file content)
  admits : t.Admits l
  get?_ne : ∀ k, k ≠ l → u.get? k = t.get? k ∨ t.get? k = none ∧ u.get? k = some .dir

theorem AddsDirs.saves {l : Location} {content : Bytes} (h : t.AddsDirs v)
    (hputs : v.Puts u l content) : t.Saves u l content where
  get?_self := hputs.get?_self
  admits := by
    rcases hputs.free with hnone | ⟨old, hold⟩
    · rcases h l with heq | ⟨hfree, -⟩
      · exact Or.inl (heq ▸ hnone)
      · exact Or.inl hfree
    · exact Or.inr ⟨old, h.get?_of_ne_dir hold (by simp)⟩
  get?_ne k hk := by
    rw [hputs.get?_ne hk]
    exact h k

end Tree
end AssetPress
