import AssetPress.Proofs.Tree.Following

/-!
# Trees with files written

A tree can be filled with regular files, each written to where one of some paths leads
(`Tree.Fills`).  A further file that is written to both the tree before and the tree after, in a
place of its own, leaves them so related (`Fills.beside`).  Main statement: filling a tree with some
files and then with others, none of them in the same place, makes the same tree in either order
(`Fills.eq_of_swap`).
-/

namespace AssetPress

/-! ### Files by their places -/

def oneFile (l : Location) (content : Bytes) : Location → Option Bytes :=
  fun k => if k = l then some content else none

def Apart (files others : Location → Option Bytes) : Prop :=
  ∀ k, files k = none ∨ others k = none

theorem isSome_oneFile_self (l : Location) (content : Bytes) :
    (oneFile l content l).isSome = true := by
  rw [oneFile, if_pos rfl]
  rfl

theorem Apart.symm {files others : Location → Option Bytes} (h : Apart files others) :
    Apart others files := fun k => (h k).symm

theorem Apart.eq_none {files others : Location → Option Bytes} (h : Apart files others)
    {l : Location} (hl : (files l).isSome = true) : others l = none := by
  refine (h l).resolve_left fun hnone => ?_
  rw [hnone] at hl
  cases hl

/-! ### Filled trees -/

namespace Tree

/-- `u` is `t` with the given files written, each to where one of the paths `ps` leads. -/
structure Fills (base : Location) (ps : List Path) (files : Location → Option Bytes)
    (t u : Tree) : Prop where
  get?_eq : ∀ k, u.get? k = (files k).elim (t.get? k) fun content => some (.file content)
  admits : ∀ k content, files k = some content → t.Admits k
  leads : ∀ k content, files k = some content →
    ∃ p ∈ ps, ∃ d n, k = d ++ [n] ∧ u.Leads base p d n

variable {base : Location} {ps qs : List Path} {files others : Location → Option Bytes}
  {t u v w : Tree} {k l : Location} {content : Bytes}

theorem Fills.get?_of_none (h : Fills base ps files t u) (hk : files k = none) :
    u.get? k = t.get? k := by
  rw [h.get?_eq, hk]
  rfl

theorem Fills.get?_of_some (h : Fills base ps files t u) (hk : files k = some content) :
    u.get? k = some (.file content) := by
  rw [h.get?_eq, hk]
  rfl

theorem Fills.keeps (h : Fills base ps files t u) : t.Keeps u := by
  intro k e hk
  cases hfile : files k with
  | none => exact ⟨e, by rw [h.get?_of_none hfile, hk], Entry.Alike.refl e⟩
  | some content =>
      refine ⟨_, h.get?_of_some hfile, ?_⟩
      rcases h.admits k content hfile with hnone | ⟨old, hold⟩
      · rw [hnone] at hk
        cases hk
      · rw [hold] at hk
        cases hk
        trivial

theorem Fills.extends (h : Fills base ps files t u) : Extends base ps t u where
  keeps := h.keeps
  fresh k e hk := by
    cases hfile : files k with
    | none => exact Or.inl (by rw [← h.get?_of_none hfile, hk])
    | some content =>
        rw [h.get?_of_some hfile] at hk
        obtain ⟨p, hp, d, n, hkd, hleads⟩ := h.leads k content hfile
        exact Or.inr (Or.inr ⟨p, hp, d, n, content, hkd, (Option.some.inj hk).symm, hleads⟩)

theorem Fills.admits_of_admits (h : Fills base ps files t u) (hk : u.Admits k) : t.Admits k := by
  cases hfile : files k with
  | none =>
      unfold Admits at hk
      rwa [h.get?_of_none hfile] at hk
  | some content => exact h.admits k content hfile

theorem Puts.fills {p : Path} {d : Location} {n : Name} (h : t.Puts u (d ++ [n]) content)
    (hp : p ∈ ps) (hleads : u.Leads base p d n) :
    Fills base ps (oneFile (d ++ [n]) content) t u where
  get?_eq k := by
    rw [h.get?_eq, oneFile]
    split <;> rfl
  admits k new hk := by
    unfold oneFile at hk
    split at hk
    case isTrue heq => exact heq ▸ h.admits
    case isFalse => cases hk
  leads k new hk := by
    unfold oneFile at hk
    split at hk
    case isTrue heq => exact ⟨p, hp, d, n, heq, hleads⟩
    case isFalse => cases hk

theorem Fills.trans (h₁ : Fills base ps files t u) (h₂ : Fills base ps others u v) :
    Fills base ps (fun k => (others k).or (files k)) t v where
  get?_eq k := by
    rw [h₂.get?_eq, h₁.get?_eq]
    cases others k <;> rfl
  admits k new hk := by
    rcases Option.or_eq_some_iff.mp hk with hsecond | ⟨-, hfirst⟩
    · exact h₁.admits_of_admits (h₂.admits k new hsecond)
    · exact h₁.admits k new hfirst
  leads k new hk := by
    rcases Option.or_eq_some_iff.mp hk with hsecond | ⟨-, hfirst⟩
    · exact h₂.leads k new hsecond
    · obtain ⟨p, hp, d, n, hkd, hleads⟩ := h₁.leads k new hfirst
      exact ⟨p, hp, d, n, hkd, hleads.mono h₂.keeps⟩

/-- One file written to a tree and to what it has been filled to, in a place of its own. -/
theorem Fills.beside (h : Fills base ps files t u) (ht : t.Puts v l content)
    (hu : u.Puts w l content) (hl : files l = none) : Fills base ps files v w where
  get?_eq k := by
    rw [ht.get?_eq, hu.get?_eq, h.get?_eq]
    by_cases hk : k = l
    · rw [if_pos hk, if_pos hk, hk, hl]
      rfl
    · rw [if_neg hk, if_neg hk]
  admits k new hk := by
    have hne : k ≠ l := by
      rintro rfl
      rw [hl] at hk
      cases hk
    have hadmits := h.admits k new hk
    unfold Admits at hadmits ⊢
    rwa [ht.get?_ne hne]
  leads k new hk := by
    obtain ⟨p, hp, d, n, hkd, hleads⟩ := h.leads k new hk
    exact ⟨p, hp, d, n, hkd, hleads.mono hu.keeps⟩

/-- Filling a tree with some files and then with others makes the same tree as the other way round,
if no two of them have one place. -/
theorem Fills.eq_of_swap {x y : Tree} (hu : Fills base ps files t u) (hv : Fills base qs others t v)
    (hapart : Apart files others) (hx : Fills base qs others u x)
    (hy : Fills base ps files v y) : x = y := by
  refine ext_get? fun k => ?_
  rw [hx.get?_eq, hy.get?_eq, hu.get?_eq, hv.get?_eq]
  rcases hapart k with hnone | hnone
  · rw [hnone]
    rfl
  · rw [hnone]
    rfl

end Tree
end AssetPress
