import AssetPress.Proofs.Tree.Growth

/-!
# Paths in a growing tree

Where a path leads does not change while a tree keeps its entries: a walk that ends in a directory
or at a file ends there in every later tree too, and a walk that may create its last name finds
the file that has been created there (`walk_of_keeps`).  So a written file is found again by its
path, whatever is made or written afterwards (`Leads`, `exists_puts_of_write`), a file can be
written in a later tree as in an earlier one (`exists_puts_leads_of_write`), and of a tree to which
directories and files have been added one can tell which paths lead to the new files (`Extends`).
-/

namespace AssetPress
namespace Tree

/-- What a spot of an earlier tree is in a later one.  `creating` tells whether the walk to it was
one that may create its last name: only such a walk can be taken again once the name is there. -/
inductive Spot.Becomes (creating : Bool) (u : Tree) : Spot → Spot → Prop
  | dir (l : Location) : Becomes creating u (.dir l) (.dir l)
  | file {d : Location} {n : Name} (old : Bytes) {new : Bytes} :
      u.get? (d ++ [n]) = some (.file new) → Becomes creating u (.file d n old) (.file d n new)
  | filled {d : Location} {n : Name} {new : Bytes} : creating = true →
      u.get? (d ++ [n]) = some (.file new) → Becomes creating u (.vacant d n) (.file d n new)
  | vacant {d : Location} {n : Name} :
      u.get? (d ++ [n]) = none → Becomes creating u (.vacant d n) (.vacant d n)

variable {t u v : Tree} {creating creating' : Bool}

theorem walkWith_of_keeps (hk : t.Keeps u) (hc : creating' = true → creating = true)
    {follow follow' : Location → Path → List Step → Bool → Except OsError Spot}
    (hfollow : ∀ d target rest strict spot spot', follow d target rest strict = .ok spot →
      spot.Becomes creating u spot' → follow' d target rest strict = .ok spot')
    {strict : Bool} {d : Location} {steps : List Step} {spot spot' : Spot}
    (h : t.walkWith creating follow strict d steps = .ok spot)
    (hs : spot.Becomes creating u spot') :
    u.walkWith creating' follow' strict d steps = .ok spot' := by
  induction steps generalizing d with
  | nil =>
      cases h
      cases hs
      rfl
  | cons s rest ih =>
      cases s with
      | stay => exact ih h
      | up => exact ih h
      | refused why =>
          unfold walkWith at h
          split at h <;> cases h
      | name n =>
          unfold walkWith at h ⊢
          split at h
          case isTrue => cases h
          case isFalse hfree =>
            -- The later walk may create no more than the earlier one.
            have hfree' : ¬ (creating' && strict && rest.isEmpty) = true := by
              intro hb
              simp only [Bool.and_eq_true] at hb
              exact hfree (by simp [hc hb.1.1, hb.1.2, hb.2])
            rw [if_neg hfree']
            cases hn : t.get? (d ++ [n]) with
            | none =>
                simp only [hn] at h
                split at h
                case isTrue hrest =>
                  cases h
                  cases hs with
                  | filled hcreating hu =>
                      have hstrict : strict = false := by simpa [hcreating, hrest] using hfree
                      simp [hu, hrest, hstrict]
                  | vacant hu => simp [hu, hrest]
                case isFalse => cases h
            | some e =>
                cases e with
                | dir =>
                    simp only [hn] at h
                    simp only [hk.get?_dir hn]
                    exact ih h
                | file content =>
                    simp only [hn] at h
                    split at h
                    case isTrue hend =>
                      cases h
                      cases hs with
                      | file _ hu => simp only [hu, if_pos hend]
                    case isFalse => cases h
                | link target =>
                    simp only [hn] at h
                    simp only [hk.get?_link hn]
                    exact hfollow _ _ _ _ _ _ h hs

theorem walk_of_keeps (hk : t.Keeps u) (hc : creating' = true → creating = true)
    {links : Nat} {strict : Bool} {d : Location} {steps : List Step} {spot spot' : Spot}
    (h : t.walk creating links strict d steps = .ok spot)
    (hs : spot.Becomes creating u spot') :
    u.walk creating' links strict d steps = .ok spot' := by
  induction links generalizing strict d steps spot spot' with
  | zero =>
      refine walkWith_of_keeps hk hc (fun _ _ _ _ _ _ hf _ => ?_) h hs
      cases hf
  | succ links ih => exact walkWith_of_keeps hk hc (fun _ _ _ _ _ _ hf hs' => ih hf hs') h hs

theorem resolve_of_keeps (hk : t.Keeps u) (hc : creating' = true → creating = true)
    {base : Location} {p : Path} {spot spot' : Spot}
    (h : t.resolve base creating p = .ok spot) (hs : spot.Becomes creating u spot') :
    u.resolve base creating' p = .ok spot' := by
  unfold resolve at h ⊢
  cases hp : p.refused? with
  | some why =>
      rw [hp] at h
      cases h
  | none =>
      rw [hp] at h
      exact walk_of_keeps hk hc h hs

theorem holds_of_resolve {base : Location} {p : Path} {spot : Spot}
    (hb : t.get? base = some .dir) (h : t.resolve base creating p = .ok spot) : spot.Holds t := by
  unfold resolve at h
  cases hp : p.refused? with
  | some why =>
      rw [hp] at h
      cases h
  | none =>
      rw [hp] at h
      exact holds_of_walk (get?_start hb p) h

/-! ### Written files -/

/-- Path `p` leads to the file `n` of directory `d`, once it is there, in `t` and in every later
tree. -/
def Leads (t : Tree) (base : Location) (p : Path) (d : Location) (n : Name) : Prop :=
  ∀ w new, t.Keeps w → w.get? (d ++ [n]) = some (.file new) →
    w.resolve base false p = .ok (.file d n new)

theorem Leads.mono {base : Location} {p : Path} {d : Location} {n : Name}
    (h : t.Leads base p d n) (hk : t.Keeps u) : u.Leads base p d n :=
  fun w new hw => h w new (hk.trans hw)

theorem Leads.resolve_eq {base : Location} {p : Path} {d : Location} {n : Name} {content : Bytes}
    (h : t.Leads base p d n) (hf : t.get? (d ++ [n]) = some (.file content)) :
    t.resolve base false p = .ok (.file d n content) := h t content (Keeps.refl t) hf

theorem exists_puts_writeSpot {spot : Spot} {d : Location} {n : Name} (hs : spot.Holds t)
    (hspot : spot = .vacant d n ∨ ∃ old, spot = .file d n old) (content : Bytes) :
    ∃ u, t.writeSpot content spot = .ok u ∧ t.Puts u (d ++ [n]) content := by
  have hwrite : t.writeSpot content spot = .ok (t.insert d n (.file content)) := by
    rcases hspot with rfl | ⟨old, rfl⟩ <;> rfl
  obtain ⟨d', n', hspot', hputs⟩ := puts_of_writeSpot hs hwrite
  have hsame : d' ++ [n'] = d ++ [n] := by
    rcases hspot with rfl | ⟨old, rfl⟩ <;> rcases hspot' with heq | ⟨old', heq⟩ <;> cases heq <;>
      rfl
  exact ⟨_, hwrite, hsame ▸ hputs⟩

/-- Writing puts a file where the path leads from then on.  The same happens in every later tree,
unless something else has come to stand there. -/
theorem exists_puts_leads_of_write {base : Location} {p : Path} {content : Bytes}
    (hb : t.get? base = some .dir) (h : t.write base p content = .ok u) :
    ∃ d n, t.Puts u (d ++ [n]) content ∧ t.Leads base p d n ∧
      ∀ w, t.Keeps w → w.Admits (d ++ [n]) →
        ∃ x, w.write base p content = .ok x ∧ w.Puts x (d ++ [n]) content := by
  unfold write at h
  cases hr : t.resolve base true p with
  | error why =>
      rw [hr] at h
      cases h
  | ok spot =>
      rw [hr] at h
      have hs := holds_of_resolve hb hr
      obtain ⟨d, n, hspot, hputs⟩ := puts_of_writeSpot hs h
      have hbecomes : ∀ {w : Tree} {new : Bytes}, w.get? (d ++ [n]) = some (.file new) →
          spot.Becomes true w (.file d n new) := by
        intro w new hnew
        rcases hspot with rfl | ⟨old, rfl⟩
        · exact .filled rfl hnew
        · exact .file old hnew
      refine ⟨d, n, hputs, fun w new hw hnew => ?_, fun w hw hfree => ?_⟩
      · exact resolve_of_keeps hw (fun _ => rfl) hr (hbecomes hnew)
      · obtain ⟨spot', hspot', hlater⟩ : ∃ spot',
            (spot' = .vacant d n ∨ ∃ old, spot' = .file d n old) ∧ spot.Becomes true w spot' := by
          rcases hfree with hnone | ⟨old, hold⟩
          · rcases hspot with rfl | ⟨old, rfl⟩
            · exact ⟨_, Or.inl rfl, .vacant hnone⟩
            · obtain ⟨new, hnew⟩ := hw.exists_file (show t.get? (d ++ [n]) = _ from hs)
              rw [hnone] at hnew
              cases hnew
          · exact ⟨_, Or.inr ⟨old, rfl⟩, hbecomes hold⟩
        have hres := resolve_of_keeps hw id hr hlater
        rw [write, hres]
        exact exists_puts_writeSpot (holds_of_resolve (hw.get?_dir hb) hres) hspot' content

theorem exists_puts_of_write {base : Location} {p : Path} {content : Bytes}
    (hb : t.get? base = some .dir) (h : t.write base p content = .ok u) :
    ∃ d n, t.Puts u (d ++ [n]) content ∧ u.Leads base p d n := by
  obtain ⟨d, n, hputs, hleads, -⟩ := exists_puts_leads_of_write hb h
  exact ⟨d, n, hputs, hleads.mono hputs.keeps⟩

/-- `u` is `t` with directories added and with files written where the paths `ps` lead. -/
structure Extends (base : Location) (ps : List Path) (t u : Tree) : Prop where
  keeps : t.Keeps u
  fresh : ∀ l e, u.get? l = some e → t.get? l = some e ∨ t.get? l = none ∧ e = .dir ∨
    ∃ p ∈ ps, ∃ d n content, l = d ++ [n] ∧ e = .file content ∧ u.Leads base p d n

section Extends
variable {base : Location} {ps : List Path}

theorem AddsDirs.extends (h : t.AddsDirs u) : Extends base ps t u where
  keeps := h.keeps
  fresh l e hl := by
    rcases h l with heq | ⟨hnone, hdir⟩
    · exact Or.inl (by rw [← heq, hl])
    · rw [hdir] at hl
      exact Or.inr (Or.inl ⟨hnone, (Option.some.inj hl).symm⟩)

theorem extends_of_write {p : Path} {content : Bytes} (hb : t.get? base = some .dir)
    (hp : p ∈ ps) (h : t.write base p content = .ok u) : Extends base ps t u := by
  obtain ⟨d, n, hputs, hleads⟩ := exists_puts_of_write hb h
  refine ⟨hputs.keeps, fun l e hl => ?_⟩
  by_cases hld : l = d ++ [n]
  · rw [hld, hputs.get?_self] at hl
    exact Or.inr (Or.inr ⟨p, hp, d, n, content, hld, (Option.some.inj hl).symm, hleads⟩)
  · exact Or.inl (by rw [← hputs.get?_ne hld, hl])

theorem Extends.mono {qs : List Path} (hpq : ps ⊆ qs) (h : Extends base ps t u) :
    Extends base qs t u where
  keeps := h.keeps
  fresh l e hl := by
    rcases h.fresh l e hl with hold | hdir | ⟨p, hp, hwritten⟩
    · exact Or.inl hold
    · exact Or.inr (Or.inl hdir)
    · exact Or.inr (Or.inr ⟨p, hpq hp, hwritten⟩)

theorem Extends.trans (h₁ : Extends base ps t u) (h₂ : Extends base ps u v) :
    Extends base ps t v := by
  refine ⟨h₁.keeps.trans h₂.keeps, fun l e hl => ?_⟩
  rcases h₂.fresh l e hl with hu | ⟨hnone, rfl⟩ | hwritten
  · -- What `v` did not bring came with `u`, and leads where it did.
    rcases h₁.fresh l e hu with ht | hdir | ⟨p, hp, d, n, content, hld, he, hleads⟩
    · exact Or.inl ht
    · exact Or.inr (Or.inl hdir)
    · exact Or.inr (Or.inr ⟨p, hp, d, n, content, hld, he, hleads.mono h₂.keeps⟩)
  · refine Or.inr (Or.inl ⟨?_, rfl⟩)
    cases ht : t.get? l with
    | none => rfl
    | some old =>
        obtain ⟨e', he', -⟩ := h₁.keeps l old ht
        rw [hnone] at he'
        cases he'
  · exact Or.inr (Or.inr hwritten)

theorem Extends.noLinks (h : Extends base ps t u) (ht : t.NoLinks) : u.NoLinks := by
  intro l target hl
  rcases h.fresh l _ hl with hold | ⟨-, hdir⟩ | ⟨p, -, d, n, content, -, hfile, -⟩
  · exact ht l target hold
  · cases hdir
  · cases hfile

theorem Extends.exists_path (h : Extends base ps t u) {l : Location} {content : Bytes}
    (hl : u.get? l = some (.file content)) (hne : t.get? l ≠ some (.file content)) :
    ∃ p ∈ ps, ∃ d n, l = d ++ [n] ∧ u.resolve base false p = .ok (.file d n content) := by
  rcases h.fresh l _ hl with hold | ⟨-, hdir⟩ | ⟨p, hp, d, n, _, rfl, -, hleads⟩
  · exact absurd hold hne
  · cases hdir
  · exact ⟨p, hp, d, n, rfl, hleads.resolve_eq hl⟩

theorem Extends.get?_of_file (h : Extends base ps t u) {d : Location} {n : Name} {content : Bytes}
    (hf : t.get? (d ++ [n]) = some (.file content))
    (hnot : ∀ p ∈ ps, ∀ new, u.resolve base false p ≠ .ok (.file d n new)) :
    u.get? (d ++ [n]) = some (.file content) := by
  obtain ⟨new, hnew⟩ := h.keeps.exists_file hf
  refine Decidable.byContradiction fun hchanged => ?_
  have hne : t.get? (d ++ [n]) ≠ some (.file new) := by
    intro hsame
    rw [hnew, ← hsame, hf] at hchanged
    exact hchanged rfl
  obtain ⟨p, hp, d', n', hld, hres⟩ := h.exists_path hnew hne
  obtain ⟨rfl, rfl⟩ := Location.append_name_inj hld
  exact hnot p hp new hres

end Extends

/-! ### Trees of files -/

/-- The tree that writing the given files one after the other makes of a tree, their paths seen from
the root; what cannot be written is left out. -/
def withFiles (t : Tree) (files : List (String × String)) : Tree :=
  files.foldl (fun t f => (t.write [] (.ofString f.1) (Utf8.encode f.2)).toOption.getD t) t

/-- The tree that holds the given files at its root. -/
def ofFiles (files : List (String × String)) : Tree := empty.withFiles files

theorem noLinks_write {base : Location} {p : Path} {content : Bytes}
    (hb : t.get? base = some .dir) (ht : t.NoLinks) (h : t.write base p content = .ok u) :
    u.NoLinks := by
  obtain ⟨d, n, hputs, -⟩ := exists_puts_of_write hb h
  exact hputs.noLinks ht

theorem noLinks_ofFiles (files : List (String × String)) : (ofFiles files).NoLinks := by
  have hempty : empty.NoLinks := by
    intro l target h
    by_cases hl : l = []
    · rw [hl, get?_root] at h
      cases h
    · rw [get?_of_ne_nil _ hl] at h
      cases h
  suffices hfold : ∀ t : Tree, t.NoLinks → NoLinks (files.foldl (fun t f =>
      (t.write [] (.ofString f.1) (Utf8.encode f.2)).toOption.getD t) t) from hfold _ hempty
  induction files with
  | nil => exact fun _ ht => ht
  | cons f rest ih =>
      intro t ht
      refine ih _ ?_
      show NoLinks ((t.write [] (.ofString f.1) (Utf8.encode f.2)).toOption.getD t)
      cases hw : t.write [] (.ofString f.1) (Utf8.encode f.2) with
      | error why => exact ht
      | ok u => exact noLinks_write (get?_root t) ht hw

end Tree
end AssetPress
