import AssetPress.Proofs.Build.Frame
import AssetPress.Proofs.Session.Again

/-!
# Building again

No source of a build is written over by a build, and none is added: the listed scripts and the
stylesheets of every directory are the same afterwards (`sameTexts_listed`, `pathsIn_of_extends`,
`sameTexts_stylesheets`).  So in a tree without links a build that has succeeded succeeds again,
with the same report, and leaves the tree as it is (`buildIn_again`).
-/

namespace AssetPress

variable {base : Location} {minify : Minifier} {r : Request} {t u : Tree}

namespace Request

/-! ### Sources stay -/

/-- A source that is a text keeps it if no artifact's name ends as its path does. -/
theorem readText_of_extends (hb : t.get? base = some .dir) (ht : t.NoLinks)
    (h : t.Extends base r.artifactPaths u) {p : Path} {ending : Bytes} (hp : ending <:+ p.bytes)
    (hne : ending ≠ []) (hslash : slash ∉ ending)
    (hnot : ∀ n : Name, ending <:+ n.bytes → ¬ n.IsArtifact) {text : String}
    (hread : t.readText base p = .ok text) : u.readText base p = .ok text := by
  obtain ⟨d, n, content, hres, htext⟩ := Tree.readText_eq_ok_iff.mp hread
  obtain ⟨front, hfront⟩ := hp
  have hname := Tree.name_of_resolve ht hres hfront.symm hne hslash
  have hkept := get?_of_extends (h.noLinks ht) h (Tree.holds_of_resolve hb hres) (hnot n hname)
  have hres' := Tree.resolve_of_keeps h.keeps id hres (.file content hkept)
  exact Tree.readText_eq_ok_iff.mpr ⟨d, n, content, hres', htext⟩

/-- The listed scripts of every directory keep their texts. -/
theorem sameTexts_listed (hb : t.get? base = some .dir) (ht : t.NoLinks)
    (h : t.Extends base r.artifactPaths u) (dir : Path) :
    Tree.SameTexts base (SourceOrder.standard.pathsIn dir) t u := by
  intro p hp text hread
  obtain ⟨f, hf, rfl⟩ := List.mem_map.mp hp
  have hplain : ∀ f ∈ SourceOrder.standard.files, Utf8.encode f ≠ [] ∧ slash ∉ Utf8.encode f := by
    decide
  exact readText_of_extends hb ht h (Path.suffix_join dir (.ofString f)) (hplain f hf).1
    (hplain f hf).2 (fun _ => Name.not_isArtifact_of_listed hf) hread

theorem not_isArtifact_of_stylesheet {name : Bytes} (hext : extension? name = some styleExtension)
    {n : Name} (hn : name <:+ n.bytes) : ¬ n.IsArtifact := by
  intro h
  have hstyle : dot :: styleExtension <:+ n.bytes := (suffix_of_extension? hext).trans hn
  have hlong : (dot :: styleExtension).length ≤ (Utf8.encode artifactEnding).length := by decide
  have hnot : ¬ dot :: styleExtension <:+ Utf8.encode artifactEnding := by decide
  exact hnot (List.suffix_of_suffix_length_le hstyle h hlong)

theorem pathsIn_of_extends (hb : t.get? base = some .dir) (ht : t.NoLinks)
    (h : t.Extends base r.artifactPaths u) {dir : Path} {paths : List Path}
    (hpaths : t.pathsIn base dir styleExtension = .ok paths) :
    u.pathsIn base dir styleExtension = .ok paths := by
  rcases Tree.of_pathsIn_ok hpaths with ⟨d, hres, rfl⟩ | ⟨d, n, content, hres, rfl⟩
  · rw [Tree.pathsIn_of_dir (Tree.resolve_of_keeps h.keeps id hres (.dir d))]
    refine congrArg (fun names => Except.ok (names.map fun name => dir.join ⟨name⟩))
      (Tree.namesIn_eq fun n hext => ?_).symm
    have hplain : ¬ n.IsArtifact := not_isArtifact_of_stylesheet hext List.suffix_rfl
    constructor
    · rintro ⟨content, hget⟩
      exact ⟨content, get?_of_extends (h.noLinks ht) h hget hplain⟩
    · rintro ⟨content, hget⟩
      refine ⟨content, Decidable.byContradiction fun hne => ?_⟩
      obtain ⟨p, hp, d', n', hl, hres'⟩ := h.exists_path hget hne
      obtain ⟨rfl, rfl⟩ := Location.append_name_inj hl
      exact hplain (isArtifact_of_resolve (h.noLinks ht) hp hres')
  · obtain ⟨new, hnew⟩ := h.keeps.exists_file (Tree.holds_of_resolve hb hres)
    exact Tree.pathsIn_of_file (Tree.resolve_of_keeps h.keeps id hres (.file content hnew))

theorem sameTexts_stylesheets (hb : t.get? base = some .dir) (ht : t.NoLinks)
    (h : t.Extends base r.artifactPaths u) {dir : Path} {paths : List Path}
    (hpaths : t.pathsIn base dir styleExtension = .ok paths) : Tree.SameTexts base paths t u := by
  intro p hp text hread
  rcases Tree.of_pathsIn_ok hpaths with ⟨d, -, rfl⟩ | ⟨d, n, content, -, rfl⟩
  · obtain ⟨name, hname, rfl⟩ := List.mem_map.mp hp
    obtain ⟨n, _, rfl, -, hext⟩ := Tree.mem_namesIn_iff.mp hname
    obtain ⟨hne, -, -, hslash, -, -⟩ := n.valid
    exact readText_of_extends hb ht h (Path.suffix_join dir ⟨n.bytes⟩) hne hslash
      (fun _ => not_isArtifact_of_stylesheet hext) hread
  · cases hp

end Request

/-! ### The same build -/

namespace Tree

theorem AddsDirs.get?_of_some (h : t.AddsDirs u) {l : Location} {e : Entry}
    (hl : t.get? l = some e) : u.get? l = some e := by
  rcases h l with heq | ⟨hnone, -⟩
  · rw [heq, hl]
  · rw [hnone] at hl
    cases hl

/-- Two files written one after the other, both written again in the same order: the second time
nothing changes, also where both stand at the same place. -/
theorem Puts.eq_of_puts_puts {v w x : Tree} {k l : Location} {first second : Bytes}
    (hfirst : t.get? k = some (.file first)) (hadds : t.AddsDirs v) (hputs : v.Puts u l second)
    (hk : u.Puts w k first) (hl : w.Puts x l second) : x = u := by
  refine ext_get? fun m => ?_
  by_cases hml : m = l
  · rw [hml, hl.get?_self, hputs.get?_self]
  · rw [hl.get?_ne hml]
    by_cases hmk : m = k
    · rw [hmk] at hml ⊢
      rw [hk.get?_self, hputs.get?_ne hml, hadds.get?_of_some hfirst]
    · exact hk.get?_ne hmk

end Tree

namespace Request

open Session

/-- The script half, done again: the same artifact, and nothing but its file is written. -/
theorem exists_scripts_again {a : Artifact} {s s' : Session} (hb : s.tree.get? base = some .dir)
    (ht : s.tree.NoLinks)
    (h : perform s ((workbench base minify).pressScripts r.scriptJob) = (.ok a, s')) :
    ∃ l content, s'.tree.get? l = some (.file content) ∧
      ∀ z : Session, s.tree.Extends base r.artifactPaths z.tree → s'.tree.After z.tree →
        ∃ z', perform z ((workbench base minify).pressScripts r.scriptJob) = (.ok a, z') ∧
          z.tree.Puts z'.tree l content := by
  obtain ⟨l, content, ⟨v, -, hputs⟩, hagain⟩ := exists_settles_pressScripts ht hb h
  exact ⟨l, content, hputs.get?_self,
    fun z hext hz => hagain z ⟨hz, sameTexts_listed hb ht hext r.scripts⟩⟩

/-- The stylesheet half, done again: the same artifact, and nothing but its file is written. -/
theorem exists_styles_again {b : Artifact} {dir : Path} {s s' : Session}
    (hb : s.tree.get? base = some .dir) (ht : s.tree.NoLinks)
    (h : perform s ((workbench base minify).pressStyles (r.styleJob dir)) = (.ok b, s')) :
    ∃ v l content, s.tree.AddsDirs v ∧ v.Puts s'.tree l content ∧
      ∀ z : Session, s.tree.Extends base r.artifactPaths z.tree → s'.tree.After z.tree →
        ∃ z', perform z ((workbench base minify).pressStyles (r.styleJob dir)) = (.ok b, z') ∧
          z.tree.Puts z'.tree l content := by
  obtain ⟨paths, l, content, hpaths, ⟨v, hadds, hputs⟩, hagain⟩ :=
    exists_settles_pressStyles ht hb h
  exact ⟨v, l, content, hadds, hputs, fun z hext hz =>
    hagain z ⟨hz, pathsIn_of_extends hb ht hext hpaths, sameTexts_stylesheets hb ht hext hpaths⟩⟩

section halves
variable {a b : Artifact} {dir : Path} {s s₁ s₂ m z : Session}

/-- The scripts, pressed again where pressing them has ended: nothing changes. -/
theorem exists_scripts_only_again (hb : s.tree.get? base = some .dir) (ht : s.tree.NoLinks)
    (hs : perform s ((workbench base minify).pressScripts r.scriptJob) = (.ok a, s₁))
    (hz : z.tree = s₁.tree) :
    ∃ z₁, perform z ((workbench base minify).pressScripts r.scriptJob) = (.ok a, z₁) ∧
      z₁.tree = s₁.tree := by
  have hextends := Delivers.extends (r := r) hb (of_perform_pressScripts_ok hs)
  obtain ⟨l, content, hl, hagain⟩ := exists_scripts_again hb ht hs
  obtain ⟨z₁, hpressed, hputs⟩ := hagain z (hz ▸ hextends)
    ⟨hz ▸ .refl _, hz ▸ hextends.noLinks ht⟩
  rw [hz] at hputs
  exact ⟨z₁, hpressed, hputs.eq_of_get? hl⟩

/-- Both halves, done again where the second has ended.  In between the script artifact may have
replaced the other one, if both have one path; in the end nothing has changed. -/
theorem exists_both_again (hb : s.tree.get? base = some .dir) (ht : s.tree.NoLinks)
    (hs : perform s ((workbench base minify).pressScripts r.scriptJob) = (.ok a, s₁))
    (hm : m.tree = s₁.tree)
    (hstyles : perform m ((workbench base minify).pressStyles (r.styleJob dir)) = (.ok b, s₂))
    (hz : z.tree = s₂.tree) :
    ∃ z₁, perform z ((workbench base minify).pressScripts r.scriptJob) = (.ok a, z₁) ∧
      ∀ m' : Session, m'.tree = z₁.tree →
        ∃ z₂, perform m' ((workbench base minify).pressStyles (r.styleJob dir)) = (.ok b, z₂) ∧
          z₂.tree = s₂.tree := by
  have hfirst := Delivers.extends (r := r) hb (of_perform_pressScripts_ok hs)
  have hmbase : m.tree.get? base = some .dir := hm ▸ hfirst.keeps.get?_dir hb
  have hsecond := Delivers.extends (r := r) hmbase (of_perform_pressStyles_ok hstyles)
  have hwhole : s.tree.Extends base r.artifactPaths s₂.tree := hfirst.trans (hm ▸ hsecond)
  obtain ⟨k, first, hk, hagain⟩ := exists_scripts_again hb ht hs
  obtain ⟨v, l, second, hadds, hputs, hstylesAgain⟩ :=
    exists_styles_again hmbase (hm ▸ hfirst.noLinks ht) hstyles
  obtain ⟨z₁, hz₁, hputs₁⟩ := hagain z (hz ▸ hwhole)
    ⟨hz ▸ hm ▸ hsecond.keeps, hz ▸ hwhole.noLinks ht⟩
  have hmore := Delivers.extends (r := r) (hz ▸ hwhole.keeps.get?_dir hb)
    (of_perform_pressScripts_ok hz₁)
  rw [hz] at hputs₁ hmore
  refine ⟨z₁, hz₁, fun m' hm' => ?_⟩
  obtain ⟨z₂, hz₂, hputs₂⟩ := hstylesAgain m' (hm' ▸ hsecond.trans hmore)
    ⟨hm' ▸ hputs₁.keeps, hm' ▸ hmore.noLinks (hwhole.noLinks ht)⟩
  rw [hm'] at hputs₂
  exact ⟨z₂, hz₂, Tree.Puts.eq_of_puts_puts (hm ▸ hk) hadds hputs hputs₁ hputs₂⟩

end halves

/-- A build that has succeeded in a tree without links, done again in the tree that it has left
behind, gives the same report and leaves the tree as it is. -/
theorem buildIn_again {report : Report} (hb : t.get? base = some .dir) (ht : t.NoLinks)
    (h : r.buildIn base t minify = (.ok report, u)) :
    r.buildIn base u minify = (.ok report, u) := by
  cases hv : r.validate with
  | error why =>
      rw [buildIn_of_invalid hv] at h
      cases h
  | ok _ =>
      have hopened : ∀ w, (logged Session.log r.opening (.ofTree w)).tree = w :=
        fun w => tree_logged _ _
      rcases hs : perform (logged Session.log r.opening (.ofTree t))
        ((workbench base minify).press.scripts r.scriptJob) with ⟨e | a, s₁⟩
      · rw [buildIn_of_scripts_error hv hs] at h
        cases h
      · cases hstyles : r.styleSource with
        | none =>
            rw [buildIn_of_noStyles hv hs hstyles] at h
            cases h
            obtain ⟨z₁, hagain, hsame⟩ := exists_scripts_only_again
              (by rwa [hopened]) (by rwa [hopened]) hs (hopened s₁.tree)
            rw [buildIn_of_noStyles hv hagain hstyles, hsame]
        | some dir =>
            rcases hb' : perform
              (logged Session.log [.pressingStyles dir (styleOutput r.version)] s₁)
              ((workbench base minify).press.styles (r.styleJob dir)) with ⟨e | b, s₂⟩
            · rw [buildIn_of_styles hv hs hstyles hb'] at h
              cases h
            · rw [buildIn_of_styles hv hs hstyles hb'] at h
              cases h
              obtain ⟨z₁, hagain, hmore⟩ := exists_both_again
                (by rwa [hopened]) (by rwa [hopened]) hs (tree_logged _ _) hb' (hopened s₂.tree)
              obtain ⟨z₂, hlast, hsame⟩ := hmore _ (tree_logged _ _)
              rw [buildIn_of_styles hv hagain hstyles hlast, hsame]
              rfl

/-- A version that climbs, so that both artifacts go to one file, in the directory of the sources:
built twice. -/
theorem buildIn_again_climbing :
    let t := Tree.workplace
    let r : Request := ⟨"/../x", .ofString "/", some (.ofString "/"), .ofString "/"⟩
    ∃ report u, t.get? [] = some .dir ∧ t.NoLinks ∧ r.buildIn [] t = (.ok report, u) ∧
      r.buildIn [] u = (.ok report, u) := by
  intro t r
  have hok : r.Yields [] t fun _ _ => True := by decide +kernel
  obtain ⟨report, u, h, -⟩ := hok
  exact ⟨report, u, t.get?_root, Tree.noLinks_workplace, h,
    buildIn_again t.get?_root Tree.noLinks_workplace h⟩

end Request
end AssetPress
