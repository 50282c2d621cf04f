import AssetPress.Proofs.Build.Again
import AssetPress.Proofs.Build.Versions
import AssetPress.Proofs.Tree.Filling

/-!
# Builds that commute

A build that succeeds makes directories and then writes its artifacts, one in each half
(`Request.Half`).  Which directories it makes depends on the build directory alone
(`prepare_join_eq`), and what another version writes there is neither a source of the build nor in
its way (`Request.Beside`).  So two builds of different
versions into one directory can be done in either order: each succeeds with the report that it has
alone, and in the end the tree is the same (`Request.buildIn_comm`).
-/

namespace AssetPress

open Session

variable {base : Location} {minify : Minifier} {s s' : Session} {dir p : Path} {t u v w : Tree}

/-! ### Directories -/

namespace Session

theorem Prepares.eq_of_prepares (hv : Prepares base dir p t v) (hw : Prepares base dir p t w) :
    v = w := by
  obtain ⟨m, hm, rfl⟩ := hv.exists_perform (s := .ofTree t) rfl
  obtain ⟨m', hm', rfl⟩ := hw.exists_perform (s := .ofTree t) rfl
  rw [hm] at hm'
  cases hm'
  rfl

/-- All names in the build directory need the same directories. -/
theorem prepare_join_eq {x y : Path} (hx : slash ∉ x.bytes) (hy : slash ∉ y.bytes)
    (hxlong : 2 < x.bytes.length) (hylong : 2 < y.bytes.length) :
    prepare base dir (dir.join x) = prepare base dir (dir.join y) := by
  unfold prepare ensureParent
  rw [Path.parent?_join dir hx hxlong, Path.parent?_join dir hy hylong]

end Session

namespace Request

variable {r r₁ r₂ : Request}

theorem prepare_artifactPath_eq (hdir : r₁.buildDir = r₂.buildDir)
    (h₁ : slash ∉ Utf8.encode r₁.version) (h₂ : slash ∉ Utf8.encode r₂.version)
    (kind kind' : AssetKind) :
    prepare base r₁.buildDir (r₁.artifactPath kind) =
      prepare base r₂.buildDir (r₂.artifactPath kind') := by
  have hlong : ∀ (kind : AssetKind) (version : String),
      2 < (Utf8.encode (kind.output version)).length := by
    intro kind version
    have hending : (Utf8.encode artifactEnding).length = 7 := by decide
    rw [AssetKind.output, Utf8.encode_append, List.length_append, hending]
    omega
  have hplain : ∀ (kind : AssetKind) {version : String}, slash ∉ Utf8.encode version →
      slash ∉ Utf8.encode (kind.output version) :=
    fun kind version hv hmem => hv ((kind.slash_mem_output_iff version).mp hmem)
  unfold artifactPath
  rw [hdir]
  exact prepare_join_eq (hplain kind h₁) (hplain kind' h₂) (hlong _ _) (hlong _ _)

theorem prepares_artifactPath (hdir : r₁.buildDir = r₂.buildDir)
    (h₁ : slash ∉ Utf8.encode r₁.version) (h₂ : slash ∉ Utf8.encode r₂.version)
    {kind : AssetKind} (kind' : AssetKind)
    (h : Prepares base r₁.buildDir (r₁.artifactPath kind) t v) :
    Prepares base r₂.buildDir (r₂.artifactPath kind') t v := by
  unfold Prepares at h ⊢
  rwa [← prepare_artifactPath_eq hdir h₁ h₂ kind kind']

/-! ### Halves of builds -/

/-- The task `x` makes the artifact `a` of a kind, which the request asks for: it takes tree `t` to
tree `v` by making directories, and then to `u` by writing a file.  It makes the same artifact
wherever another request has filled `v` with other files. -/
structure Half (base : Location) (r : Request) (kind : AssetKind)
    (x : ExceptT CompressError (StateM Session) Artifact) (a : Artifact) (t v u : Tree)
    (l : Location) (content : Bytes) : Prop where
  prepares : Prepares base r.buildDir (r.artifactPath kind) t v
  fills : v.Fills base r.artifactPaths (oneFile l content) u
  beside : ∀ (r' : Request) (files : Location → Option Bytes) (z : Session),
    v.Fills base r'.artifactPaths files z.tree → files l = none →
      ∃ z', perform z x = (.ok a, z') ∧ u.Fills base r'.artifactPaths files z'.tree

theorem half_of_stage {kind : AssetKind}
    {x : ExceptT CompressError (StateM Session) Artifact} {a : Artifact} {P : Tree → Prop}
    {d : Location} {n : Name} {content : Bytes} (hb : t.get? base = some .dir) (ht : t.NoLinks)
    (h : Stage base r.buildDir (r.artifactPath kind) P x a t v u d n content)
    (hP : ∀ (r' : Request) (w : Tree), t.Extends base r'.artifactPaths w → P w) :
    Half base r kind x a t v u (d ++ [n]) content where
  prepares := h.prepares
  fills := h.puts.fills (r.artifactPath_mem kind) (h.leads.mono h.puts.keeps)
  beside r' files z hz hfree := by
    have hadds := h.prepares.addsDirs
    have hextends := hz.extends
    have hafter : v.After z.tree := ⟨hz.keeps, hextends.noLinks (hadds.noLinks ht)⟩
    have hadmits : z.tree.Admits (d ++ [n]) := by
      have hv := h.puts.admits
      unfold Tree.Admits at hv ⊢
      rwa [hz.get?_of_none hfree]
    obtain ⟨z', hdone, hputs⟩ := h.again z (h.prepares.again ht hb hafter) hz.keeps hadmits
      (hP r' z.tree (hadds.extends.trans hextends))
    exact ⟨z', hdone, hz.beside h.puts hputs hfree⟩

theorem exists_half_of_pressScripts {a : Artifact} (hb : s.tree.get? base = some .dir)
    (ht : s.tree.NoLinks)
    (h : perform s ((workbench base minify).pressScripts r.scriptJob) = (.ok a, s')) :
    ∃ v l content, Half base r .script ((workbench base minify).pressScripts r.scriptJob) a s.tree v
      s'.tree l content := by
  obtain ⟨v, d, n, content, hstage⟩ := exists_stage_pressScripts hb h
  exact ⟨v, d ++ [n], content, half_of_stage hb ht hstage fun r' w hw =>
    sameTexts_listed hb ht hw r.scripts⟩

theorem exists_half_of_pressStyles {b : Artifact} {source : Path}
    (hb : s.tree.get? base = some .dir) (ht : s.tree.NoLinks)
    (h : perform s ((workbench base minify).pressStyles (r.styleJob source)) = (.ok b, s')) :
    ∃ v l content, Half base r .stylesheet
      ((workbench base minify).pressStyles (r.styleJob source)) b s.tree v s'.tree l content := by
  obtain ⟨paths, v, d, n, content, hpaths, hstage⟩ := exists_stage_pressStyles hb h
  exact ⟨v, d ++ [n], content, half_of_stage hb ht hstage fun r' w hw =>
    ⟨pathsIn_of_extends hb ht hw hpaths, sameTexts_stylesheets hb ht hw hpaths⟩⟩

/-! ### Builds beside other files -/

/-- The build of a request takes tree `t` to `u`: it makes directories, which takes `t` to `v`, and
writes some files.  It gives the same report wherever another request has filled `v` with other
files, and then `u` is filled with these. -/
structure Beside (base : Location) (minify : Minifier) (r : Request) (report : Report)
    (t v u : Tree) (files : Location → Option Bytes) : Prop where
  prepares : Prepares base r.buildDir (r.artifactPath .script) t v
  fills : v.Fills base r.artifactPaths files u
  beside : ∀ (r' : Request) (others : Location → Option Bytes) (z : Tree),
    v.Fills base r'.artifactPaths others z → Apart files others →
      ∃ w, r.buildIn base z minify = (.ok report, w) ∧ u.Fills base r'.artifactPaths others w

theorem tree_opened (r : Request) (t : Tree) :
    (logged Session.log r.opening (.ofTree t)).tree = t := tree_logged _ _

section halves
variable {a b : Artifact} {source : Path} {m : Session} {l l' : Location} {content content' : Bytes}

theorem Half.beside_of_noStyles (hv : r.validate = .ok ()) (hstyles : r.styleSource = none)
    (h : Half base r .script ((workbench base minify).pressScripts r.scriptJob) a t v u l content) :
    Beside base minify r ⟨r.version, r.buildDir, [a]⟩ t v u (oneFile l content) where
  prepares := h.prepares
  fills := h.fills
  beside r' others z hz hapart := by
    have hl : others l = none := hapart.eq_none (isSome_oneFile_self l content)
    obtain ⟨z', hagain, hw⟩ := h.beside r' others (logged Session.log r.opening (.ofTree z))
      ((tree_opened r z).symm ▸ hz) hl
    exact ⟨z'.tree, buildIn_of_noStyles hv hagain hstyles, hw⟩

/-- The second half of a build finds the directories that the first one has made. -/
theorem Half.eq_of_half (hslash : slash ∉ Utf8.encode r.version) (hb : t.get? base = some .dir)
    (ht : t.NoLinks) {x y : ExceptT CompressError (StateM Session) Artifact}
    (h : Half base r .script x a t v u l content)
    (h' : Half base r .stylesheet y b u w u' l' content') : w = u := by
  have hafter : v.After u := ⟨h.fills.keeps,
    h.fills.extends.noLinks (h.prepares.addsDirs.noLinks ht)⟩
  have hagain := h.prepares.again ht hb hafter
  exact h'.prepares.eq_of_prepares (prepares_artifactPath rfl hslash hslash .stylesheet hagain)

theorem Half.beside_of_styles (hv : r.validate = .ok ()) (hstyles : r.styleSource = some source)
    (h : Half base r .script ((workbench base minify).pressScripts r.scriptJob) a t v u l content)
    (h' : Half base r .stylesheet ((workbench base minify).pressStyles (r.styleJob source)) b u u w
      l' content') :
    Beside base minify r ⟨r.version, r.buildDir, [a, b]⟩ t v w
      (fun k => (oneFile l' content' k).or (oneFile l content k)) where
  prepares := h.prepares
  fills := h.fills.trans h'.fills
  beside r' others z hz hapart := by
    have hl : others l = none := hapart.eq_none (by simp [isSome_oneFile_self])
    have hl' : others l' = none := hapart.eq_none (by simp [isSome_oneFile_self])
    obtain ⟨z₁, hfirst, hz₁⟩ := h.beside r' others (logged Session.log r.opening (.ofTree z))
      ((tree_opened r z).symm ▸ hz) hl
    obtain ⟨z₂, hsecond, hz₂⟩ := h'.beside r' others
      (logged Session.log [.pressingStyles source (styleOutput r.version)] z₁)
      ((tree_logged _ z₁).symm ▸ hz₁) hl'
    exact ⟨z₂.tree, buildIn_of_styles hv hfirst hstyles hsecond, hz₂⟩

end halves

/-- Every build that succeeds in a tree without links is one that other files do not disturb. -/
theorem exists_beside_of_buildIn {report : Report} (hb : t.get? base = some .dir) (ht : t.NoLinks)
    (hslash : slash ∉ Utf8.encode r.version) (h : r.buildIn base t minify = (.ok report, u)) :
    ∃ v files, Beside base minify r report t v u files := by
  have hopened := tree_opened r t
  cases succeeds_of_buildIn h with
  | scripts hv hstyles hs =>
      obtain ⟨v, l, content, hhalf⟩ :=
        exists_half_of_pressScripts (by rwa [hopened]) (by rwa [hopened]) hs
      rw [hopened] at hhalf
      exact ⟨v, _, hhalf.beside_of_noStyles hv hstyles⟩
  | both hv hstyles hs hs' =>
      obtain ⟨v, l, content, hfirst⟩ :=
        exists_half_of_pressScripts (by rwa [hopened]) (by rwa [hopened]) hs
      rw [hopened] at hfirst
      have hkeeps := hfirst.prepares.addsDirs.keeps.trans hfirst.fills.keeps
      have hlinks := hfirst.fills.extends.noLinks (hfirst.prepares.addsDirs.noLinks ht)
      obtain ⟨w, l', content', hsecond⟩ := exists_half_of_pressStyles
        (by rw [tree_logged]; exact hkeeps.get?_dir hb) (by rwa [tree_logged]) hs'
      rw [tree_logged] at hsecond
      obtain rfl := hfirst.eq_of_half hslash hb ht hsecond
      exact ⟨v, _, hfirst.beside_of_styles hv hstyles hsecond⟩

/-! ### Two builds -/

/-- At the location there is an entry with the name of an artifact of the version. -/
def NamedAfter (version : String) (k : Location) : Prop :=
  ∃ (kind : AssetKind) (d : Location) (n : Name), k = d ++ [n] ∧
    n.bytes = Utf8.encode (kind.output version)

theorem namedAfter_of_fills {files : Location → Option Bytes} (hu : u.NoLinks)
    (hslash : slash ∉ Utf8.encode r.version) (h : t.Fills base r.artifactPaths files u)
    {k : Location} {content : Bytes} (hk : files k = some content) : NamedAfter r.version k := by
  obtain ⟨p, hp, d, n, rfl, hleads⟩ := h.leads k content hk
  obtain ⟨kind, rfl⟩ := exists_kind_of_mem_artifactPaths hp
  have hres := hleads.resolve_eq (h.get?_of_some hk)
  exact ⟨kind, d, n, rfl, (Tree.denotes_of_resolve hu hslash hres).2⟩

/-- No entry has the names of artifacts of unrelated versions. -/
theorem not_namedAfter_both {x y : String} (hne : x ≠ y) (hxy : x ≠ stylePart ++ y)
    (hyx : y ≠ stylePart ++ x) {k : Location} (hx : NamedAfter x k) : ¬ NamedAfter y k := by
  rintro ⟨kind', d', n', hd', hn'⟩
  obtain ⟨kind, d, n, rfl, hn⟩ := hx
  obtain ⟨-, rfl⟩ := Location.append_name_inj hd'
  have houtput := Utf8.encode_injective (hn.symm.trans hn')
  rcases (AssetKind.output_eq_iff hne kind kind').mp houtput with ⟨-, -, h⟩ | ⟨-, -, h⟩
  · exact hxy h
  · exact hyx h

/-- Builds of unrelated versions commute.  In a tree without links let two builds succeed, each
for itself, into the same directory, of different versions without slashes of which neither is the
other one behind the rest of the longer stem.  Then each also succeeds after the other, with the
same report, and both orders end in the same tree. -/
theorem buildIn_comm {report₁ report₂ : Report} {u₁ u₂ : Tree} (hb : t.get? base = some .dir)
    (ht : t.NoLinks) (hdir : r₁.buildDir = r₂.buildDir) (hne : r₁.version ≠ r₂.version)
    (hv₁ : slash ∉ Utf8.encode r₁.version) (hv₂ : slash ∉ Utf8.encode r₂.version)
    (h₁₂ : r₁.version ≠ stylePart ++ r₂.version) (h₂₁ : r₂.version ≠ stylePart ++ r₁.version)
    (h₁ : r₁.buildIn base t minify = (.ok report₁, u₁))
    (h₂ : r₂.buildIn base t minify = (.ok report₂, u₂)) :
    ∃ w, r₂.buildIn base u₁ minify = (.ok report₂, w) ∧
      r₁.buildIn base u₂ minify = (.ok report₁, w) := by
  obtain ⟨v, files₁, hfirst⟩ := exists_beside_of_buildIn hb ht hv₁ h₁
  obtain ⟨v₂, files₂, hsecond⟩ := exists_beside_of_buildIn hb ht hv₂ h₂
  obtain rfl : v₂ = v :=
    hsecond.prepares.eq_of_prepares (prepares_artifactPath hdir hv₁ hv₂ .script hfirst.prepares)
  have hlinks := hfirst.prepares.addsDirs.noLinks ht
  have hlinks₁ := hfirst.fills.extends.noLinks hlinks
  have hlinks₂ := hsecond.fills.extends.noLinks hlinks
  have hapart : Apart files₁ files₂ := by
    intro k
    cases hk₁ : files₁ k with
    | none => exact Or.inl rfl
    | some first =>
        cases hk₂ : files₂ k with
        | none => exact Or.inr rfl
        | some second =>
            exact absurd (namedAfter_of_fills hlinks₂ hv₂ hsecond.fills hk₂)
              (not_namedAfter_both hne h₁₂ h₂₁ (namedAfter_of_fills hlinks₁ hv₁ hfirst.fills hk₁))
  obtain ⟨w, hafter₁, hw⟩ := hsecond.beside r₁ files₁ u₁ hfirst.fills hapart.symm
  obtain ⟨w', hafter₂, hw'⟩ := hfirst.beside r₂ files₂ u₂ hsecond.fills hapart
  obtain rfl : w' = w := hfirst.fills.eq_of_swap hsecond.fills hapart hw' hw
  exact ⟨w', hafter₁, hafter₂⟩

/-- One version begins with the rest of the longer stem, but not followed by the other one, and the
way to the stylesheets of that build leads through the directory that both make. -/
theorem buildIn_comm_nested :
    let t := Tree.workplace
    let r₁ : Request := ⟨"2", .ofString "/", some (.ofString "/"), .ofString "/out"⟩
    let r₂ : Request := ⟨"CSS_3", .ofString "/", some (.ofString "/out/.."), .ofString "/out"⟩
    ∃ report₁ u₁ report₂ u₂ w, t.get? [] = some .dir ∧ t.NoLinks ∧ r₁.buildDir = r₂.buildDir ∧
      r₁.version ≠ r₂.version ∧ slash ∉ Utf8.encode r₁.version ∧ slash ∉ Utf8.encode r₂.version ∧
      r₁.version ≠ stylePart ++ r₂.version ∧ r₂.version ≠ stylePart ++ r₁.version ∧
      r₁.buildIn [] t = (.ok report₁, u₁) ∧ r₂.buildIn [] t = (.ok report₂, u₂) ∧
      r₂.buildIn [] u₁ = (.ok report₂, w) ∧ r₁.buildIn [] u₂ = (.ok report₁, w) := by
  intro t r₁ r₂
  have hok₁ : r₁.Yields [] t fun _ _ => True := by decide +kernel
  have hok₂ : r₂.Yields [] t fun _ _ => True := by decide +kernel
  obtain ⟨report₁, u₁, h₁, -⟩ := hok₁
  obtain ⟨report₂, u₂, h₂, -⟩ := hok₂
  have hv₁ : slash ∉ Utf8.encode r₁.version := by decide
  have hv₂ : slash ∉ Utf8.encode r₂.version := by decide
  have hdir : r₁.buildDir = r₂.buildDir := rfl
  obtain ⟨w, hafter₁, hafter₂⟩ := buildIn_comm t.get?_root Tree.noLinks_workplace hdir (by decide)
    hv₁ hv₂ (by decide) (by decide) h₁ h₂
  exact ⟨report₁, u₁, report₂, u₂, w, t.get?_root, Tree.noLinks_workplace, hdir, by decide, hv₁,
    hv₂, by decide, by decide, h₁, h₂, hafter₁, hafter₂⟩

end Request
end AssetPress
