import AssetPress.Proofs.Build.Placement
import AssetPress.Proofs.Text.Utf8

/-!
# Builds of different versions

What a second build makes of the artifacts of a first one that went to the same directory under
another version.  Without slashes in the versions all of them are entries of that directory, so
only a build that gives one of its own artifacts the same name can write over them.  Names of
different kinds can be equal, since one stem begins with the other (`output_eq_iff`): a first
artifact is lost exactly if the versions differ by the rest of that stem
(`Request.Retakes`, `kept_of_buildIn`), and its file then is under another banner
(`eq_of_common_banner`).
-/

namespace AssetPress

/-! ### Names and banners -/

/-- By how much the stem of the stylesheet artifacts is longer. -/
def stylePart : String := "CSS_"

theorem styleStem_eq : styleStem = scriptStem ++ stylePart := by decide

theorem stem_append_eq_iff (v w : String) :
    scriptStem ++ v ++ artifactEnding = styleStem ++ w ++ artifactEnding ↔ v = stylePart ++ w := by
  rw [String.append_left_inj, styleStem_eq, String.append_assoc, String.append_right_inj]

/-- Different artifacts of different versions have one name in these two cases only. -/
theorem AssetKind.output_eq_iff {v w : String} (hvw : v ≠ w) (kind kind' : AssetKind) :
    kind.output v = kind'.output w ↔
      kind = .script ∧ kind' = .stylesheet ∧ v = stylePart ++ w ∨
        kind = .stylesheet ∧ kind' = .script ∧ w = stylePart ++ v := by
  have hsame : ∀ stem : String, stem ++ v ++ artifactEnding ≠ stem ++ w ++ artifactEnding := by
    intro stem
    rw [ne_eq, String.append_left_inj, String.append_right_inj]
    exact hvw
  cases kind with
  | script =>
      cases kind' with
      | script => simpa [output] using hsame scriptStem
      | stylesheet => simpa [output, stem] using stem_append_eq_iff v w
  | stylesheet =>
      cases kind' with
      | script => simpa [output, stem, eq_comm] using stem_append_eq_iff w v
      | stylesheet => simpa [output] using hsame styleStem

theorem eq_of_append_sep {α : Type} [DecidableEq α] {sep : α} {xs ys as bs : List α}
    (hx : sep ∉ xs) (hy : sep ∉ ys) (h : xs ++ sep :: as = ys ++ sep :: bs) : xs = ys := by
  have hfields := congrArg (List.splitOn sep) h
  rw [List.splitOn_append_cons_self, List.splitOn_append_cons_self, List.splitOn_eq_singleton hx,
    List.splitOn_eq_singleton hy] at hfields
  exact (List.cons.inj hfields).1

/-- A content begins with the banner of at most one version without slashes. -/
theorem eq_of_common_banner {v w : String} (hv : slash ∉ Utf8.encode v)
    (hw : slash ∉ Utf8.encode w) {content : Bytes} (h₁ : Utf8.encode (banner v) <+: content)
    (h₂ : Utf8.encode (banner w) <+: content) : v = w := by
  -- Behind the version the banner has its second slash.
  have hbanner : ∀ (x : String) (rest : Bytes), Utf8.encode (banner x) ++ rest =
      Utf8.encode "/*! PeteJS " ++ ((Utf8.encode x ++ [32, 42]) ++ slash :: 10 :: rest) := by
    intro x rest
    have hend : Utf8.encode " */\n" = [32, 42, slash, 10] := by decide
    rw [banner, Utf8.encode_append, Utf8.encode_append, hend]
    simp
  have hplain : ∀ x : String, slash ∉ Utf8.encode x → slash ∉ Utf8.encode x ++ [32, 42] := by
    intro x hx
    simpa [slash] using hx
  obtain ⟨rest₁, hrest₁⟩ := h₁
  obtain ⟨rest₂, hrest₂⟩ := h₂
  have heq := hrest₁.trans hrest₂.symm
  rw [hbanner, hbanner] at heq
  have hversions := eq_of_append_sep (hplain v hv) (hplain w hw) (List.append_cancel_left heq)
  exact Utf8.encode_injective (List.append_cancel_right hversions)

/-! ### Two builds -/

namespace Request

/-- The build of `r` makes an artifact with the name that `a` has, an artifact of another version:
one of the versions is the other behind the rest of the longer stem. -/
def Retakes (r : Request) (version : String) (a : Artifact) : Prop :=
  a.kind = .script ∧ version = stylePart ++ r.version ∧ r.styleSource.isSome = true ∨
    a.kind = .stylesheet ∧ r.version = stylePart ++ version

variable {base : Location} {minify : Minifier} {r r₁ r₂ : Request} {t u u₁ u₂ : Tree}
  {report report₁ report₂ : Report}

theorem mem_kinds_iff {kind : AssetKind} :
    kind ∈ r.kinds ↔ kind = .script ∨ kind = .stylesheet ∧ r.styleSource.isSome = true := by
  cases hs : r.styleSource <;> simp [kinds, hs]

theorem exists_mem_kinds_iff {version : String} (hne : version ≠ r.version) {a : Artifact}
    (ha : a.name = a.kind.output version) :
    (∃ kind ∈ r.kinds, kind.output r.version = a.name) ↔ r.Retakes version a := by
  simp only [ha, mem_kinds_iff, eq_comm (b := a.kind.output version),
    AssetKind.output_eq_iff hne, Retakes]
  constructor
  · rintro ⟨kind, hkind, ⟨hscript, rfl, hv⟩ | ⟨hstyle, rfl, hv⟩⟩
    · rcases hkind with hkind | ⟨-, hsome⟩
      · cases hkind
      · exact Or.inl ⟨hscript, hv, hsome⟩
    · exact Or.inr ⟨hstyle, hv⟩
  · rintro (⟨hscript, hv, hsome⟩ | ⟨hstyle, hv⟩)
    · exact ⟨.stylesheet, Or.inr ⟨rfl, hsome⟩, Or.inl ⟨hscript, rfl, hv⟩⟩
    · exact ⟨.script, Or.inl rfl, Or.inr ⟨hstyle, rfl, hv⟩⟩

theorem exists_artifact_iff (h : r.buildIn base t minify = (.ok report, u)) {name : String} :
    (∃ b ∈ report.artifacts, b.name = name) ↔ ∃ kind ∈ r.kinds, kind.output r.version = name := by
  rw [← kinds_of_buildIn h]
  constructor
  · rintro ⟨b, hb, rfl⟩
    exact ⟨b.kind, List.mem_map.mpr ⟨b, hb, rfl⟩, (names_of_buildIn h hb).1.symm⟩
  · rintro ⟨_, hkind, rfl⟩
    obtain ⟨b, hb, rfl⟩ := List.mem_map.mp hkind
    exact ⟨b, hb, (names_of_buildIn h hb).1⟩

/-- What a build does not write over stays: without slashes in the version a file whose name no
artifact of the build has keeps its content. -/
theorem get?_of_buildIn_ok (hb : t.get? base = some .dir) (ht : t.NoLinks)
    (hv : slash ∉ Utf8.encode r.version) (h : r.buildIn base t minify = (.ok report, u))
    {d : Location} {n : Name} {content : Bytes} (hf : t.get? (d ++ [n]) = some (.file content))
    (hn : ∀ b ∈ report.artifacts, Utf8.encode b.name ≠ n.bytes) :
    u.get? (d ++ [n]) = some (.file content) := by
  have hextends := extends_of_buildIn_ok hb h
  refine hextends.get?_of_file hf fun p hp new hres => ?_
  obtain ⟨b, hmem, rfl⟩ := List.mem_map.mp hp
  obtain ⟨hname, hpath⟩ := names_of_buildIn h hmem
  rw [hpath, hname] at hres
  have hbytes := (Tree.denotes_of_resolve (hextends.noLinks ht) hv hres).2
  rw [← hname] at hbytes
  exact hn b hmem hbytes.symm

/-- Two builds into one directory, of different versions without slashes, in a tree without links.
After the first one the path of each of its artifacts leads to a file that is as told, and
after the second one to the same file with the same bytes, unless the second build makes an
artifact of that name: then the bytes are others. -/
theorem kept_of_buildIn (hb : t.get? base = some .dir) (ht : t.NoLinks)
    (hdir : r₁.buildDir = r₂.buildDir) (hne : r₁.version ≠ r₂.version)
    (hv₁ : slash ∉ Utf8.encode r₁.version) (hv₂ : slash ∉ Utf8.encode r₂.version)
    (h₁ : r₁.buildIn base t minify = (.ok report₁, u₁))
    (h₂ : r₂.buildIn base u₁ minify = (.ok report₂, u₂)) :
    ∀ a ∈ report₁.artifacts, ∃ d n content content',
      u₁.resolve base false a.path = .ok (.file d n content) ∧ a.Describes r₁.version content ∧
      u₂.resolve base false a.path = .ok (.file d n content') ∧
      (content' = content ↔ ¬ r₂.Retakes r₁.version a) := by
  intro a ha
  have hextends₁ := extends_of_buildIn_ok hb h₁
  have hb₁ : u₁.get? base = some .dir := hextends₁.keeps.get?_dir hb
  have hu₁ : u₁.NoLinks := hextends₁.noLinks ht
  have hkeeps := (extends_of_buildIn_ok hb₁ h₂).keeps
  obtain ⟨hname, hpath⟩ := names_of_buildIn h₁ ha
  obtain ⟨d, n, content, hres, hbanner, htold⟩ := exists_file_of_buildIn hb h₁ ha
  obtain ⟨content', hget⟩ := hkeeps.exists_file (Tree.holds_of_resolve hb₁ hres)
  have hres₂ := Tree.resolve_of_keeps hkeeps id hres (.file content hget)
  refine ⟨d, n, content, content', hres, htold ht (climbsOut_of_not_mem hv₁), hres₂, ?_⟩
  rw [← exists_mem_kinds_iff hne hname, ← exists_artifact_iff h₂]
  constructor
  · -- An artifact of the same name has the same path, and there is its own banner.
    rintro rfl ⟨b, hmem, hsame⟩
    obtain ⟨_, _, _, hres', hbanner', -⟩ := exists_file_of_buildIn hb₁ h₂ hmem
    rw [(names_of_buildIn h₂ hmem).2, hsame, ← hdir, ← hpath, hres₂] at hres'
    cases hres'
    exact hne (eq_of_common_banner hv₁ hv₂ hbanner hbanner')
  · intro hother
    have hn : n.bytes = Utf8.encode a.name := by
      rw [hpath, hname] at hres
      rw [(Tree.denotes_of_resolve hu₁ hv₁ hres).2, hname]
    have hkept := get?_of_buildIn_ok hb₁ hu₁ hv₂ h₂ (Tree.holds_of_resolve hb₁ hres)
      fun b hmem heq => hother ⟨b, hmem, Utf8.encode_injective (heq.trans hn)⟩
    rw [hget] at hkept
    cases hkept
    rfl

/-- A second build that makes no stylesheet artifact spares the script artifact of that name. -/
theorem kept_of_buildIn_scripts :
    let t := Tree.workplace
    let r₁ : Request := ⟨"CSS_1", .ofString "/", some (.ofString "/"), .ofString "/out"⟩
    let r₂ : Request := ⟨"1", .ofString "/", none, .ofString "/out"⟩
    ∃ report₁ u₁ report₂ u₂, t.get? [] = some .dir ∧ t.NoLinks ∧ r₁.buildDir = r₂.buildDir ∧
      r₁.version ≠ r₂.version ∧ slash ∉ Utf8.encode r₁.version ∧ slash ∉ Utf8.encode r₂.version ∧
      r₁.buildIn [] t = (.ok report₁, u₁) ∧ r₂.buildIn [] u₁ = (.ok report₂, u₂) ∧
      report₁.artifacts.length = 2 ∧ ∀ a ∈ report₁.artifacts, ∃ d n content,
        u₁.resolve [] false a.path = .ok (.file d n content) ∧ a.Describes r₁.version content ∧
        u₂.resolve [] false a.path = .ok (.file d n content) := by
  intro t r₁ r₂
  have hok : r₁.Yields [] t fun report₁ u₁ =>
      report₁.artifacts.length = 2 ∧ r₂.Yields [] u₁ fun _ _ => True := by decide +kernel
  obtain ⟨report₁, u₁, h₁, hlength, report₂, u₂, h₂, -⟩ := hok
  refine ⟨report₁, u₁, report₂, u₂, t.get?_root, Tree.noLinks_workplace, rfl, by decide,
    by decide, by decide, h₁, h₂, hlength, fun a ha => ?_⟩
  have hdir : r₁.buildDir = r₂.buildDir := rfl
  obtain ⟨d, n, content, content', hres, htold, hres₂, hkept⟩ := kept_of_buildIn t.get?_root
    Tree.noLinks_workplace hdir (by decide) (by decide) (by decide) h₁ h₂ a ha
  have hother : ¬ r₂.Retakes r₁.version a := by
    rintro (⟨-, -, hstyles⟩ | ⟨-, hversion⟩)
    · cases hstyles
    · exact absurd hversion (by decide)
  rw [hkept.mpr hother] at hres₂
  exact ⟨d, n, content, hres, htold, hres₂⟩

/-- Two builds of different versions that both succeed, and yet the second one has written over
the script artifact of the first one. -/
theorem exists_not_kept :
    let t := Tree.workplace
    let r₁ : Request := ⟨"CSS_1", .ofString "/", none, .ofString "/out"⟩
    let r₂ : Request := ⟨"1", .ofString "/", some (.ofString "/"), .ofString "/out"⟩
    ∃ report₁ u₁ report₂ u₂, t.NoLinks ∧ r₁.buildDir = r₂.buildDir ∧
      r₁.version ≠ r₂.version ∧ slash ∉ Utf8.encode r₁.version ∧ slash ∉ Utf8.encode r₂.version ∧
      r₁.buildIn [] t = (.ok report₁, u₁) ∧ r₂.buildIn [] u₁ = (.ok report₂, u₂) ∧
      ¬ ∀ a ∈ report₁.artifacts, ∃ d n content,
        u₂.resolve [] false a.path = .ok (.file d n content) ∧
        content.length = a.minifiedSize ∧ Sha256.hexDigest content = a.sha256 := by
  intro t r₁ r₂
  have hok : r₁.Yields [] t fun report₁ u₁ => r₂.Yields [] u₁ fun _ u₂ =>
      ∃ a ∈ report₁.artifacts,
        (u₂.read [] a.path).toOption.map List.length ≠ some a.minifiedSize := by decide +kernel
  obtain ⟨report₁, u₁, h₁, report₂, u₂, h₂, a, ha, hlost⟩ := hok
  refine ⟨report₁, u₁, report₂, u₂, Tree.noLinks_workplace, rfl, by decide, by decide, by decide,
    h₁, h₂, fun hall => ?_⟩
  obtain ⟨d, n, content, hres, hlength, -⟩ := hall a ha
  have hread : u₂.read [] a.path = .ok content := by
    rw [Tree.read, hres]
    rfl
  rw [hread] at hlost
  exact hlost (congrArg some hlength)

end Request
end AssetPress
