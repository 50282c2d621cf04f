import AssetPress.Proofs.Build.Delivery
import AssetPress.Proofs.Build.Frame
import AssetPress.Proofs.Tree.Directory

/-!
# Where artifacts are placed

An artifact's path is the build directory with the artifact's name behind it, so in a tree without
links its file lies where the steps of that name lead from the directory that the build directory
denotes (`exists_denotes_of_resolve`).  A name without slashes is one step, and the file is an entry
of that directory; a name with slashes is no entry at all, and its steps may lead anywhere.
So artifacts lie in the build directory exactly if the version has no slash, and then nothing
else is written outside of it (`placed_of_buildIn`).
-/

namespace AssetPress

/-- The directory that a path denotes; where nothing is written that is the base itself. -/
def Tree.Denotes (t : Tree) (base : Location) (p : Path) (l : Location) : Prop :=
  p.bytes = [] ∧ l = base ∨ t.resolve base false p = .ok (.dir l)

/-- The artifact's file is an entry of the build directory, under the artifact's name, and the
artifact's path leads to it. -/
def Artifact.LiesIn (base : Location) (buildDir : Path) (u : Tree) (a : Artifact) : Prop :=
  ∃ l n content, u.Denotes base buildDir l ∧ n.bytes = Utf8.encode a.name ∧
    u.get? (l ++ [n]) = some (.file content) ∧
    u.resolve base false a.path = .ok (.file l n content)

theorem Artifact.not_liesIn {base : Location} {buildDir : Path} {u : Tree} {a : Artifact}
    (h : slash ∈ Utf8.encode a.name) : ¬ a.LiesIn base buildDir u := by
  rintro ⟨_, n, _, -, hn, -, -⟩
  rw [← hn] at h
  exact n.valid.2.2.2.1 h

/-! ### Names by kind -/

namespace AssetKind

variable (kind : AssetKind)

theorem encode_stem_ne_nil : Utf8.encode kind.stem ≠ [] := by
  cases kind <;> decide

theorem slash_not_mem_stem : slash ∉ Utf8.encode kind.stem := by
  cases kind <;> decide

theorem slash_mem_output_iff (version : String) :
    slash ∈ Utf8.encode (kind.output version) ↔ slash ∈ Utf8.encode version := by
  have hending : slash ∉ Utf8.encode artifactEnding := by decide
  rw [output, Utf8.encode_append, Utf8.encode_append]
  simp [kind.slash_not_mem_stem, hending]

theorem isAbsolute_output (version : String) :
    (Path.ofString (kind.output version)).isAbsolute = false :=
  AssetPress.isAbsolute_output version kind.encode_stem_ne_nil kind.slash_not_mem_stem

theorem steps_output_ne_nil (version : String) :
    (Path.ofString (kind.output version)).steps ≠ [] := by
  obtain ⟨piece, after, hsteps, -⟩ := exists_steps_output version
  rw [output, hsteps kind.stem kind.encode_stem_ne_nil kind.slash_not_mem_stem]
  exact List.cons_ne_nil _ _

theorem steps_output {version : String} (hv : slash ∉ Utf8.encode version) :
    (Path.ofString (kind.output version)).steps =
      [Step.ofPiece (Utf8.encode (kind.output version))] := by
  have hplain : slash ∉ Utf8.encode (kind.output version) :=
    fun hmem => hv ((kind.slash_mem_output_iff version).mp hmem)
  have hne : Utf8.encode (kind.output version) ≠ [] := by
    rw [output, Utf8.encode_append, Utf8.encode_append]
    simp [kind.encode_stem_ne_nil]
  rw [Path.steps_eq, Path.ofString, Path.split, List.splitOn_eq_singleton hplain,
    Path.stepsOf_singleton hne]

end AssetKind

/-! ### The directory before a name -/

theorem Path.refused?_of_join {dir right : Path} (hr : right.isAbsolute = false)
    (hne : dir.bytes ≠ []) (h : (dir.join right).refused? = none) : dir.refused? = none := by
  obtain ⟨sep, -, hjoin⟩ := Path.join_bytes_of_relative hr
  refine refused?_of_isPrefix ?_ hne h
  rw [hjoin, List.append_assoc]
  exact List.prefix_append dir.bytes _

theorem Path.steps_of_bytes_eq_nil {p : Path} (h : p.bytes = []) : p.steps = [] := by
  simp [steps_eq, h, split, List.splitOn_nil, stepsOf]

theorem Path.start_of_bytes_eq_nil {p : Path} (h : p.bytes = []) (base : Location) :
    p.start base = base := by
  simp [start, isAbsolute, h]

namespace Tree

variable {base : Location} {minify : Minifier} {dir : Path} {u : Tree}

/-- The file of an artifact lies where the steps of its name lead from the build directory, and it
bears the last of these steps as its name. -/
theorem exists_denotes_of_resolve (hu : u.NoLinks) {kind : AssetKind} {version : String}
    {d : Location} {n : Name} {content : Bytes}
    (h : u.resolve base false (dir.join (.ofString (kind.output version))) =
      .ok (.file d n content)) :
    ∃ l, u.Denotes base dir l ∧ l.follow (Path.ofString (kind.output version)).steps = d ++ [n] ∧
      [.name n] <:+ (Path.ofString (kind.output version)).steps := by
  have hrelative := kind.isAbsolute_output version
  have hp := refused?_of_resolve h
  rw [resolve_of_refused?_eq_none hp, Path.start_join hrelative, Path.steps_join hrelative] at h
  obtain ⟨l, hfirst, more, hrest⟩ : ∃ l,
      u.walk false maxLinks dir.endsWithSlash (dir.start base) dir.steps = .ok (.dir l) ∧ _ :=
    exists_walk_of_append (kind.steps_output_ne_nil version) h
  rw [walk_eq_of_noLinks hu] at hrest
  obtain ⟨hlocation, -, hlast⟩ := location_of_walkWith hu hrest
  refine ⟨l, ?_, hlocation.symm, hlast d n content rfl⟩
  by_cases hempty : dir.bytes = []
  · left
    rw [Path.steps_of_bytes_eq_nil hempty, Path.start_of_bytes_eq_nil hempty] at hfirst
    cases hfirst
    exact ⟨hempty, rfl⟩
  · right
    rw [resolve_of_refused?_eq_none (Path.refused?_of_join hrelative hempty hp)]
    exact hfirst

theorem denotes_of_resolve (hu : u.NoLinks) {kind : AssetKind} {version : String}
    (hv : slash ∉ Utf8.encode version) {d : Location} {n : Name} {content : Bytes}
    (h : u.resolve base false (dir.join (.ofString (kind.output version))) =
      .ok (.file d n content)) :
    u.Denotes base dir d ∧ n.bytes = Utf8.encode (kind.output version) := by
  obtain ⟨l, hl, hfollow, hlast⟩ := exists_denotes_of_resolve hu h
  rw [kind.steps_output hv] at hfollow hlast
  have hstep : Step.name n = Step.ofPiece (Utf8.encode (kind.output version)) := by
    simpa [List.suffix_iff_eq_append] using hlast
  rw [← hstep] at hfollow
  have hld : l ++ [n] = d ++ [n] := hfollow
  rw [← List.append_cancel_right hld]
  exact ⟨hl, Step.bytes_of_ofPiece hstep.symm⟩

end Tree

/-! ### Builds -/

namespace Request

open Session

variable {base : Location} {minify : Minifier} {r : Request} {t u : Tree}

/-- The kinds of artifacts that a build of the request makes. -/
def kinds (r : Request) : List AssetKind :=
  .script :: (r.styleSource.map fun _ => .stylesheet).toList

theorem exists_kind_of_mem_artifactPaths {p : Path} (h : p ∈ r.artifactPaths) :
    ∃ kind : AssetKind, p = r.buildDir.join (.ofString (kind.output r.version)) := by
  obtain ⟨output, hmem, rfl⟩ := List.mem_map.mp h
  simp only [List.mem_cons, List.not_mem_nil, or_false] at hmem
  rcases hmem with rfl | rfl
  · exact ⟨.script, rfl⟩
  · exact ⟨.stylesheet, rfl⟩

section reports
variable {report : Report}

theorem kinds_of_buildIn (h : r.buildIn base t minify = (.ok report, u)) :
    report.artifacts.map Artifact.kind = r.kinds := by
  cases course_of_buildIn h with
  | scriptsOnly _ hstyles ha =>
      obtain ⟨_, _, _, rfl, -⟩ := ha
      simp [kinds, hstyles, Artifact.ofBytes]
  | both _ hstyles ha hb =>
      obtain ⟨_, _, _, rfl, -⟩ := ha
      obtain ⟨_, _, _, rfl, -⟩ := hb
      simp [kinds, hstyles, Artifact.ofBytes]

/-- Artifacts are named after their kind and the version, and their paths are the build directory
with the name behind it. -/
theorem names_of_buildIn (h : r.buildIn base t minify = (.ok report, u)) {a : Artifact}
    (ha : a ∈ report.artifacts) : a.name = a.kind.output r.version ∧
      a.path = r.buildDir.join (.ofString a.name) := by
  cases course_of_buildIn h with
  | scriptsOnly _ _ hscripts =>
      obtain rfl := List.mem_singleton.mp ha
      obtain ⟨_, _, _, rfl, -⟩ := hscripts
      exact ⟨rfl, rfl⟩
  | both _ _ hscripts hstyles =>
      obtain ⟨_, _, _, rfl, -⟩ := hscripts
      obtain ⟨_, _, _, rfl, -⟩ := hstyles
      simp only [List.mem_cons, List.not_mem_nil, or_false] at ha
      rcases ha with rfl | rfl
      · exact ⟨rfl, rfl⟩
      · exact ⟨rfl, rfl⟩

theorem extends_of_buildIn_ok (hb : t.get? base = some .dir)
    (h : r.buildIn base t minify = (.ok report, u)) :
    t.Extends base (report.artifacts.map Artifact.path) u := by
  cases course_of_buildIn h with
  | scriptsOnly _ _ ha => exact ha.extends_path hb
  | both _ _ ha hstyles =>
      have hscripts := ha.extends_path hb
      exact (hscripts.mono (by simp)).trans
        ((hstyles.extends_path (hscripts.keeps.get?_dir hb)).mono (by simp))

/-- The path of every artifact of a report leads to a regular file under the version's banner.  In
a tree without links the file is as told, unless the version climbs. -/
theorem exists_file_of_buildIn (hb : t.get? base = some .dir)
    (h : r.buildIn base t minify = (.ok report, u)) {a : Artifact} (ha : a ∈ report.artifacts) :
    ∃ d n content, u.resolve base false a.path = .ok (.file d n content) ∧
      Utf8.encode (banner r.version) <+: content ∧
      (t.NoLinks → climbsOut r.version = false → a.Describes r.version content) := by
  cases course_of_buildIn h with
  | scriptsOnly _ _ hscripts =>
      obtain rfl := List.mem_singleton.mp ha
      obtain ⟨d, n, content, hres, htold⟩ := hscripts.delivered hb
      exact ⟨d, n, content, hres, htold.2.2, fun _ _ => htold⟩
  | @both a₁ a₂ _ _ v _ _ hscripts hstyles =>
      obtain ⟨d, n, content, d', n', content', hfirst, hsecond, htold', hsame, hother, hclimbs⟩ :=
        hscripts.exists_files hb hstyles
      simp only [List.mem_cons, List.not_mem_nil, or_false] at ha
      rcases ha with rfl | rfl
      · refine ⟨d, n, content, hfirst, ?_, fun ht hclimb => ?_⟩
        · by_cases heq : d ++ [n] = d' ++ [n']
          · rw [hsame heq]
            exact htold'.2.2
          · exact (hother heq).2.2
        · refine hother fun heq => ?_
          rw [(hclimbs ht).mp heq] at hclimb
          cases hclimb
      · exact ⟨d', n', content', hsecond, htold'.2.2, fun _ _ => htold'⟩

end reports

/-- Where a build in a tree without links places its files.  An artifact's file lies where the
steps of its name lead from the directory that the build directory denotes, and is an entry of that
directory under its own name exactly if the version has no slash.  Then, whatever the build
answers, every file that is new or has changed is an entry of the build directory. -/
theorem placed_of_buildIn {result : Except BuildError Report} (hb : t.get? base = some .dir)
    (ht : t.NoLinks) (h : r.buildIn base t minify = (result, u)) :
    (∀ report, result = .ok report → ∀ a ∈ report.artifacts,
      (∃ l d n content, u.Denotes base r.buildDir l ∧
        l.follow (Path.ofString a.name).steps = d ++ [n] ∧
        u.resolve base false a.path = .ok (.file d n content)) ∧
      (a.LiesIn base r.buildDir u ↔ slash ∉ Utf8.encode r.version)) ∧
    (slash ∉ Utf8.encode r.version → ∀ l content, u.get? l = some (.file content) →
      t.get? l ≠ some (.file content) →
        ∃ d n, l = d ++ [n] ∧ u.Denotes base r.buildDir d) := by
  have hextends : t.Extends base r.artifactPaths u := (course_of_buildIn h).extends hb
  have hu : u.NoLinks := hextends.noLinks ht
  refine ⟨fun report hreport a ha => ?_, fun hv l content hl hne => ?_⟩
  · subst hreport
    obtain ⟨hname, hpath⟩ := names_of_buildIn h ha
    obtain ⟨d, n, content, hres, -⟩ := exists_file_of_buildIn hb h ha
    have hres' := hres
    rw [hpath, hname] at hres'
    obtain ⟨l, hl, hfollow, -⟩ := Tree.exists_denotes_of_resolve hu hres'
    rw [← hname] at hfollow
    refine ⟨⟨l, d, n, content, hl, hfollow, hres⟩, fun hin hslash => ?_, fun hv => ?_⟩
    · refine Artifact.not_liesIn ?_ hin
      rw [hname]
      exact (a.kind.slash_mem_output_iff r.version).mpr hslash
    · obtain ⟨hd, hn⟩ := Tree.denotes_of_resolve hu hv hres'
      rw [← hname] at hn
      have hbase : u.get? base = some .dir := hextends.keeps.get?_dir hb
      exact ⟨d, n, content, hd, hn, Tree.holds_of_resolve hbase hres, hres⟩
  · obtain ⟨p, hp, d, n, hld, hres⟩ := hextends.exists_path hl hne
    obtain ⟨kind, rfl⟩ := exists_kind_of_mem_artifactPaths hp
    exact ⟨d, n, hld, (Tree.denotes_of_resolve hu hv hres).1⟩

/-- A version without slashes: both artifacts lie in a build directory that is made for them. -/
theorem placed_of_buildIn_plain :
    let t := Tree.workplace
    let r : Request := ⟨"3.0.0", .ofString "/", some (.ofString "/"), .ofString "/out/deep"⟩
    ∃ report u, t.get? [] = some .dir ∧ t.NoLinks ∧ r.buildIn [] t = (.ok report, u) ∧
      report.artifacts.length = 2 ∧ ∀ a ∈ report.artifacts, a.LiesIn [] r.buildDir u := by
  intro t r
  have hok : r.Yields [] t fun report _ => report.artifacts.length = 2 := by decide +kernel
  obtain ⟨report, u, h, hlength⟩ := hok
  have hplaced := placed_of_buildIn t.get?_root Tree.noLinks_workplace h
  exact ⟨report, u, t.get?_root, Tree.noLinks_workplace, h, hlength,
    fun a ha => (hplaced.1 report rfl a ha).2.mpr (by decide)⟩

/-- A version with slashes: the build succeeds, its artifact is no entry of the build directory,
and the build has written a file outside of it. -/
theorem exists_not_placed_climbing :
    let t := Tree.sources
    let r : Request := ⟨"/../../x", .ofString "src", none, .ofString "out/deep"⟩
    let out : Name := ⟨Utf8.encode "out", by decide⟩
    let deep : Name := ⟨Utf8.encode "deep", by decide⟩
    let file : Name := ⟨Utf8.encode "x.min.js", by decide⟩
    ∃ report u, r.buildIn [] t = (.ok report, u) ∧
      (¬ ∀ a ∈ report.artifacts, a.LiesIn [] r.buildDir u) ∧
      u.Denotes [] r.buildDir [out, deep] ∧ t.get? [out, file] = none ∧
      u.get? [out, file] = some (.file (Utf8.encode "/*! PeteJS /../../x */\n1;1;1;1;1")) := by
  intro t r out deep file
  have hok : r.Yields [] t fun report u =>
      (∃ a ∈ report.artifacts, slash ∈ Utf8.encode a.name) ∧
      (u.resolve [] false r.buildDir).toOption = some (.dir [out, deep]) ∧
      u.get? [out, file] = some (.file (Utf8.encode "/*! PeteJS /../../x */\n1;1;1;1;1")) := by
    decide +kernel
  obtain ⟨report, u, h, ⟨a, ha, hslash⟩, hdir, hput⟩ := hok
  refine ⟨report, u, h, fun hall => Artifact.not_liesIn hslash (hall a ha), Or.inr ?_,
    by decide +kernel, hput⟩
  cases hres : u.resolve [] false r.buildDir with
  | error why =>
      rw [hres] at hdir
      cases hdir
  | ok spot =>
      rw [hres] at hdir
      rw [Option.some.inj hdir]

end Request
end AssetPress
