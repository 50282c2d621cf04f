import AssetPress.Proofs.Build.Course
import AssetPress.Proofs.Tree.Linkless

/-!
# What a build leaves alone

Whatever a build answers, it has added directories and written files where the paths of its
artifacts lead, nothing else (`extends_buildIn`).  In a tree without links such a path leads to a
file whose name ends as the path does, however far the version in it climbs, so no source is
ever among the files written (`frame_of_buildIn`).
-/

namespace AssetPress

/-! ### Endings of names -/

/-- A name with the ending that all artifacts have. -/
def Name.IsArtifact (n : Name) : Prop := Utf8.encode artifactEnding <:+ n.bytes

theorem Path.suffix_join (left right : Path) : right.bytes <:+ (left.join right).bytes := by
  unfold join
  split
  · exact List.suffix_rfl
  · split
    · exact List.suffix_append _ _
    · exact (List.suffix_cons slash right.bytes).trans (List.suffix_append _ _)

theorem encode_artifactEnding :
    Utf8.encode artifactEnding = [46, 109, 105, 110, 46, 106, 115] := by decide

theorem Name.IsArtifact.extension?_ne {n : Name} (h : n.IsArtifact) :
    extension? n.bytes ≠ some styleExtension := by
  obtain ⟨front, hfront⟩ := h
  rw [← hfront, encode_artifactEnding]
  unfold extension?
  split
  · simp
  · have hjs : ((front ++ [46, 109, 105, 110, 46, 106, 115]).reverse.takeWhile (· != dot)).reverse =
        [106, 115] := by
      simp [dot]
    rw [hjs]
    decide

theorem Name.not_isArtifact_of_listed {f : String} (hf : f ∈ SourceOrder.standard.files) {n : Name}
    (hn : Utf8.encode f <:+ n.bytes) : ¬ n.IsArtifact := by
  intro h
  have hlong : ∀ f ∈ SourceOrder.standard.files,
      (Utf8.encode artifactEnding).length ≤ (Utf8.encode f).length ∧
        ¬ Utf8.encode artifactEnding <:+ Utf8.encode f := by decide
  obtain ⟨hlen, hnot⟩ := hlong f hf
  exact hnot (List.suffix_of_suffix_length_le h hn hlen)

/-- What the names of artifacts of this kind begin with. -/
def AssetKind.stem : AssetKind → String
  | script => scriptStem
  | stylesheet => styleStem

/-- The name of the artifact of this kind of a version. -/
def AssetKind.output (kind : AssetKind) (version : String) : String :=
  kind.stem ++ version ++ artifactEnding

namespace Request

def artifactPaths (r : Request) : List Path :=
  [scriptOutput r.version, styleOutput r.version].map fun output =>
    r.buildDir.join (.ofString output)

def artifactPath (r : Request) (kind : AssetKind) : Path :=
  r.buildDir.join (.ofString (kind.output r.version))

theorem artifactPath_mem (r : Request) (kind : AssetKind) :
    r.artifactPath kind ∈ r.artifactPaths := by
  cases kind
  · exact List.mem_cons_self
  · exact List.mem_cons_of_mem _ List.mem_cons_self

theorem encode_artifactEnding_suffix {r : Request} {p : Path} (hp : p ∈ r.artifactPaths) :
    Utf8.encode artifactEnding <:+ p.bytes := by
  have hout : ∀ output ∈ [scriptOutput r.version, styleOutput r.version],
      Utf8.encode artifactEnding <:+ Utf8.encode output := by
    intro output hmem
    simp only [List.mem_cons, List.not_mem_nil, or_false] at hmem
    rcases hmem with rfl | rfl
    · rw [scriptOutput, Utf8.encode_append]
      exact List.suffix_append _ _
    · rw [styleOutput, Utf8.encode_append]
      exact List.suffix_append _ _
  obtain ⟨output, hmem, rfl⟩ := List.mem_map.mp hp
  exact (hout output hmem).trans (Path.suffix_join _ _)

end Request

/-! ### Builds -/

variable {base : Location} {minify : Minifier} {r : Request} {t u : Tree}

namespace Session

theorem Delivers.extends_path {kind : AssetKind} {buildDir : Path} {output version : String}
    {a : Artifact} (hb : t.get? base = some .dir)
    (h : Delivers base kind buildDir output version t u a) : t.Extends base [a.path] u := by
  obtain ⟨texts, code, v, rfl, hadds, hwrite⟩ := h
  exact hadds.extends.trans
    (Tree.extends_of_write (hadds.keeps.get?_dir hb) List.mem_cons_self hwrite)

theorem Delivers.extends {kind : AssetKind} {a : Artifact} (hb : t.get? base = some .dir)
    (h : Delivers base kind r.buildDir (kind.output r.version) r.version t u a) :
    t.Extends base r.artifactPaths u := by
  refine (h.extends_path hb).mono (List.cons_subset.mpr ⟨?_, List.nil_subset _⟩)
  obtain ⟨_, _, _, rfl, -⟩ := h
  exact r.artifactPath_mem kind

theorem Course.extends {result : Except BuildError Report} (hb : t.get? base = some .dir)
    (h : Course base r t result u) : t.Extends base r.artifactPaths u := by
  cases h with
  | refused => exact (Tree.AddsDirs.refl t).extends
  | scriptsFailed _ hfails => exact hfails.addsDirs.extends
  | scriptsOnly _ _ ha => exact ha.extends hb
  | stylesFailed _ _ ha hfails =>
      exact (ha.extends hb).trans hfails.addsDirs.extends
  | both _ _ ha hstyles =>
      have hscripts := ha.extends hb
      exact hscripts.trans (hstyles.extends (hscripts.keeps.get?_dir hb))

end Session

namespace Request

/-- A build adds directories and writes files where the paths of its artifacts lead. -/
theorem extends_buildIn (hb : t.get? base = some .dir) :
    t.Extends base r.artifactPaths (r.buildIn base t minify).2 :=
  (course_of_buildIn rfl).extends hb

theorem isArtifact_of_resolve (hu : u.NoLinks) {p : Path} (hp : p ∈ r.artifactPaths)
    {d : Location} {n : Name} {content : Bytes}
    (h : u.resolve base false p = .ok (.file d n content)) : n.IsArtifact := by
  obtain ⟨front, hfront⟩ := encode_artifactEnding_suffix hp
  exact Tree.name_of_resolve hu h hfront.symm (by decide) (by decide)

theorem get?_of_extends (hu : u.NoLinks) (h : t.Extends base r.artifactPaths u) {d : Location}
    {n : Name} {content : Bytes} (hf : t.get? (d ++ [n]) = some (.file content))
    (hn : ¬ n.IsArtifact) : u.get? (d ++ [n]) = some (.file content) :=
  h.get?_of_file hf fun _ hp _ hres => hn (isArtifact_of_resolve hu hp hres)

/-- A build in a tree without links, whatever it answers: every entry stays, with its kind; a file
whose name is not that of an artifact keeps its content, as do the listed scripts and all
stylesheets; a file that is new or has changed is one to which the path of an artifact leads; what
else is new is a directory. -/
theorem frame_of_buildIn (hb : t.get? base = some .dir) (ht : t.NoLinks) :
    let u := (r.buildIn base t minify).2
    t.Keeps u ∧
      (∀ d n content, t.get? (d ++ [n]) = some (.file content) → ¬ n.IsArtifact →
        u.get? (d ++ [n]) = some (.file content)) ∧
      (∀ p ∈ SourceOrder.standard.pathsIn r.scripts, ∀ d n content,
        t.resolve base false p = .ok (.file d n content) →
          u.resolve base false p = .ok (.file d n content)) ∧
      (∀ d n content, t.get? (d ++ [n]) = some (.file content) →
        extension? n.bytes = some styleExtension → u.get? (d ++ [n]) = some (.file content)) ∧
      (∀ l content, u.get? l = some (.file content) → t.get? l ≠ some (.file content) →
        ∃ p ∈ r.artifactPaths, ∃ d n, l = d ++ [n] ∧
          u.resolve base false p = .ok (.file d n content)) ∧
      ∀ l e, u.get? l = some e → t.get? l = none → (∀ content, e ≠ .file content) → e = .dir := by
  intro u
  have hextends : t.Extends base r.artifactPaths u := extends_buildIn hb
  have hu : u.NoLinks := hextends.noLinks ht
  refine ⟨hextends.keeps, fun d n content => get?_of_extends hu hextends,
    fun p hp d n content hres => ?_, fun d n content hf hcss => ?_,
    fun l content hl hne => ?_, fun l e hl hnone hfile => ?_⟩
  · obtain ⟨f, hlisted, rfl⟩ := List.mem_map.mp hp
    obtain ⟨front, hfront⟩ := Path.suffix_join r.scripts (.ofString f)
    have hplain : ∀ f ∈ SourceOrder.standard.files, Utf8.encode f ≠ [] ∧ slash ∉ Utf8.encode f := by
      decide
    have hname := Tree.name_of_resolve ht hres hfront.symm (hplain f hlisted).1 (hplain f hlisted).2
    have hkept := get?_of_extends hu hextends (Tree.holds_of_resolve hb hres)
      (Name.not_isArtifact_of_listed hlisted hname)
    exact Tree.resolve_of_keeps hextends.keeps id hres (.file content hkept)
  · exact get?_of_extends hu hextends hf fun h => h.extension?_ne hcss
  · rcases hextends.fresh l _ hl with hold | ⟨-, hdir⟩ | ⟨p, hp, d, n, content', hld, he, hleads⟩
    · exact absurd hold hne
    · cases hdir
    · rw [hld] at hl
      exact ⟨p, hp, d, n, hld, hleads.resolve_eq hl⟩
  · rcases hextends.fresh l e hl with hold | ⟨-, hdir⟩ | ⟨p, -, d, n, content, -, he, -⟩
    · rw [hnone] at hold
      cases hold
    · exact hdir
    · exact absurd he (hfile content)

/-- A version that climbs out of the build directory spares the stylesheet there. -/
theorem frame_of_buildIn_climbing :
    let t := Tree.workplace
    let r : Request := ⟨"/../x", .ofString "/", some (.ofString "/"), .ofString "/"⟩
    let css : Name := ⟨Utf8.encode "a.css", by decide⟩
    t.get? [] = some .dir ∧ t.NoLinks ∧ (r.buildIn [] t).1.toOption.isSome = true ∧
      (r.buildIn [] t).2.get? [css] = some (.file (Utf8.encode "a{}")) := by
  intro t r css
  have hcss : t.get? ([] ++ [css]) = some (.file (Utf8.encode "a{}")) := by decide +kernel
  have hframe := @frame_of_buildIn [] .standard r t t.get?_root Tree.noLinks_workplace
  exact ⟨t.get?_root, Tree.noLinks_workplace, by decide +kernel,
    hframe.2.2.2.1 [] css _ hcss (by decide)⟩

end Request
end AssetPress
