import AssetPress.Proofs.Build.Course
import AssetPress.Proofs.Build.Names

/-!
# What is delivered in the end

An artifact of a report is told truly of the tree that the build leaves behind (`Delivered`) if
its path leads to a regular file of its size, with its digest and under the version's banner.  The
last artifact of a build always is.  The one before it is unless the paths of both lead to
the same file, as they do in a tree without links exactly if the version climbs
(`delivered_of_buildIn`).
-/

namespace AssetPress

/-- What is told about an artifact is true of a content, and the content is under the banner. -/
def Artifact.Describes (a : Artifact) (version : String) (content : Bytes) : Prop :=
  content.length = a.minifiedSize ∧ Sha256.hexDigest content = a.sha256 ∧
    Utf8.encode (banner version) <+: content

/-- The path of an artifact leads to a regular file that is as told. -/
def Artifact.Delivered (base : Location) (version : String) (u : Tree) (a : Artifact) : Prop :=
  ∃ d n content, u.resolve base false a.path = .ok (.file d n content) ∧ a.Describes version content

def Tree.SameFile (u : Tree) (base : Location) (p q : Path) : Prop :=
  ∃ d n content, u.resolve base false p = .ok (.file d n content) ∧
    u.resolve base false q = .ok (.file d n content)

variable {base : Location} {minify : Minifier} {t u w : Tree}

theorem Artifact.describes_ofBytes (kind : AssetKind) (buildDir : Path) (output : String)
    (texts : List String) (version code : String) :
    (Artifact.ofBytes kind buildDir output texts (Workbench.content version code)).Describes version
      (Workbench.content version code) := by
  refine ⟨rfl, rfl, ?_⟩
  rw [Workbench.content, Utf8.encode_append]
  exact List.prefix_append _ _

theorem Artifact.describes_iff {a b : Artifact} {version : String} {content : Bytes}
    (h : b.Describes version content) : a.Describes version content ↔
      a.minifiedSize = b.minifiedSize ∧ a.sha256 = b.sha256 := by
  obtain ⟨hsize, hdigest, hbanner⟩ := h
  unfold Describes
  rw [hsize, hdigest]
  constructor
  · rintro ⟨hs, hd, -⟩
    exact ⟨hs.symm, hd.symm⟩
  · rintro ⟨hs, hd⟩
    exact ⟨hs.symm, hd.symm, hbanner⟩

theorem Artifact.delivered_iff {a : Artifact} {version : String} {d : Location} {n : Name}
    {content : Bytes} (h : u.resolve base false a.path = .ok (.file d n content)) :
    a.Delivered base version u ↔ a.Describes version content := by
  constructor
  · rintro ⟨_, _, _, hres, htold⟩
    rw [h] at hres
    cases hres
    exact htold
  · exact fun htold => ⟨d, n, content, h, htold⟩

instance (a : Artifact) (version : String) (content : Bytes) :
    Decidable (a.Describes version content) :=
  inferInstanceAs (Decidable (_ ∧ _ ∧ _))

instance (version : String) (a : Artifact) : Decidable (a.Delivered base version u) :=
  match h : u.resolve base false a.path with
  | .ok (.file _ _ content) =>
      decidable_of_iff (a.Describes version content) (Artifact.delivered_iff h).symm
  | .ok (.dir _) | .ok (.vacant _ _) | .error _ =>
      .isFalse fun ⟨_, _, _, hres, _⟩ => by
        rw [h] at hres
        cases hres

namespace Session

/-- A delivery puts a file that is as told where the artifact's path leads from then on. -/
theorem Delivers.exists_puts {kind : AssetKind} {buildDir : Path} {output version : String}
    {a : Artifact} (hb : t.get? base = some .dir)
    (h : Delivers base kind buildDir output version t u a) :
    a.path = buildDir.join (.ofString output) ∧ ∃ v d n content, t.AddsDirs v ∧
      v.Puts u (d ++ [n]) content ∧ u.Leads base a.path d n ∧ a.Describes version content := by
  obtain ⟨texts, code, v, rfl, hadds, hwrite⟩ := h
  obtain ⟨d, n, hputs, hleads⟩ := Tree.exists_puts_of_write (hadds.keeps.get?_dir hb) hwrite
  exact ⟨rfl, v, d, n, _, hadds, hputs, hleads,
    Artifact.describes_ofBytes kind buildDir output texts version code⟩

theorem Delivers.delivered {kind : AssetKind} {buildDir : Path} {output version : String}
    {a : Artifact} (hb : t.get? base = some .dir)
    (h : Delivers base kind buildDir output version t u a) : a.Delivered base version u := by
  obtain ⟨-, v, d, n, content, -, hputs, hleads, htold⟩ := h.exists_puts hb
  exact ⟨d, n, content, hleads.resolve_eq hputs.get?_self, htold⟩

/-- Where the two artifacts of a build are once the second has been delivered: the first one's
path still leads to a regular file, which is the second one's or holds what it held. -/
theorem Delivers.exists_files {buildDir : Path} {version : String} {a b : Artifact}
    (hb : t.get? base = some .dir)
    (ha : Delivers base .script buildDir (scriptOutput version) version t u a)
    (hstyles : Delivers base .stylesheet buildDir (styleOutput version) version u w b) :
    ∃ d n content d' n' content', w.resolve base false a.path = .ok (.file d n content) ∧
      w.resolve base false b.path = .ok (.file d' n' content') ∧ b.Describes version content' ∧
      (d ++ [n] = d' ++ [n'] → content = content') ∧
      (d ++ [n] ≠ d' ++ [n'] → a.Describes version content) ∧
      (t.NoLinks → (d ++ [n] = d' ++ [n'] ↔ climbsOut version = true)) := by
  obtain ⟨hpatha, v, d, n, content, hadds, hputs, hleads, htold⟩ := ha.exists_puts hb
  have hbase : u.get? base = some .dir := (hadds.keeps.trans hputs.keeps).get?_dir hb
  obtain ⟨hpathb, v', d', n', content', hadds', hputs', hleads', htold'⟩ :=
    hstyles.exists_puts hbase
  have hkeeps : u.Keeps w := hadds'.keeps.trans hputs'.keeps
  obtain ⟨new, hnew⟩ := hkeeps.exists_file hputs.get?_self
  have hfirst : w.resolve base false a.path = .ok (.file d n new) := hleads w new hkeeps hnew
  have hsecond : w.resolve base false b.path = .ok (.file d' n' content') :=
    hleads'.resolve_eq hputs'.get?_self
  refine ⟨d, n, new, d', n', content', hfirst, hsecond, htold', fun heq => ?_, fun hne => ?_,
    fun ht => ?_⟩
  · rw [heq, hputs'.get?_self] at hnew
    cases hnew
    rfl
  · -- Neither the new directories nor the second file have touched the first one.
    rw [hputs'.get?_ne hne] at hnew
    have hold := hadds'.get?_of_ne_dir hnew (by simp)
    rw [hputs.get?_self] at hold
    cases hold
    exact htold
  · have hlinks : w.NoLinks :=
      hputs'.noLinks (hadds'.noLinks (hputs.noLinks (hadds.noLinks ht)))
    rw [hpatha] at hfirst
    rw [hpathb] at hsecond
    exact Tree.location_eq_iff hlinks hfirst hsecond

end Session

theorem Tree.sameFile_iff {p q : Path} {d d' : Location} {n n' : Name} {content content' : Bytes}
    (hp : u.resolve base false p = .ok (.file d n content))
    (hq : u.resolve base false q = .ok (.file d' n' content'))
    (hcontent : d ++ [n] = d' ++ [n'] → content = content') :
    u.SameFile base p q ↔ d ++ [n] = d' ++ [n'] := by
  constructor
  · rintro ⟨_, _, _, h₁, h₂⟩
    rw [hp] at h₁
    rw [hq] at h₂
    cases h₁
    cases h₂
    rfl
  · intro heq
    obtain ⟨hd, hn⟩ := List.append_inj' heq rfl
    rw [← hcontent heq, ← hd, ← List.singleton_inj.mp hn] at hq
    exact ⟨d, n, content, hp, hq⟩

namespace Request

/-- What the report of a build says of the tree that the build leaves behind.  Of two artifacts the
second is delivered as told.  So is the first, unless both paths lead to the same file and
the contents differ; and where there are no links, they lead to the same file exactly if the
version climbs.  In any case both paths lead to regular files under the version's banner. -/
theorem delivered_of_buildIn {r : Request} {report : Report} (hb : t.get? base = some .dir)
    (h : r.buildIn base t minify = (.ok report, u)) :
    (∃ a, report.artifacts = [a] ∧ a.Delivered base r.version u) ∨
      ∃ a b, report.artifacts = [a, b] ∧ b.Delivered base r.version u ∧
        (∃ d n content, u.resolve base false a.path = .ok (.file d n content) ∧
          Utf8.encode (banner r.version) <+: content) ∧
        (a.Delivered base r.version u ↔ ¬ u.SameFile base a.path b.path ∨
          a.minifiedSize = b.minifiedSize ∧ a.sha256 = b.sha256) ∧
        (t.NoLinks → (u.SameFile base a.path b.path ↔ climbsOut r.version = true)) := by
  cases course_of_buildIn h with
  | scriptsOnly _ _ ha => exact Or.inl ⟨_, rfl, ha.delivered hb⟩
  | @both a b _ _ v _ _ ha hstyles =>
      obtain ⟨d, n, content, d', n', content', hfirst, hsecond, htold, hsame, hother, hlinks⟩ :=
        ha.exists_files hb hstyles
      have hiff := Tree.sameFile_iff hfirst hsecond hsame
      refine Or.inr ⟨a, b, rfl, ⟨d', n', content', hsecond, htold⟩, ?_, ?_, fun ht => ?_⟩
      · refine ⟨d, n, content, hfirst, ?_⟩
        by_cases heq : d ++ [n] = d' ++ [n']
        · rw [hsame heq]
          exact htold.2.2
        · exact (hother heq).2.2
      · rw [hiff, Artifact.delivered_iff hfirst]
        by_cases heq : d ++ [n] = d' ++ [n']
        · rw [hsame heq, Artifact.describes_iff htold]
          exact ⟨Or.inr, fun hsum => hsum.resolve_left fun hne => hne heq⟩
        · exact ⟨fun _ => Or.inl heq, fun _ => hother heq⟩
      · rw [hiff]
        exact hlinks ht

/-- A version without slashes: both artifacts are delivered. -/
theorem delivered_of_buildIn_plain :
    let t := Tree.workplace
    let r : Request := ⟨"3.0.0", .ofString "/", some (.ofString "/"), .ofString "/out"⟩
    ∃ report u, t.get? [] = some .dir ∧ r.buildIn [] t = (.ok report, u) ∧
      report.artifacts.length = 2 ∧ ∀ a ∈ report.artifacts, a.Delivered [] r.version u := by
  intro t r
  have hok : ((r.buildIn [] t).1.toOption.any fun report => report.artifacts.length == 2) =
      true := by decide +kernel
  rcases h : r.buildIn [] t with ⟨e | report, u⟩
  · rw [h] at hok
    cases hok
  · rw [h] at hok
    have hlength : report.artifacts.length = 2 := beq_iff_eq.mp hok
    refine ⟨report, u, t.get?_root, rfl, hlength, ?_⟩
    rcases delivered_of_buildIn t.get?_root h with
      ⟨a, hone, -⟩ | ⟨a, b, htwo, hsecond, -, hfirst, hlinks⟩
    · rw [hone] at hlength
      cases hlength
    · have hother : ¬ u.SameFile [] a.path b.path := fun hsame =>
        absurd ((hlinks Tree.noLinks_workplace).mp hsame) (by decide)
      rw [htwo]
      simp only [List.mem_cons, List.not_mem_nil, or_false]
      rintro _ (rfl | rfl)
      · exact hfirst.mpr (Or.inl hother)
      · exact hsecond

/-- A version that climbs: the build succeeds, and yet what it tells about its script artifact is
not true of the tree it leaves behind. -/
theorem exists_not_delivered_climbing :
    let t := Tree.project
    let r : Request := ⟨"/../x", .ofString "src", some (.ofString "css"), .ofString "out"⟩
    ∃ report u, r.buildIn [] t = (.ok report, u) ∧
      ¬ ∀ a ∈ report.artifacts, a.Delivered [] r.version u := by
  intro t r
  have hlost : ((r.buildIn [] t).1.toOption.any fun report =>
      decide (¬ ∀ a ∈ report.artifacts, a.Delivered [] r.version (r.buildIn [] t).2)) = true := by
    decide +kernel
  rcases h : r.buildIn [] t with ⟨e | report, u⟩
  · rw [h] at hlost
    cases hlost
  · rw [h] at hlost
    exact ⟨report, u, rfl, of_decide_eq_true hlost⟩

end Request
end AssetPress
