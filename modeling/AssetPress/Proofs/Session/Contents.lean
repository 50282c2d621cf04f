import AssetPress.Proofs.Tree.Texts

/-!
# What an artifact holds

The bundle of a compression is made of the bytes that its sources had in the tree where it began:
all of them, each once and in their order, each on lines of its own (`encode_bundle`).  The artifact
holds the version's banner and what the minifier makes of that bundle; its statistics are those of
the sources and of the file that is read at its path in the end (`Artifact.MadeOf`).  Main
statement: every compression that succeeds makes its artifact so, also where links lead from one
file to another (`madeOf_of_press`).
-/

namespace AssetPress

/-! ### Bytes of bundles -/

def lineEnd : UInt8 := 10

/-- The bytes of a source with a line end at their end. -/
def lineEnded (content : Bytes) : Bytes :=
  if content.getLast? = some lineEnd then content else content ++ [lineEnd]

theorem encode_terminated (text : String) :
    Utf8.encode (terminated text) = lineEnded (Utf8.encode text) := by
  have hends : (Utf8.encode text).getLast? = some lineEnd ↔ text.toList.getLast? = some '\n' :=
    Utf8.getLast?_encode text
  have hbyte : Utf8.encode "\n" = [lineEnd] := by decide
  unfold terminated lineEnded
  by_cases h : text.toList.getLast? = some '\n'
  · rw [if_pos h, if_pos (hends.mpr h)]
  · rw [if_neg h, if_neg fun hb => h (hends.mp hb), Utf8.encode_append, hbyte]

theorem encode_bundle (texts : List String) :
    Utf8.encode (bundle texts) = (texts.map Utf8.encode).flatMap lineEnded := by
  have hjoin : ∀ texts : List String, Utf8.encodeChars (texts.flatMap fun t =>
      (terminated t).toList) = texts.flatMap fun t => Utf8.encode (terminated t) := by
    intro texts
    induction texts with
    | nil => rfl
    | cons text rest ih =>
        rw [List.flatMap_cons, List.flatMap_cons, Utf8.encodeChars_append, ih]
        rfl
  rw [Utf8.encode, toList_bundle, hjoin, List.flatMap_map]
  simp only [encode_terminated]

theorem sourceSize_eq (texts : List String) :
    sourceSize texts = ((texts.map Utf8.encode).map List.length).foldr (· + ·) 0 := by
  induction texts with
  | nil => rfl
  | cons text rest ih => simp [sourceSize, ih]

/-! ### Contents of sources -/

namespace Tree

variable {t : Tree} {base : Location}

theorem of_prepared_eq_ok {shrink : List String → Except CompressError String} {ps : List Path}
    {texts : List String} {code : String} (h : t.prepared base shrink ps = .ok (texts, code)) :
    ps.map (t.read base) = (texts.map Utf8.encode).map .ok ∧ shrink texts = .ok code := by
  unfold prepared at h
  cases hread : ps.mapM fun p => (t.readText base p).mapError (CompressError.readSource p) with
  | error e =>
      rw [hread] at h
      cases h
  | ok found =>
      rw [hread] at h
      cases hcode : shrink found with
      | error e =>
          simp only [hcode, bind, Except.bind] at h
          cases h
      | ok shrunk =>
          simp only [hcode, bind, Except.bind] at h
          cases h
          exact ⟨mapM_readText_eq_ok_iff.mp hread, hcode⟩

end Tree

/-! ### Artifacts -/

/-- An artifact in tree `u` that has been made, under a version, of the files to which the paths
`ps` led in tree `t`: of their contents, which make the text `source`, of which the minifier makes
`code`. -/
structure Artifact.MadeOf (base : Location) (minify : String → Except String String)
    (ps : List Path) (version : String) (t u : Tree) (a : Artifact) (contents : List Bytes)
    (source code : String) : Prop where
  read : ps.map (t.read base) = contents.map .ok
  bundled : Utf8.encode source = contents.flatMap lineEnded
  minified : minify source = .ok code
  written : u.read base a.path = .ok (Utf8.encode (banner version) ++ Utf8.encode code)
  sourceFiles : a.sourceFiles = ps.length
  sourceSize : a.sourceSize = (contents.map List.length).foldr (· + ·) 0
  minifiedSize : a.minifiedSize = (Utf8.encode (banner version) ++ Utf8.encode code).length
  sha256 : a.sha256 = Sha256.hexDigest (Utf8.encode (banner version) ++ Utf8.encode code)

namespace Session

variable {base : Location} {minify : Minifier} {s s' : Session}

theorem minify_of_shrink {kind : AssetKind} {output : String} {texts : List String}
    {code : String} (h : minify.shrink kind output texts = .ok code) :
    minify kind (bundle texts) = .ok code := by
  unfold Minifier.shrink at h
  cases hcode : minify kind (bundle texts) with
  | error fault =>
      rw [hcode] at h
      cases h
  | ok shrunk =>
      rw [hcode] at h
      cases h
      rfl

theorem exists_madeOf_of_pressFrom {kind : AssetKind} {buildDir : Path} {output version : String}
    {ps : List Path} {a : Artifact} (hb : s.tree.get? base = some .dir)
    (h : perform s (pressFrom base minify kind buildDir output version ps) = (.ok a, s')) :
    a.kind = kind ∧ a.name = output ∧ a.path = buildDir.join (.ofString output) ∧
      ∃ contents source code,
        a.MadeOf base (minify kind) ps version s.tree s'.tree contents source code := by
  obtain ⟨texts, code, hprepared, rfl, hread⟩ := of_perform_pressFrom_eq_ok hb h
  obtain ⟨hcontents, hshrunk⟩ := Tree.of_prepared_eq_ok hprepared
  have hcontent : Workbench.content version code =
      Utf8.encode (banner version) ++ Utf8.encode code := Utf8.encode_append _ _
  have hcount : texts.length = ps.length := by
    have hlengths := congrArg List.length hcontents
    simpa using hlengths.symm
  refine ⟨rfl, rfl, rfl, texts.map Utf8.encode, bundle texts, code, ?_⟩
  constructor
  case read => exact hcontents
  case bundled => exact encode_bundle texts
  case minified => exact minify_of_shrink hshrunk
  case written => rw [← hcontent]; exact hread
  case sourceFiles => exact hcount
  case sourceSize => exact sourceSize_eq texts
  case minifiedSize => rw [← hcontent]; rfl
  case sha256 => rw [← hcontent]; rfl

/-- What an artifact is made of.  A compression of scripts that succeeds makes it of the listed
files, and one of stylesheets of those that listing its source gives: of the contents that they have
in the tree where the compression begins.  The file that is read at the artifact's path in the
tree where it ends holds the banner and the minified bundle, also if it is one of the sources. -/
theorem madeOf_of_press (hb : s.tree.get? base = some .dir) :
    (∀ (job : ScriptJob) (a : Artifact),
      perform s ((workbench base minify).pressScripts job) = (.ok a, s') →
        a.kind = .script ∧ a.name = job.output ∧
        a.path = job.buildDir.join (.ofString job.output) ∧ ∃ contents source code,
          a.MadeOf base (minify .script) (job.files.pathsIn job.source) job.version s.tree s'.tree
            contents source code) ∧
    ∀ (job : StyleJob) (a : Artifact),
      perform s ((workbench base minify).pressStyles job) = (.ok a, s') → ∃ ps,
        perform s ((disk base).listWithExtension job.source styleExtension) = (.ok ps, s) ∧
        a.kind = .stylesheet ∧ a.name = job.output ∧
        a.path = job.buildDir.join (.ofString job.output) ∧ ∃ contents source code,
          a.MadeOf base (minify .stylesheet) ps job.version s.tree s'.tree contents source
            code := by
  constructor
  · intro job a h
    exact exists_madeOf_of_pressFrom hb (pressScripts_eq job ▸ h)
  · intro job a h
    obtain ⟨ps, hpaths, -, hpressed⟩ := exists_pathsIn_of_pressStyles h
    have hlisted : perform s ((disk base).listWithExtension job.source styleExtension) =
        (.ok ps, s) := by
      rw [perform_listWithExtension, hpaths]
      rfl
    exact ⟨ps, hlisted, exists_madeOf_of_pressFrom hb hpressed⟩

theorem exists_ok_of_isSome {x : ExceptT CompressError (StateM Session) Artifact}
    (h : (perform s x).1.toOption.isSome) : ∃ a, perform s x = (.ok a, (perform s x).2) := by
  cases hx : (perform s x).1 with
  | error e =>
      rw [hx] at h
      cases h
  | ok a => exact ⟨a, Prod.ext hx rfl⟩

/-- A script whose artifact has the path of a link to one of its two sources, and a stylesheet whose
artifact has that of a link to its only one. -/
theorem madeOf_of_press_linked :
    let script : Name := ⟨Utf8.encode "1.js", by decide⟩
    let style : Name := ⟨Utf8.encode "2.js", by decide⟩
    let t := ((Tree.ofFiles [("a.js", ""), ("b.js", "f()"), ("c.css", "a{}\n")]).insert [] script
      (.link (.ofString "b.js"))).insert [] style (.link (.ofString "c.css"))
    let scripts : ScriptJob := ⟨.ofString "/", "1.js", .ofString ".", "1", ⟨["a.js", "b.js"]⟩⟩
    let styles : StyleJob := ⟨.ofString "/", "2.js", .ofString "", "2"⟩
    t.get? [] = some .dir ∧
      (∃ a s', perform (.ofTree t) ((workbench []).pressScripts scripts) = (.ok a, s') ∧
        (s'.tree.read [] (.ofString "b.js")).toOption =
          some (Utf8.encode "/*! PeteJS 1 */\nf()") ∧
        ∃ contents source code, a.MadeOf [] (Minifier.standard .script)
          (scripts.files.pathsIn scripts.source) "1" t s'.tree contents source code) ∧
      ∃ a s', perform (.ofTree t) ((workbench []).pressStyles styles) = (.ok a, s') ∧
        (s'.tree.read [] (.ofString "c.css")).toOption =
          some (Utf8.encode "/*! PeteJS 2 */\na{}") ∧
        ∃ ps contents source code, a.MadeOf [] (Minifier.standard .stylesheet) ps "2" t s'.tree
          contents source code := by
  intro script style t scripts styles
  have hscripts : (perform (.ofTree t) ((workbench []).pressScripts scripts)).1.toOption.isSome ∧
      ((perform (.ofTree t) ((workbench []).pressScripts scripts)).2.tree.read []
        (.ofString "b.js")).toOption = some (Utf8.encode "/*! PeteJS 1 */\nf()") := by
    decide +kernel
  have hstyles : (perform (.ofTree t) ((workbench []).pressStyles styles)).1.toOption.isSome ∧
      ((perform (.ofTree t) ((workbench []).pressStyles styles)).2.tree.read []
        (.ofString "c.css")).toOption = some (Utf8.encode "/*! PeteJS 2 */\na{}") := by
    decide +kernel
  obtain ⟨a, ha⟩ := exists_ok_of_isSome hscripts.1
  obtain ⟨b, hb⟩ := exists_ok_of_isSome hstyles.1
  have hmade := @madeOf_of_press [] .standard (.ofTree t)
  refine ⟨t.get?_root, ⟨a, _, ha, hscripts.2, ?_⟩, b, _, hb, hstyles.2, ?_⟩
  · obtain ⟨-, -, -, hof⟩ := (hmade t.get?_root).1 scripts a ha
    exact hof
  · obtain ⟨ps, -, -, -, -, hof⟩ := (hmade t.get?_root).2 styles b hb
    exact ⟨ps, hof⟩

end Session
end AssetPress
