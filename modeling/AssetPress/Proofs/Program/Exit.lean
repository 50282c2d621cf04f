import AssetPress.Program
import AssetPress.Proofs.Build.Calls
import AssetPress.Proofs.Build.Placement
import AssetPress.Proofs.CommandLine.Reading
import AssetPress.Proofs.Report.Json
import AssetPress.Proofs.Session.Log

/-!
# How the program exits

A run of the program ends in one of seven ways (`Ending`, `ending_of_runIn`): with help, with a
complaint about the arguments, with a request that is refused, with a build that fails, with a
report that has no JSON form, and with one that is printed as JSON or shown.  Which of them it is
depends on the arguments and on what their build does in the tree, not on the log filter
(`runIn_of_settings`), and a report has a JSON form exactly if the build directory is text
(`isSome_json?_of_buildIn`).  Main statement: what each exit status tells (`exit_of_runIn`).
-/

namespace AssetPress

/-! ### Reports that have a JSON form -/

theorem isSome_decode?_join {dir : Path} (hdir : (Utf8.decode? dir.bytes).isSome) {name : String}
    (hname : (Path.ofString name).isAbsolute = false) :
    (Utf8.decode? (dir.join (.ofString name)).bytes).isSome := by
  obtain ⟨sep, hsep, hbytes⟩ : ∃ sep, (sep = [] ∨ sep = [slash]) ∧
      (dir.join (.ofString name)).bytes = dir.bytes ++ sep ++ Utf8.encode name :=
    Path.join_bytes_of_relative hname
  obtain ⟨text, htext⟩ : ∃ text : String, Utf8.encode text = sep := by
    rcases hsep with rfl | rfl
    · exact ⟨"", by decide⟩
    · exact ⟨"/", by decide⟩
  rw [hbytes, ← htext]
  exact Utf8.isSome_decode?_append (Utf8.isSome_decode?_append hdir text) name

namespace Request

variable {base : Location} {minify : Minifier} {r : Request} {t u : Tree}

theorem isSome_json?_of_buildIn {report : Report} (h : r.buildIn base t minify = (.ok report, u)) :
    report.json?.isSome ↔ (Utf8.decode? r.buildDir.bytes).isSome := by
  have hdir : report.buildDir = r.buildDir := by
    cases course_of_buildIn h <;> rfl
  rw [Report.isSome_json?_iff, hdir]
  refine ⟨And.left, fun htext => ⟨htext, fun a ha => ?_⟩⟩
  obtain ⟨hname, hpath⟩ := names_of_buildIn h ha
  rw [hpath]
  refine isSome_decode?_join htext ?_
  rw [hname]
  exact a.kind.isAbsolute_output r.version

/-- A build that fails has been refused, or one of its compressions has failed. -/
theorem of_buildIn_error {e : BuildError} (h : r.buildIn base t minify = (.error e, u)) :
    e.isUsage = true ∧ (r.version = "" ∨ r.scripts.bytes = []) ∧ u = t ∨
      (∃ source, e = .compress source) ∧ r.version ≠ "" ∧ r.scripts.bytes ≠ [] := by
  cases course_of_buildIn h with
  | refused hv =>
      rcases of_validate_error hv with ⟨hversion, rfl⟩ | ⟨-, hscripts, rfl⟩
      · exact Or.inl ⟨rfl, Or.inl hversion, rfl⟩
      · exact Or.inl ⟨rfl, Or.inr hscripts, rfl⟩
  | scriptsFailed hv _ => exact Or.inr ⟨⟨_, rfl⟩, validate_eq_ok_iff.mp hv⟩
  | stylesFailed hv _ _ _ => exact Or.inr ⟨⟨_, rfl⟩, validate_eq_ok_iff.mp hv⟩

theorem of_buildIn_ok {report : Report} (h : r.buildIn base t minify = (.ok report, u)) :
    r.version ≠ "" ∧ r.scripts.bytes ≠ [] := by
  cases course_of_buildIn h with
  | scriptsOnly hv _ _ => exact validate_eq_ok_iff.mp hv
  | both hv _ _ _ => exact validate_eq_ok_iff.mp hv

end Request

/-! ### What a run does -/

namespace Settings

/-- What is answered to the result of a build. -/
def outcome (s : Settings) : Except BuildError Report → Outcome
  | .ok report => s.answer report
  | .error e => e.answer

section answers
variable {s : Settings} {report : Report} {text : String}

theorem answer_of_text (hjson : s.json = true) (h : report.json? = some text) :
    s.answer report = ⟨0, text ++ "\n", ""⟩ := by
  rw [answer, if_pos hjson, h]

theorem answer_of_no_text (hjson : s.json = true) (h : report.json? = none) :
    s.answer report = ⟨1, "", showFailure pathNotText []⟩ := by
  rw [answer, if_pos hjson, h]

theorem answer_of_not_json (hjson : s.json = false) :
    s.answer report = ⟨0, if s.quiet then "" else report.summary, ""⟩ := by
  rw [answer, if_neg (by simp [hjson])]
  split <;> rfl

end answers

/-- The version, or else the place of the scripts, is absent or empty. -/
def Lacks (s : Settings) : Prop := s.version.getD "" = "" ∨ s.scripts.getD "" = ""

theorem lacks_iff {s : Settings} :
    s.Lacks ↔ s.request.version = "" ∨ s.request.scripts.bytes = [] := by
  have hempty : ∀ text : String, Utf8.encode text = [] ↔ text = "" := fun text =>
    ⟨fun h => Utf8.encode_injective (h.trans Utf8.encode_empty.symm),
      fun h => by rw [h, Utf8.encode_empty]⟩
  unfold Lacks request Path.ofString
  rw [hempty]

end Settings

namespace Program

variable {base : Location} {minify : Minifier} {program : String} {environment : Option Bytes}
  {arguments : List Bytes} {t u : Tree} {o : Outcome}

theorem keepsTree_filtered (base : Location) (minify : Minifier) (f : LogFilter) :
    Session.KeepsTree ((Session.workbench base minify).filtered f).log := by
  intro e s
  show ((if f.enables e then Session.log e else pure () : StateM Session Unit) s).2.tree = s.tree
  split <;> rfl

/-- With settings the program answers to the result of a build. -/
theorem run_perform (w : Workbench (StateM Session)) (s : Settings) (z : Session) :
    (Program.perform w environment s).run z =
      (s.outcome (AssetPress.perform z ((w.filtered (s.logFilter environment)).build s.request)).1,
        (AssetPress.perform z ((w.filtered (s.logFilter environment)).build s.request)).2) := by
  rw [Program.perform, Settings.run_eq, StateT.run_bind, ← AssetPress.perform]
  rcases AssetPress.perform z ((w.filtered (s.logFilter environment)).build s.request) with
    ⟨e | report, z'⟩ <;> rfl

/-- Whatever the log filter lets through, a run answers to what the build of the settings does in
the tree. -/
theorem runIn_of_settings {s : Settings} (h : Settings.parse arguments = .ok s)
    (hrun : runIn base program environment arguments t minify = (o, u)) :
    o.exitCode = (s.outcome (s.request.buildIn base t minify).1).exitCode ∧
      o.stdout = (s.outcome (s.request.buildIn base t minify).1).stdout ∧
      u = (s.request.buildIn base t minify).2 := by
  obtain ⟨hresult, htree⟩ := Session.agree_build base minify
    (keepsTree_filtered base minify (s.logFilter environment)) Session.keepsTree_log s.request
    (.ofTree t) (.ofTree t) rfl
  rw [runIn, run, h] at hrun
  simp only at hrun
  rw [run_perform] at hrun
  cases hrun
  exact ⟨congrArg (fun result => (s.outcome result).exitCode) hresult,
    congrArg (fun result => (s.outcome result).stdout) hresult, htree⟩

/-! ### The ways in which a run ends -/

/-- The ways in which a run on `arguments` in tree `t` can end: what it answers and what tree it
leaves behind. -/
inductive Ending (base : Location) (minify : Minifier) (arguments : List Bytes) (t : Tree) :
    Outcome → Tree → Prop
  | help {o : Outcome} : Settings.parse arguments = .error (.help true) → o.exitCode = 0 →
      Ending base minify arguments t o t
  | misread {f : Failure} {o : Outcome} : Settings.parse arguments = .error f → f ≠ .help true →
      o.exitCode = 2 → o.stdout = "" → Ending base minify arguments t o t
  | refused {s : Settings} {o : Outcome} : Settings.parse arguments = .ok s → s.Lacks →
      (∃ e, (s.request.buildIn base t minify).1 = .error e ∧ e.isUsage = true) →
      o.exitCode = 2 → o.stdout = "" → Ending base minify arguments t o t
  | failed {s : Settings} {e : CompressError} {o : Outcome} {u : Tree} :
      Settings.parse arguments = .ok s → ¬ s.Lacks →
      s.request.buildIn base t minify = (.error (.compress e), u) → o.exitCode = 1 → o.stdout = "" →
      Ending base minify arguments t o u
  | unprintable {s : Settings} {report : Report} {o : Outcome} {u : Tree} :
      Settings.parse arguments = .ok s → ¬ s.Lacks →
      s.request.buildIn base t minify = (.ok report, u) → s.json = true →
      Utf8.decode? s.buildDir.bytes = none → o.exitCode = 1 → o.stdout = "" →
      Ending base minify arguments t o u
  | json {s : Settings} {report : Report} {text : String} {o : Outcome} {u : Tree} :
      Settings.parse arguments = .ok s → ¬ s.Lacks →
      s.request.buildIn base t minify = (.ok report, u) → s.json = true →
      (Utf8.decode? s.buildDir.bytes).isSome → report.json? = some text →
      o.exitCode = 0 → o.stdout = text ++ "\n" → Ending base minify arguments t o u
  | shown {s : Settings} {report : Report} {o : Outcome} {u : Tree} :
      Settings.parse arguments = .ok s → ¬ s.Lacks →
      s.request.buildIn base t minify = (.ok report, u) → s.json = false → o.exitCode = 0 →
      o.stdout = (if s.quiet then "" else report.summary) → Ending base minify arguments t o u

theorem ending_of_runIn (hrun : runIn base program environment arguments t minify = (o, u)) :
    Ending base minify arguments t o u := by
  cases hparse : Settings.parse arguments with
  | error f =>
      rw [runIn_of_failure hparse] at hrun
      cases hrun
      by_cases hf : f = .help true
      · subst hf
        exact .help hparse rfl
      · have hasked : f.isAnswer = false := by simpa [Failure.isAnswer] using hf
        exact .misread hparse hf (by simp [Failure.answer, Failure.exitCode, hasked])
          (by simp [Failure.answer, hasked])
  | ok s =>
      obtain ⟨hexit, hstdout, hu⟩ := runIn_of_settings hparse hrun
      rcases hbuild : s.request.buildIn base t minify with ⟨e | report, v⟩
      · rw [hbuild] at hexit hstdout hu
        subst hu
        rcases Request.of_buildIn_error hbuild with ⟨husage, hlacks, rfl⟩ | ⟨⟨e, rfl⟩, hgiven⟩
        · have hanswer : s.outcome (.error e) = ⟨2, "", "Error: " ++ e.message ++ "\n"⟩ :=
            if_pos husage
          rw [hanswer] at hexit hstdout
          exact .refused hparse (Settings.lacks_iff.mpr hlacks) ⟨e, by rw [hbuild], husage⟩ hexit
            hstdout
        · refine .failed hparse (fun h => ?_) hbuild hexit hstdout
          exact (Settings.lacks_iff.mp h).elim hgiven.1 hgiven.2
      · rw [hbuild] at hexit hstdout hu
        subst hu
        have hgiven := Request.of_buildIn_ok hbuild
        have hlacks : ¬ s.Lacks := fun h => (Settings.lacks_iff.mp h).elim hgiven.1 hgiven.2
        have htext := Request.isSome_json?_of_buildIn hbuild
        cases hjson : s.json with
        | false =>
            rw [Settings.outcome, Settings.answer_of_not_json hjson] at hexit hstdout
            exact .shown hparse hlacks hbuild hjson hexit hstdout
        | true =>
            cases hprinted : report.json? with
            | none =>
                rw [Settings.outcome, Settings.answer_of_no_text hjson hprinted] at hexit hstdout
                have hdir : Utf8.decode? s.buildDir.bytes = none := by
                  rw [hprinted] at htext
                  exact Option.not_isSome_iff_eq_none.mp fun h => nomatch htext.mpr h
                exact .unprintable hparse hlacks hbuild hjson hdir hexit hstdout
            | some text =>
                rw [Settings.outcome, Settings.answer_of_text hjson hprinted] at hexit hstdout
                have hdir := htext.mp (by rw [hprinted]; rfl)
                exact .json hparse hlacks hbuild hjson hdir hprinted hexit hstdout

/-! ### What the exit status tells -/

namespace Ending

theorem exitCode_cases (h : Ending base minify arguments t o u) :
    o.exitCode = 0 ∨ o.exitCode = 1 ∨ o.exitCode = 2 := by
  cases h with
  | help _ hexit => exact Or.inl hexit
  | misread _ _ hexit | refused _ _ _ hexit => exact Or.inr (Or.inr hexit)
  | failed _ _ _ hexit | unprintable _ _ _ _ _ hexit => exact Or.inr (Or.inl hexit)
  | json _ _ _ _ _ _ hexit | shown _ _ _ _ hexit => exact Or.inl hexit

theorem exitCode_eq_two_iff (h : Ending base minify arguments t o u) :
    o.exitCode = 2 ↔ (∃ f, Settings.parse arguments = .error f ∧ f ≠ .help true) ∨
      ∃ s, Settings.parse arguments = .ok s ∧ s.Lacks := by
  cases h with
  | help hparse hexit => simp [hparse, hexit]
  | misread hparse hf hexit => simp [hparse, hexit, hf]
  | refused hparse hlacks _ hexit | failed hparse hlacks _ hexit
  | unprintable hparse hlacks _ _ _ hexit | json hparse hlacks _ _ _ _ hexit
  | shown hparse hlacks _ _ hexit => simp [hparse, hexit, hlacks]

theorem of_exitCode_eq_two (h : Ending base minify arguments t o u) (htwo : o.exitCode = 2) :
    o.stdout = "" ∧ u = t := by
  cases h with
  | misread _ _ _ hstdout | refused _ _ _ _ hstdout => exact ⟨hstdout, rfl⟩
  | help _ hexit | failed _ _ _ hexit | unprintable _ _ _ _ _ hexit | json _ _ _ _ _ _ hexit
  | shown _ _ _ _ hexit => omega

theorem exitCode_eq_one_iff (h : Ending base minify arguments t o u) :
    o.exitCode = 1 ↔ ∃ s, Settings.parse arguments = .ok s ∧
      ((∃ e, (s.request.buildIn base t minify).1 = .error (.compress e)) ∨
        (∃ report, (s.request.buildIn base t minify).1 = .ok report) ∧ s.json = true ∧
          Utf8.decode? s.buildDir.bytes = none) := by
  cases h with
  | help hparse hexit | misread hparse _ hexit => simp [hparse, hexit]
  | refused hparse _ hbuild hexit =>
      obtain ⟨e, he, husage⟩ := hbuild
      cases e with
      | compress source => cases husage
      | missingVersion | missingScripts => simp [hparse, hexit, he]
  | failed hparse _ hbuild hexit => simp [hparse, hexit, hbuild]
  | unprintable hparse _ hbuild hjson hdir hexit => simp [hparse, hexit, hbuild, hjson, hdir]
  | json hparse _ hbuild _ hdir _ hexit =>
      have hdir' := Option.isSome_iff_ne_none.mp hdir
      simp [hparse, hexit, hbuild, hdir']
  | shown hparse _ hbuild hjson hexit => simp [hparse, hexit, hbuild, hjson]

/-- With status 1 the tree is as the build has left it, and if that has succeeded all of its
artifacts are there. -/
theorem of_exitCode_eq_one (hb : t.get? base = some .dir) (h : Ending base minify arguments t o u)
    (hone : o.exitCode = 1) :
    o.stdout = "" ∧ ∃ s, Settings.parse arguments = .ok s ∧
      u = (s.request.buildIn base t minify).2 ∧
      ∀ report, (s.request.buildIn base t minify).1 = .ok report →
        report.artifacts.map Artifact.kind = s.request.kinds ∧
        ∀ a ∈ report.artifacts, ∃ d n content,
          u.resolve base false a.path = .ok (.file d n content) ∧
            Utf8.encode (banner s.request.version) <+: content := by
  cases h with
  | @failed s _ _ _ hparse _ hbuild _ hstdout =>
      refine ⟨hstdout, s, hparse, by rw [hbuild], fun report hreport => ?_⟩
      rw [hbuild] at hreport
      cases hreport
  | @unprintable s report _ _ hparse _ hbuild _ _ _ hstdout =>
      refine ⟨hstdout, s, hparse, by rw [hbuild], fun report' hreport => ?_⟩
      rw [hbuild] at hreport
      cases hreport
      refine ⟨Request.kinds_of_buildIn hbuild, fun a ha => ?_⟩
      obtain ⟨d, n, content, hres, hbanner, -⟩ := Request.exists_file_of_buildIn hb hbuild ha
      exact ⟨d, n, content, hres, hbanner⟩
  | help _ hexit | misread _ _ hexit | refused _ _ _ hexit | json _ _ _ _ _ _ hexit
  | shown _ _ _ _ hexit => omega

/-- With status 0 the user has got help, or the report in the form that was asked for. -/
theorem of_exitCode_eq_zero (h : Ending base minify arguments t o u) (hzero : o.exitCode = 0) :
    Settings.parse arguments = .error (.help true) ∧ u = t ∨
      ∃ s report, Settings.parse arguments = .ok s ∧
        s.request.buildIn base t minify = (.ok report, u) ∧
        (s.json = true → ∃ text, report.json? = some text ∧ o.stdout = text ++ "\n") ∧
        (s.quiet = true → o.stdout = "") ∧
        (s.json = false → s.quiet = false → o.stdout = report.summary) := by
  cases h with
  | help hparse => exact Or.inl ⟨hparse, rfl⟩
  | @json s report text _ _ hparse _ hbuild hjson _ hprinted _ hstdout =>
      have hnot := Settings.not_quiet_and_json_of_parse hparse
      exact Or.inr ⟨s, report, hparse, hbuild, fun _ => ⟨text, hprinted, hstdout⟩,
        fun hquiet => absurd ⟨hquiet, hjson⟩ hnot, fun hno => by rw [hjson] at hno; cases hno⟩
  | @shown s report _ _ hparse _ hbuild hjson _ hstdout =>
      refine Or.inr ⟨s, report, hparse, hbuild, fun hyes => ?_, fun hquiet => ?_,
        fun _ hquiet => ?_⟩
      · rw [hjson] at hyes
        cases hyes
      · rw [hstdout, if_pos hquiet]
      · rw [hstdout, hquiet]
        rfl
  | misread _ _ hexit | refused _ _ _ hexit | failed _ _ _ hexit
  | unprintable _ _ _ _ _ hexit => omega

end Ending

end Program
end AssetPress
