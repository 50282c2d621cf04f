import AssetPress.Proofs.CommandLine.Verbosity
import AssetPress.Proofs.Log.Filter
import AssetPress.Proofs.Program.Reporting

/-!
# Which events a run shows

The log filter hides events, and has no other influence on a build (`perform_build_filtered`).  So
the second output of a run is made of the notices about the filter, the lines of those of the
build's events that the filter enables, and what is answered to the build's result
(`stderr_of_runIn`).  One more `--verbose` hides no line (`runIn_verbose_cons`).  Without it the
filter of the environment is followed where its directives name what they are about, but not where
it sets the plain level (`shown_of_not_verbose`).
-/

namespace AssetPress

/-! ### Filtered logs -/

namespace Session

/-- The trees are the same, and the second session holds those of the first one's events that `p`
selects. -/
def Selects (p : Event → Bool) (s s' : Session) : Prop :=
  s.tree = s'.tree ∧ s'.events = s.events.filter p

theorem lasts_selects (p : Event → Bool) : Lasts (Selects p) where
  tree_eq h := h.1
  withTree _ h := ⟨rfl, h.2⟩

theorem logsAlike_filtered (base : Location) (minify : Minifier) (f : LogFilter) :
    LogsAlike (Selects f.enables) log ((workbench base minify).filtered f).log := by
  rintro e s s' ⟨htree, hevents⟩
  have hlog : (log e s).2.events.filter f.enables =
      s.events.filter f.enables ++ [e].filter f.enables := List.filter_append ..
  show Selects f.enables (log e s).2
    ((if f.enables e then log e else pure () : StateM Session Unit) s').2
  cases he : f.enables e with
  | true =>
      refine ⟨htree, ?_⟩
      rw [hlog, List.filter_cons_of_pos he, ← hevents]
      rfl
  | false =>
      refine ⟨htree, ?_⟩
      rw [hlog, List.filter_cons_of_neg (by simp [he]), ← hevents]
      exact (List.append_nil _).symm

end Session

/-- The events that the build of a request tells in a file tree, in their order. -/
def Request.toldIn (base : Location) (r : Request) (t : Tree) (minify : Minifier := .standard) :
    List Event :=
  (perform (.ofTree t) ((Session.workbench base minify).build r)).2.events

/-- A filtered build answers and does what it does without a filter, and tells the events that are
enabled. -/
theorem Request.perform_build_filtered (base : Location) (minify : Minifier) (r : Request)
    (t : Tree) (f : LogFilter) :
    perform (.ofTree t) (((Session.workbench base minify).filtered f).build r) =
      ((r.buildIn base t minify).1,
        ⟨(r.buildIn base t minify).2, (r.toldIn base t minify).filter f.enables⟩) := by
  have hstart : Session.Selects f.enables (.ofTree t) (.ofTree t) := ⟨rfl, rfl⟩
  obtain ⟨hresult, htree, hevents⟩ := Session.agreeOn_build (Session.lasts_selects f.enables) base
    minify (Session.logsAlike_filtered base minify f) r _ _ hstart
  refine Prod.ext hresult.symm ?_
  rw [← show _ = (r.buildIn base t minify).2 from htree.symm]
  exact congrArg (Session.mk _) hevents

/-- The build of the five scripts at the root tells two pieces of information, one from each part of
the program, and what is read and left out in between. -/
theorem Request.toldIn_workplace :
    toldIn [] ⟨"1.0.0", .ofString "/", none, defaultBuildDir⟩ Tree.workplace =
      [.pressingScripts (.ofString "/") "Pete_1.0.0.min.js",
        .reading (.ofString "/Pete.prototype.js"), .reading (.ofString "/Pete.js"),
        .reading (.ofString "/Pete.Element.js"), .reading (.ofString "/Pete.Composite.js"),
        .reading (.ofString "/Pete.Observer.js"), .wrote (.ofString "./Pete_1.0.0.min.js") 29,
        .noStyles] := by
  decide +kernel

namespace Settings

/-- The events that a run shows: those of its build that the filter enables. -/
def shownIn (base : Location) (environment : Option Bytes) (t : Tree) (s : Settings)
    (minify : Minifier := .standard) : List Event :=
  (s.request.toldIn base t minify).filter (s.logFilter environment).enables

def logLinesIn (base : Location) (environment : Option Bytes) (t : Tree) (s : Settings)
    (minify : Minifier := .standard) : List String :=
  (s.shownIn base environment t minify).map Event.printed

theorem length_logLinesIn (base : Location) (environment : Option Bytes) (t : Tree)
    (s : Settings) (minify : Minifier) :
    (s.logLinesIn base environment t minify).length =
      (s.shownIn base environment t minify).length :=
  List.length_map _

variable {base : Location} {minify : Minifier} {environment : Option Bytes} {t : Tree}
  {s : Settings}

theorem level_of_verbosity_zero (h : s.verbosity = 0) : s.level = .warn := by simp [level, h]

theorem rank_level_le_louder (s : Settings) : s.level.rank ≤ s.louder.level.rank := by
  unfold level louder maxVerbosity
  simp only
  generalize s.verbosity = asked
  rcases asked with _ | _ | more
  · decide
  · decide
  · have hlouder : min (more + 1 + 1 + 1) 255 = min (more + 1) 253 + 2 := by omega
    rw [hlouder]
    exact Nat.le_refl _

/-- A louder run shows what is shown without it, and perhaps more in between. -/
theorem shownIn_sublist_louder (base : Location) (environment : Option Bytes) (t : Tree)
    (s : Settings) (minify : Minifier) :
    (s.shownIn base environment t minify).Sublist (s.louder.shownIn base environment t minify) :=
  LogFilter.filter_withPlain_sublist _ s.rank_level_le_louder _

/-- Without verbosity an event that the environment enables is shown exactly if one of the
directives is about it, or it is at least a warning. -/
theorem mem_shownIn_iff_of_verbosity_zero (hzero : s.verbosity = 0) {e : Event}
    (he : e ∈ s.request.toldIn base t minify)
    (henables : (LogFilter.parse (filterText environment)).enables e = true) :
    e ∈ s.shownIn base environment t minify ↔
      (∃ d ∈ (LogFilter.parse (filterText environment)).rules, d.fits e = true) ∨
        e.level.rank ≤ Level.warn.rank := by
  have hmem : e ∈ s.shownIn base environment t minify ↔
      (s.logFilter environment).enables e = true :=
    List.mem_filter.trans (and_iff_right he)
  rw [hmem, logFilter, level_of_verbosity_zero hzero]
  by_cases hfits : ∃ d ∈ (LogFilter.parse (filterText environment)).rules, d.fits e = true
  · rw [LogFilter.enables_withPlain_of_fits hfits]
    exact ⟨fun _ => Or.inl hfits, fun _ => henables⟩
  · rw [LogFilter.enables_withPlain_iff_of_not_fits hfits]
    exact ⟨Or.inr, fun h => h.resolve_left hfits⟩

end Settings

/-! ### Runs -/

namespace Program

variable {base : Location} {minify : Minifier} {program : String} {environment : Option Bytes}
  {arguments : List Bytes} {t : Tree} {s : Settings}

/-- What stands on the second output: the notices about the filter, the log, and what is answered to
the result of the build. -/
theorem stderr_of_runIn (h : Settings.parse arguments = .ok s) :
    (runIn base program environment arguments t minify).1.stderr =
      LogFilter.notices (Settings.filterText environment) ++
        String.join (s.logLinesIn base environment t minify) ++
        (s.outcome (s.request.buildIn base t minify).1).stderr := by
  have hrun : (perform (Session.workbench base minify) environment s).run (.ofTree t) = _ :=
    run_perform (Session.workbench base minify) s (.ofTree t)
  rw [Request.perform_build_filtered] at hrun
  rw [runIn, run, notices, h]
  simp only
  rw [hrun]
  rfl

/-- One more `--verbose` in front of arguments that can be read: the run exits as before, answers
the same on the first output and leaves the same tree.  On the second output the notices about the
filter and the answer to the build's result stay, and between them no line of the log goes away.
-/
theorem runIn_verbose_cons (h : Settings.parse arguments = .ok s) (base : Location)
    (program : String) (environment : Option Bytes) (t : Tree) (minify : Minifier) :
    let run := runIn base program environment arguments t minify
    let louder := runIn base program environment (verboseArgument :: arguments) t minify
    let front := LogFilter.notices (Settings.filterText environment)
    let lines := s.logLinesIn base environment t minify
    let lines' := s.louder.logLinesIn base environment t minify
    let back := (s.outcome (s.request.buildIn base t minify).1).stderr
    louder.1.exitCode = run.1.exitCode ∧ louder.1.stdout = run.1.stdout ∧ louder.2 = run.2 ∧
      run.1.stderr = front ++ String.join lines ++ back ∧
      louder.1.stderr = front ++ String.join lines' ++ back ∧ lines.Sublist lines' := by
  intro run louder front lines lines' back
  have hlouder : Settings.parse (verboseArgument :: arguments) = .ok s.louder :=
    Settings.parse_verbose_cons h
  have hrun : run.1.exitCode = _ ∧ run.1.stdout = _ ∧ run.2 = _ := runIn_of_settings h rfl
  have hrun' : louder.1.exitCode = _ ∧ louder.1.stdout = _ ∧ louder.2 = _ :=
    runIn_of_settings hlouder rfl
  have hrequest : s.louder.request = s.request := rfl
  have houtcome : s.louder.outcome (s.request.buildIn base t minify).1 =
      s.outcome (s.request.buildIn base t minify).1 := Settings.outcome_eq rfl rfl _
  rw [hrequest, houtcome] at hrun'
  obtain ⟨hexit, hstdout, htree⟩ := hrun
  obtain ⟨hexit', hstdout', htree'⟩ := hrun'
  refine ⟨hexit'.trans hexit.symm, hstdout'.trans hstdout.symm, htree'.trans htree.symm,
    stderr_of_runIn h, ?_, (s.shownIn_sublist_louder base environment t minify).map _⟩
  have hstderr : louder.1.stderr = _ := stderr_of_runIn hlouder
  rw [hrequest, houtcome] at hstderr
  exact hstderr

/-- A run in an environment that asks for all that one part of the program tells: it shows what that
part reads and writes, and once more verbose also what the other part compresses. -/
theorem runIn_verbose_cons_target :
    let arguments := ["-v", "1.0.0", "--js_src", "/"].map Utf8.encode
    let environment := some (Utf8.encode "petebuild::infra=debug")
    let s : Settings := ⟨some "1.0.0", some "/", none, Request.defaultBuildDir, 0, false, false⟩
    let run := runIn [] "petebuild" environment arguments Tree.workplace
    let louder := runIn [] "petebuild" environment (verboseArgument :: arguments) Tree.workplace
    let lines := s.logLinesIn [] environment Tree.workplace
    let lines' := s.louder.logLinesIn [] environment Tree.workplace
    Settings.parse arguments = .ok s ∧ louder.1.exitCode = run.1.exitCode ∧
      louder.1.stdout = run.1.stdout ∧ louder.2 = run.2 ∧ lines.Sublist lines' ∧
      lines.length = 6 ∧ lines'.length = 7 := by
  intro arguments environment s run louder lines lines'
  have hparse : Settings.parse arguments = .ok s := by rfl
  obtain ⟨hexit, hstdout, htree, -, -, hlines⟩ :=
    runIn_verbose_cons hparse [] "petebuild" environment Tree.workplace .standard
  -- The runs are to be compared, not carried out.
  have hrun : runIn [] "petebuild" environment arguments Tree.workplace = run := rfl
  have hlouder :
      runIn [] "petebuild" environment (verboseArgument :: arguments) Tree.workplace = louder := rfl
  rw [hrun, hlouder] at hexit hstdout htree
  have htold : s.request.toldIn [] Tree.workplace = _ := Request.toldIn_workplace
  have htold' : s.louder.request.toldIn [] Tree.workplace = _ := htold
  have hlength : lines.length = 6 := by
    rw [s.length_logLinesIn, Settings.shownIn, htold]
    decide +kernel
  have hlength' : lines'.length = 7 := by
    rw [s.louder.length_logLinesIn, Settings.shownIn, htold']
    decide +kernel
  exact ⟨hparse, hexit, hstdout, htree, hlines, hlength, hlength'⟩

/-- Arguments without `--verbose`: of the events of the build, the log shows one that the
environment's filter enables exactly if a directive of the filter is about it, or the event is at
least a warning.  The plain level that the environment asks for is not followed. -/
theorem shown_of_not_verbose (h : Settings.parse arguments = .ok s)
    (hnot : verboseArgument ∉ arguments) (base : Location) (program : String)
    (environment : Option Bytes) (t : Tree) (minify : Minifier) :
    let own := LogFilter.parse (Settings.filterText environment)
    let shown := s.shownIn base environment t minify
    (runIn base program environment arguments t minify).1.stderr =
        LogFilter.notices (Settings.filterText environment) ++
          String.join (shown.map Event.printed) ++
          (s.outcome (s.request.buildIn base t minify).1).stderr ∧
      shown.Sublist (s.request.toldIn base t minify) ∧
      ∀ e ∈ s.request.toldIn base t minify, own.enables e = true →
        (e ∈ shown ↔ (∃ d ∈ own.rules, d.fits e = true) ∨ e.level.rank ≤ Level.warn.rank) :=
  ⟨stderr_of_runIn h, List.filter_sublist, fun _ he henables =>
    Settings.mem_shownIn_iff_of_verbosity_zero (Settings.verbosity_of_parse h hnot) he henables⟩

/-- An environment that asks for information of all kinds, and from one part of the program for
more: all that the part tells is shown, as asked for, and the information from the other part is
not. -/
theorem shown_of_not_verbose_target :
    let arguments := ["-v", "1.0.0", "--js_src", "/"].map Utf8.encode
    let environment := some (Utf8.encode "info,petebuild::infra=debug")
    let s : Settings := ⟨some "1.0.0", some "/", none, Request.defaultBuildDir, 0, false, false⟩
    let own := LogFilter.parse (Settings.filterText environment)
    let told := s.request.toldIn [] Tree.workplace
    let shown := s.shownIn [] environment Tree.workplace
    Settings.parse arguments = .ok s ∧ verboseArgument ∉ arguments ∧
      (∀ e ∈ told, own.enables e = true →
        (e ∈ shown ↔ (∃ d ∈ own.rules, d.fits e = true) ∨ e.level.rank ≤ Level.warn.rank)) ∧
      (told.filter own.enables).length = 7 ∧ shown.length = 6 := by
  intro arguments environment s own told shown
  have hparse : Settings.parse arguments = .ok s := by rfl
  have hnot : verboseArgument ∉ arguments := by decide
  obtain ⟨-, -, hshown⟩ :=
    shown_of_not_verbose hparse hnot [] "petebuild" environment Tree.workplace .standard
  have htold : s.request.toldIn [] Tree.workplace = _ := Request.toldIn_workplace
  have henabled : ((s.request.toldIn [] Tree.workplace).filter own.enables).length = 7 := by
    rw [htold]
    decide +kernel
  have hlength : (s.shownIn [] environment Tree.workplace).length = 6 := by
    rw [Settings.shownIn, htold]
    decide +kernel
  exact ⟨hparse, hnot, hshown, henabled, hlength⟩

/-- An environment that asks for information, and a run without `--verbose` that is not shown any:
two events are enabled, and the second output stays empty. -/
theorem stderr_eq_empty_of_info :
    let arguments := ["-v", "1.0.0", "--js_src", "src", "--build_dir", "out", "--quiet"].map
      Utf8.encode
    let environment := some (Utf8.encode "info")
    let s : Settings := ⟨some "1.0.0", some "src", none, .ofString "out", 0, true, false⟩
    let own := LogFilter.parse (Settings.filterText environment)
    Settings.parse arguments = .ok s ∧ verboseArgument ∉ arguments ∧
      LogFilter.notices (Settings.filterText environment) = "" ∧
      ((s.request.toldIn [] Tree.sources).filter own.enables).length = 2 ∧
      (runIn [] "petebuild" environment arguments Tree.sources).1.stderr = "" := by
  intro arguments environment s own
  have hparse : Settings.parse arguments = .ok s := by rfl
  have hnotices : LogFilter.notices (Settings.filterText environment) = "" := by decide +kernel
  have htold : s.request.toldIn [] Tree.sources =
      [.pressingScripts (.ofString "src") "Pete_1.0.0.min.js",
        .reading (.ofString "src/Pete.prototype.js"), .reading (.ofString "src/Pete.js"),
        .reading (.ofString "src/Pete.Element.js"), .reading (.ofString "src/Pete.Composite.js"),
        .reading (.ofString "src/Pete.Observer.js"), .wrote (.ofString "out/Pete_1.0.0.min.js") 29,
        .noStyles] := by decide +kernel
  have henabled : ((s.request.toldIn [] Tree.sources).filter own.enables).length = 2 := by
    rw [htold]
    decide +kernel
  have hlines : s.logLinesIn [] environment Tree.sources = [] := by
    rw [Settings.logLinesIn, Settings.shownIn, htold]
    decide +kernel
  have hanswer : (s.outcome (s.request.buildIn [] Tree.sources).1).stderr = "" := by
    decide +kernel
  refine ⟨hparse, by decide, hnotices, henabled, ?_⟩
  rw [stderr_of_runIn hparse, hnotices, hlines, hanswer]
  rfl

end Program
end AssetPress
