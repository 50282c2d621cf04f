import AssetPress.Proofs.Build.Equation

/-!
# The calls of a build

What a build asks of its compressor, whatever the compressor answers and whatever state it keeps
between calls.  A compressor is made to keep a record of its exchanges (`Compressor.recorded`);
the record of a build is that of asking for the calls the request is due, in order, up to the first
one that fails (`Asked`), and the answer of the build is made of the answers in the record.
-/

namespace AssetPress

/-- A call to a compressor. -/
inductive Call where
  | scripts (job : ScriptJob)
  | styles (job : StyleJob)
  deriving DecidableEq, Repr

/-- A call and the answer to it. -/
structure Exchange where
  call : Call
  answer : Except CompressError Artifact

/-- The exchanges of asking for calls in order, up to the first one that fails, and what comes of
them: the failure, or the artifacts in the order of the calls. -/
inductive Asked : List Call → List Exchange → Except CompressError (List Artifact) → Prop
  | done : Asked [] [] (.ok [])
  | failed (call : Call) (due : List Call) (e : CompressError) :
      Asked (call :: due) [⟨call, .error e⟩] (.error e)
  | answered (call : Call) {due : List Call} (a : Artifact) {past : List Exchange}
      {outcome : Except CompressError (List Artifact)} : Asked due past outcome →
      Asked (call :: due) (⟨call, .ok a⟩ :: past) (outcome.map (a :: ·))

/-! ### Recording -/

variable {σ : Type}

/-- Keeps a call with the answer to it, behind the exchanges before. -/
def recording (call : Call) (x : ExceptT CompressError (StateM σ) Artifact) :
    ExceptT CompressError (StateM (σ × List Exchange)) Artifact :=
  fun (s, past) =>
    let (answer, s') := perform s x
    (answer, s', past ++ [⟨call, answer⟩])

/-- The compressor that answers as `c` does and keeps a record of its exchanges. -/
def Compressor.recorded (c : Compressor (StateM σ)) : Compressor (StateM (σ × List Exchange)) where
  scripts job := recording (.scripts job) (c.scripts job)
  styles job := recording (.styles job) (c.styles job)

def logBeside (log : Event → StateM σ Unit) (e : Event) : StateM (σ × List Exchange) Unit :=
  fun (s, past) => ((log e s).1, (log e s).2, past)

theorem perform_recording (s : σ) (past : List Exchange) (call : Call)
    (x : ExceptT CompressError (StateM σ) Artifact) :
    perform (s, past) (recording call x) =
      ((perform s x).1, (perform s x).2, past ++ [⟨call, (perform s x).1⟩]) := rfl

theorem Asked.ne_nil {call : Call} {due : List Call} {past : List Exchange}
    {outcome : Except CompressError (List Artifact)} (h : Asked (call :: due) past outcome) :
    past ≠ [] := by
  cases h <;> simp

namespace Request

theorem logged_logBeside (log : Event → StateM σ Unit) (events : List Event) (s : σ)
    (past : List Exchange) :
    logged (logBeside log) events (s, past) = (logged log events s, past) := by
  induction events generalizing s with
  | nil => rfl
  | cons e rest ih => exact ih _

/-! ### What a request is due -/

/-- The calls that a valid request is due: one for the scripts, and one for the stylesheets if
their directory is given and not empty. -/
def dueCalls (r : Request) : List Call :=
  .scripts ⟨r.scripts, "Pete_" ++ r.version ++ ".min.js", r.buildDir, r.version,
    ⟨["Pete.prototype.js", "Pete.js", "Pete.Element.js", "Pete.Composite.js",
      "Pete.Observer.js"]⟩⟩ ::
  match r.styles with
  | none => []
  | some dir =>
      if dir.bytes = [] then []
      else [.styles ⟨dir, "Pete_CSS_" ++ r.version ++ ".min.js", r.buildDir, r.version⟩]

theorem dueCalls_of_none {r : Request} (h : r.styleSource = none) :
    r.dueCalls = [.scripts r.scriptJob] := by
  unfold dueCalls
  cases hs : r.styles with
  | none => rfl
  | some dir =>
      have hdir : dir.bytes = [] := by
        simpa [styleSource, hs, Option.filter, Path.isEmpty] using h
      simp only [hdir, if_true]
      rfl

theorem dueCalls_of_some {r : Request} {dir : Path} (h : r.styleSource = some dir) :
    r.dueCalls = [.scripts r.scriptJob, .styles (r.styleJob dir)] := by
  obtain ⟨hs, hdir⟩ := styleSource_eq_some_iff.mp h
  unfold dueCalls
  simp only [hs, hdir, if_false]
  rfl

/-- A record changes nothing, and is that of asking for the calls that are due. -/
theorem asked_compressions (log : Event → StateM σ Unit) (c : Compressor (StateM σ)) (r : Request)
    (s : σ) : ∃ past, Asked r.dueCalls past (compressions log c r s).1 ∧
      compressions (logBeside log) c.recorded r (s, []) =
        ((compressions log c r s).1, (compressions log c r s).2, past) := by
  have hscripts : perform (s, []) (c.recorded.scripts r.scriptJob) = _ := perform_recording ..
  unfold compressions
  rw [hscripts]
  rcases perform s (c.scripts r.scriptJob) with ⟨e | a, s₁⟩
  · have hasked : Asked r.dueCalls _ _ := .failed (.scripts r.scriptJob) _ e
    exact ⟨_, hasked, rfl⟩
  · cases hstyles : r.styleSource with
    | none =>
        rw [dueCalls_of_none hstyles]
        exact ⟨_, .answered _ a .done, rfl⟩
    | some dir =>
        rw [dueCalls_of_some hstyles]
        simp only [logged_logBeside]
        have hstyle : ∀ m past, perform (m, past) (c.recorded.styles (r.styleJob dir)) = _ :=
          fun m past => perform_recording ..
        rw [hstyle]
        rcases perform (logged log [.pressingStyles dir (styleOutput r.version)] s₁)
          (c.styles (r.styleJob dir)) with ⟨e | b, s₂⟩
        · exact ⟨_, .answered _ a (.failed _ [] e), rfl⟩
        · exact ⟨_, .answered _ a (.answered _ b .done), rfl⟩

/-- What a build answers to a request, and the exchanges that it has with its compressor. -/
def recordedBuild (r : Request) (log : Event → StateM σ Unit) (c : Compressor (StateM σ)) (s : σ) :
    Except BuildError Report × List Exchange :=
  let (result, _, past) := perform (s, []) (r.build (logBeside log) c.recorded)
  (result, past)

theorem of_validate_error {r : Request} {why : BuildError} (h : r.validate = .error why) :
    r.version = "" ∧ why = .missingVersion ∨
      r.version ≠ "" ∧ r.scripts.bytes = [] ∧ why = .missingScripts := by
  unfold validate Path.isEmpty at h
  split at h
  case isTrue hversion =>
    cases h
    exact Or.inl ⟨hversion, rfl⟩
  case isFalse hversion =>
    split at h
    case isTrue hscripts =>
      cases h
      exact Or.inr ⟨hversion, List.isEmpty_iff.mp hscripts, rfl⟩
    case isFalse => cases h

theorem recordedBuild_of_invalid {r : Request} {why : BuildError} (h : r.validate = .error why)
    (log : Event → StateM σ Unit) (c : Compressor (StateM σ)) (s : σ) :
    r.recordedBuild log c s = (.error why, []) := by
  rw [recordedBuild, perform_build_of_invalid h]

theorem recordedBuild_of_valid {r : Request} (h : r.validate = .ok ())
    (log : Event → StateM σ Unit) (c : Compressor (StateM σ)) (s : σ) :
    ∃ past, Asked r.dueCalls past (compressions log c r (logged log r.opening s)).1 ∧
      r.recordedBuild log c s =
        (((compressions log c r (logged log r.opening s)).1.map
          (Report.mk r.version r.buildDir)).mapError .compress, past) := by
  obtain ⟨past, hasked, heq⟩ := asked_compressions log c r (logged log r.opening s)
  refine ⟨past, hasked, ?_⟩
  rw [recordedBuild, perform_build_of_valid h, logged_logBeside, heq]

/-- A build without a version, or else without scripts, asks its compressor for nothing.  Any
other build asks for the calls that its request is due, in order, up to the first that fails, and
answers with the artifacts it gets or with that failure. -/
theorem exchanges_of_build (r : Request) (log : Event → StateM σ Unit) (c : Compressor (StateM σ))
    (s : σ) {result : Except BuildError Report} {past : List Exchange}
    (h : r.recordedBuild log c s = (result, past)) :
    result = (perform s (r.build log c)).1 ∧
      (r.version = "" → past = [] ∧ result = .error .missingVersion) ∧
      (r.version ≠ "" → r.scripts.bytes = [] → past = [] ∧ result = .error .missingScripts) ∧
      (r.version ≠ "" → r.scripts.bytes ≠ [] → ∃ outcome, Asked r.dueCalls past outcome ∧
        result = (outcome.map (Report.mk r.version r.buildDir)).mapError .compress) ∧
      ∀ e, result = .error e → (e.isUsage = true ↔ past = []) := by
  cases hv : r.validate with
  | error why =>
      rw [recordedBuild_of_invalid hv] at h
      obtain ⟨rfl, rfl⟩ := Prod.mk.inj h
      refine ⟨by rw [perform_build_of_invalid hv], ?_⟩
      rcases of_validate_error hv with ⟨hversion, rfl⟩ | ⟨hversion, hscripts, rfl⟩
      · refine ⟨fun _ => ⟨rfl, rfl⟩, fun hne => absurd hversion hne,
          fun hne => absurd hversion hne, fun e he => ?_⟩
        cases he
        exact ⟨fun _ => rfl, fun _ => rfl⟩
      · refine ⟨fun heq => absurd heq hversion, fun _ _ => ⟨rfl, rfl⟩,
          fun _ hne => absurd hscripts hne, fun e he => ?_⟩
        cases he
        exact ⟨fun _ => rfl, fun _ => rfl⟩
  | ok _ =>
      obtain ⟨hversion, hscripts⟩ := validate_eq_ok_iff.mp hv
      obtain ⟨past', hasked, heq⟩ := recordedBuild_of_valid hv log c s
      rw [heq] at h
      obtain ⟨rfl, rfl⟩ := Prod.mk.inj h
      refine ⟨by rw [perform_build_of_valid hv], fun hempty => absurd hempty hversion,
        fun _ hempty => absurd hempty hscripts, fun _ _ => ⟨_, hasked, rfl⟩, fun e he => ?_⟩
      -- A valid request fails only through its compressor, which has then been asked.
      have hne : past' ≠ [] := by
        rw [dueCalls] at hasked
        exact hasked.ne_nil
      cases hout : (compressions log c r (logged log r.opening s)).1 with
      | error why =>
          rw [hout] at he
          cases he
          exact ⟨fun husage => (by cases husage), fun hnil => absurd hnil hne⟩
      | ok artifacts =>
          rw [hout] at he
          cases he

/-- A compressor that counts its calls, presses scripts and finds no stylesheets. -/
def halfway : Compressor (StateM Nat) where
  scripts job := fun n =>
    (.ok ⟨.script, job.output, job.buildDir, job.files.size, 10, 5, ""⟩, n + 1)
  styles job := fun n => (.error (.noStylesheets job.source), n + 1)

/-- A build that fails with its stylesheets has asked for the scripts before. -/
theorem exchanges_of_build_halfway :
    let r : Request := ⟨"3.0.0", .ofString "src", some (.ofString "css"), .ofString "build"⟩
    let past : List Exchange :=
      [⟨.scripts r.scriptJob, .ok ⟨.script, "Pete_3.0.0.min.js", r.buildDir, 5, 10, 5, ""⟩⟩,
        ⟨.styles (r.styleJob (.ofString "css")), .error (.noStylesheets (.ofString "css"))⟩]
    r.recordedBuild (fun _ => pure ()) halfway 0 =
        (.error (.compress (.noStylesheets (.ofString "css"))), past) ∧
      ∃ outcome, Asked r.dueCalls past outcome := by
  intro r past
  have hrun : r.recordedBuild (fun _ => pure ()) halfway 0 =
      (.error (.compress (.noStylesheets (.ofString "css"))), past) := by
    rw [recordedBuild, perform_build_of_valid (validate_eq_ok_iff.mpr (by decide)),
      logged_logBeside]
    rfl
  obtain ⟨outcome, hasked, -⟩ :=
    (exchanges_of_build r (fun _ => pure ()) halfway 0 hrun).2.2.2.1 (by decide) (by decide)
  exact ⟨hrun, outcome, hasked⟩

end Request
end AssetPress
