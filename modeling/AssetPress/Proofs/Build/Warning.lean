import AssetPress.Proofs.Build.Calls
import AssetPress.Proofs.Version.Parts

/-!
# The warning of a build

What a build does is watched from outside (`Deed`): it tells events and calls its compressor,
which answers whatever it likes.  Watching changes nothing (`perform_build_watched`).  A valid
request whose version is no semantic one is warned about once, before anything else is done, and
any other is not warned about; in both cases the scripts are asked for.  Main statement:
`warning_of_build`.
-/

namespace AssetPress

/-- What a build does: it tells an event, or it calls its compressor. -/
inductive Deed where
  | tells (e : Event)
  | calls (call : Call)
  deriving DecidableEq, Repr

def Deed.isWarning : Deed → Bool
  | tells e => e.level == .warn
  | calls _ => false

/-! ### Watching -/

variable {σ : Type}

/-- Keeps a call among the deeds, ahead of what is done to answer it. -/
def watching {α : Type} (call : Call) (x : ExceptT CompressError (StateM σ) α) :
    ExceptT CompressError (StateM (σ × List Deed)) α :=
  fun (s, past) => ((perform s x).1, (perform s x).2, past ++ [.calls call])

/-- The compressor that answers as `c` does, with its calls kept. -/
def Compressor.watched (c : Compressor (StateM σ)) : Compressor (StateM (σ × List Deed)) where
  scripts job := watching (.scripts job) (c.scripts job)
  styles job := watching (.styles job) (c.styles job)

/-- The log that does what `log` does, with its events kept. -/
def logWatched (log : Event → StateM σ Unit) (e : Event) : StateM (σ × List Deed) Unit :=
  fun (s, past) => ((log e s).1, (log e s).2, past ++ [.tells e])

theorem perform_watching {α : Type} (s : σ) (past : List Deed) (call : Call)
    (x : ExceptT CompressError (StateM σ) α) :
    perform (s, past) (watching call x) =
      ((perform s x).1, (perform s x).2, past ++ [.calls call]) := rfl

namespace Request

variable (log : Event → StateM σ Unit) (c : Compressor (StateM σ)) (r : Request)

theorem logged_logWatched (events : List Event) (s : σ) (past : List Deed) :
    logged (logWatched log) events (s, past) =
      (logged log events s, past ++ events.map .tells) := by
  induction events generalizing s past with
  | nil => rw [List.map_nil, List.append_nil]; rfl
  | cons e rest ih =>
      have hrest := ih (log e s).2 (past ++ [.tells e])
      rw [List.append_assoc] at hrest
      exact hrest

/-- What is done once the scripts have been asked for. -/
def afterScripts (r : Request) : Except CompressError Artifact → List Deed
  | .error _ => []
  | .ok _ =>
      match r.styleSource with
      | none => [.tells .noStyles]
      | some dir => [.tells (.pressingStyles dir (styleOutput r.version)),
          .calls (.styles (r.styleJob dir))]

theorem isWarning_afterScripts (answer : Except CompressError Artifact) :
    ∀ d ∈ r.afterScripts answer, d.isWarning = false := by
  cases answer with
  | error e => simp [afterScripts]
  | ok a =>
      rw [afterScripts]
      cases r.styleSource with
      | none => simp [Deed.isWarning, Event.level]
      | some dir => simp [Deed.isWarning, Event.level]

/-- Watched compressions give what they give unwatched, and begin with the scripts. -/
theorem compressions_watched (s : σ) (past : List Deed) :
    compressions (logWatched log) c.watched r (s, past) =
      ((compressions log c r s).1, (compressions log c r s).2,
        past ++ .calls (.scripts r.scriptJob) ::
          r.afterScripts (perform s (c.scripts r.scriptJob)).1) := by
  have hscripts : perform (s, past) (c.watched.scripts r.scriptJob) = _ := perform_watching ..
  unfold compressions
  rw [hscripts]
  rcases perform s (c.scripts r.scriptJob) with ⟨e | a, s₁⟩
  · rfl
  · simp only [afterScripts]
    cases r.styleSource with
    | none =>
        simp only [logged_logWatched, List.append_assoc]
        rfl
    | some dir =>
        have hstyles : ∀ m more, perform (m, more) (c.watched.styles (r.styleJob dir)) = _ :=
          fun m more => perform_watching ..
        simp only [logged_logWatched, hstyles, List.append_assoc]
        rcases perform (logged log [.pressingStyles dir (styleOutput r.version)] s₁)
          (c.styles (r.styleJob dir)) with ⟨e | b, s₂⟩ <;> rfl

variable {r} in
/-- A watched build gives what it gives unwatched; it tells its opening, and then asks for the
scripts. -/
theorem perform_build_watched (hv : r.validate = .ok ()) (s : σ) :
    perform (s, []) (r.build (logWatched log) c.watched) =
      ((perform s (r.build log c)).1, (perform s (r.build log c)).2,
        r.opening.map .tells ++ .calls (.scripts r.scriptJob) ::
          r.afterScripts (perform (logged log r.opening s) (c.scripts r.scriptJob)).1) := by
  rw [perform_build_of_valid hv, perform_build_of_valid hv, logged_logWatched,
    compressions_watched, List.nil_append]

/-- What a build answers to a request, and what it does on the way. -/
def watchedBuild (s : σ) : Except BuildError Report × List Deed :=
  let (result, _, deeds) := perform (s, []) (r.build (logWatched log) c.watched)
  (result, deeds)

/-! ### Openings -/

theorem opening_of_semantic {r : Request} (h : SemanticVersion.isSemantic r.version = true) :
    r.opening = [.pressingScripts r.scripts (scriptOutput r.version)] := by
  rw [opening, if_pos h]
  rfl

theorem opening_of_not_semantic {r : Request} (h : SemanticVersion.isSemantic r.version = false) :
    r.opening =
      [.unusualVersion r.version, .pressingScripts r.scripts (scriptOutput r.version)] := by
  rw [opening, if_neg (by simp [h])]
  rfl

theorem validate_of_version {r : Request} (hv : r.validate = .ok ()) {version : String}
    (h : version ≠ "") : ({ r with version } : Request).validate = .ok () :=
  validate_eq_ok_iff.mpr ⟨h, (validate_eq_ok_iff.mp hv).2⟩

theorem exists_compress_of_build {r : Request} (hv : r.validate = .ok ()) {s : σ} {e : BuildError}
    (h : (perform s (r.build log c)).1 = .error e) : ∃ why, e = .compress why := by
  rw [perform_build_of_valid hv] at h
  cases hout : (compressions log c r (logged log r.opening s)).1 with
  | error why =>
      rw [hout] at h
      cases h
      exact ⟨why, rfl⟩
  | ok artifacts =>
      rw [hout] at h
      cases h

/-- Whatever its compressor answers, the build of a valid request tells exactly one warning, before
anything else that it does, if the version is no semantic one, and none if it is; semantic are
exactly the versions that are written from their parts.  No version but the empty one is refused:
the scripts are asked for, and the build fails only if a compression does. -/
theorem warning_of_build {r : Request} (hv : r.validate = .ok ()) (s : σ)
    {result : Except BuildError Report} {deeds : List Deed}
    (h : r.watchedBuild log c s = (result, deeds)) :
    result = (perform s (r.build log c)).1 ∧
      (SemanticVersion.isSemantic r.version = false → ∃ rest,
        deeds = .tells (.unusualVersion r.version) :: rest ∧ ∀ d ∈ rest, d.isWarning = false) ∧
      (SemanticVersion.isSemantic r.version = true → ∀ d ∈ deeds, d.isWarning = false) ∧
      (∀ version, SemanticVersion.isSemantic version = true ↔
        ∃ v : SemanticVersion.Parts, v.text = version.toList) ∧
      (∀ version ≠ "", ({ r with version } : Request).validate = .ok ()) ∧
      .calls (.scripts r.scriptJob) ∈ deeds ∧
      ∀ e, result = .error e → ∃ why, e = .compress why := by
  rw [watchedBuild, perform_build_watched log c hv] at h
  obtain ⟨rfl, rfl⟩ := Prod.mk.inj h
  have hafter : ∀ answer, ∀ d ∈ Deed.tells (.pressingScripts r.scripts (scriptOutput r.version)) ::
      .calls (.scripts r.scriptJob) :: r.afterScripts answer, d.isWarning = false := by
    intro answer d hd
    rcases List.mem_cons.mp hd with rfl | hd
    · rfl
    · rcases List.mem_cons.mp hd with rfl | hd
      · rfl
      · exact r.isWarning_afterScripts answer d hd
  refine ⟨rfl, fun hunusual => ?_, fun hsemantic => ?_,
    fun _ => SemanticVersion.isSemantic_eq_true_iff, fun _ => validate_of_version hv, by simp,
    fun _ => exists_compress_of_build log c hv⟩
  · rw [opening_of_not_semantic hunusual]
    exact ⟨_, rfl, hafter _⟩
  · rw [opening_of_semantic hsemantic]
    exact hafter _

/-- A version of two numbers is warned about, ahead of a call for the scripts that is answered and
one for the stylesheets that is not. -/
theorem warning_of_build_two_numbers :
    let r : Request := ⟨"3.0", .ofString "src", some (.ofString "css"), .ofString "build"⟩
    let failure := BuildError.compress (.noStylesheets (.ofString "css"))
    ∃ rest, r.validate = .ok () ∧
      r.watchedBuild (fun _ => pure ()) halfway 0 =
        (.error failure, .tells (.unusualVersion "3.0") :: rest) ∧
      (∀ d ∈ rest, d.isWarning = false) ∧
      ¬ ∃ v : SemanticVersion.Parts, v.text = r.version.toList := by
  intro r failure
  have hv : r.validate = .ok () := validate_eq_ok_iff.mpr (by decide)
  have hunusual : SemanticVersion.isSemantic r.version = false := by decide
  rcases hrun : r.watchedBuild (fun _ => pure ()) halfway 0 with ⟨result, deeds⟩
  obtain ⟨hresult, hwarned, -, hparts, -⟩ :=
    warning_of_build (fun _ => pure ()) halfway hv 0 hrun
  obtain ⟨rest, rfl, hrest⟩ := hwarned hunusual
  have hfails : (perform 0 (r.build (fun _ => pure ()) halfway)).1 = .error failure := by
    rw [perform_build_of_valid hv]
    rfl
  refine ⟨rest, hv, by rw [hresult, hfails], hrest, fun hsome => ?_⟩
  rw [(hparts r.version).mpr hsome] at hunusual
  cases hunusual

end Request
end AssetPress
