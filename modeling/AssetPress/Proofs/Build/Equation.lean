import AssetPress.Build.Run
import AssetPress.Proofs.Task

/-!
# The equation of a build

What a build does with an arbitrary compressor and an arbitrary log, both of which may change a
state of any kind: it logs its opening, asks for the scripts, and then for the stylesheets if
there are any (`compressions`); the answers become its report or its failure
(`perform_build_of_valid`).
-/

namespace AssetPress
namespace Request

variable {σ : Type} (log : Event → StateM σ Unit) (c : Compressor (StateM σ)) (r : Request)

def logged (events : List Event) (s : σ) : σ := events.foldl (fun s e => (log e s).2) s

theorem perform_log {ε : Type} (e : Event) (s : σ) :
    perform s (liftM (log e) : ExceptT ε (StateM σ) Unit) = (.ok (), logged log [e] s) := rfl

/-- What is logged before the scripts are asked for. -/
def opening : List Event :=
  (if SemanticVersion.isSemantic r.version then [] else [.unusualVersion r.version]) ++
    [.pressingScripts r.scripts (scriptOutput r.version)]

/-- What a build asks its compressor for, once its opening is logged. -/
def compressions (s : σ) : Except CompressError (List Artifact) × σ :=
  match perform s (c.scripts r.scriptJob) with
  | (.ok a, s₁) =>
      match r.styleSource with
      | none => (.ok [a], logged log [.noStyles] s₁)
      | some dir =>
          match perform (logged log [.pressingStyles dir (styleOutput r.version)] s₁)
              (c.styles (r.styleJob dir)) with
          | (.ok b, s₂) => (.ok [a, b], s₂)
          | (.error e, s₂) => (.error e, s₂)
  | (.error e, s₁) => (.error e, s₁)

theorem perform_buildStyles (s : σ) :
    perform s (r.buildStyles log c) =
      match r.styleSource with
      | none => (.ok [], logged log [.noStyles] s)
      | some dir =>
          match perform (logged log [.pressingStyles dir (styleOutput r.version)] s)
              (c.styles (r.styleJob dir)) with
          | (.ok b, s') => (.ok [b], s')
          | (.error e, s') => (.error e, s') := by
  unfold buildStyles
  cases r.styleSource with
  | none => rfl
  | some dir =>
      simp only
      rw [perform_bind, perform_log]
      simp only
      rw [perform_bind]
      rcases perform (logged log [.pressingStyles dir (styleOutput r.version)] s)
        (c.styles (r.styleJob dir)) with ⟨e | b, s'⟩ <;> rfl

/-- The build of a request that has passed its check, once its opening is logged. -/
theorem perform_afterOpening (s : σ) :
    perform s (do
        let script ← c.scripts r.scriptJob
        let styles ← r.buildStyles log c
        pure (⟨r.version, r.buildDir, script :: styles⟩ : Report)) =
      ((compressions log c r s).1.map (Report.mk r.version r.buildDir),
        (compressions log c r s).2) := by
  rw [perform_bind]
  unfold compressions
  rcases perform s (c.scripts r.scriptJob) with ⟨e | a, s₁⟩
  · rfl
  · simp only
    rw [perform_bind, perform_buildStyles]
    cases r.styleSource with
    | none => rfl
    | some dir =>
        simp only
        rcases perform (logged log [.pressingStyles dir (styleOutput r.version)] s₁)
          (c.styles (r.styleJob dir)) with ⟨e | b, s₂⟩ <;> rfl

theorem perform_buildAll (s : σ) :
    perform s (r.buildAll log c) =
      ((compressions log c r (logged log r.opening s)).1.map (Report.mk r.version r.buildDir),
        (compressions log c r (logged log r.opening s)).2) := by
  unfold buildAll opening
  by_cases hv : SemanticVersion.isSemantic r.version = true
  · simp only [hv, if_true]
    rw [perform_bind, perform_log]
    exact perform_afterOpening log c r _
  · simp only [hv, if_false, Bool.false_eq_true]
    rw [perform_bind, perform_log]
    simp only
    rw [perform_bind, perform_log]
    exact perform_afterOpening log c r _

variable {log c r}

theorem perform_build_of_invalid {why : BuildError} (h : r.validate = .error why) (s : σ) :
    perform s (r.build log c) = (.error why, s) := by
  rw [build_of_invalid h, perform_throw]

theorem perform_build_of_valid (h : r.validate = .ok ()) (s : σ) :
    perform s (r.build log c) =
      (((compressions log c r (logged log r.opening s)).1.map
        (Report.mk r.version r.buildDir)).mapError .compress,
        (compressions log c r (logged log r.opening s)).2) := by
  rw [build_of_valid h, perform_adapt, perform_buildAll]

end Request
end AssetPress
