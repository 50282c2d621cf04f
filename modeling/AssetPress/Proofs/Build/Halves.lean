import AssetPress.Proofs.Build.Course

/-!
# The two halves of a build

The build of a request with stylesheets begins as the build of the same request without them.  If
the latter fails, so does the former, in the same way; otherwise the artifacts of the former
are those of the latter and one more, or the tree that the latter leaves has at most gained
directories (`buildIn_withStyles`).
-/

namespace AssetPress
namespace Request

open Session

def withoutStyles (r : Request) : Request := { r with styles := none }

variable {base : Location} {minify : Minifier} {r : Request} {dir : Path} {t : Tree}

theorem styleSource_withStyles (hdir : dir.bytes ≠ []) :
    (r.withStyles dir).styleSource = some dir :=
  styleSource_eq_some_iff.mpr ⟨rfl, hdir⟩

/-- A build with stylesheets against the build of the same request without them. -/
theorem buildIn_withStyles (hdir : dir.bytes ≠ []) :
    let plain := r.withoutStyles.buildIn base t minify
    let full := (r.withStyles dir).buildIn base t minify
    (∀ e, plain.1 = .error e → full = plain) ∧
      ∀ r₀, plain.1 = .ok r₀ →
        (∃ b : Artifact, b.kind = .stylesheet ∧
          full.1 = .ok { r₀ with artifacts := r₀.artifacts ++ [b] }) ∨
        ∃ e, full.1 = .error (.compress e) ∧
          (e.IsEarly .stylesheet ∧ full.2 = plain.2 ∨ e.IsLate ∧ plain.2.AddsDirs full.2) := by
  intro plain full
  cases hv : r.validate with
  | error why =>
      have hplain : plain = (.error why, t) := buildIn_of_invalid hv
      have hfull : full = (.error why, t) := buildIn_of_invalid hv
      refine ⟨fun e _ => by rw [hfull, hplain], fun r₀ h => ?_⟩
      rw [hplain] at h
      cases h
  | ok _ =>
      rcases hs : perform (logged Session.log r.opening (.ofTree t))
        ((workbench base minify).press.scripts r.scriptJob) with ⟨e | a, s₁⟩
      -- Both builds ask for the scripts first, with one job and in one session.
      · have hplain : plain = (.error (.compress e), s₁.tree) := buildIn_of_scripts_error hv hs
        have hfull : full = (.error (.compress e), s₁.tree) := buildIn_of_scripts_error hv hs
        refine ⟨fun _ _ => by rw [hfull, hplain], fun r₀ h => ?_⟩
        rw [hplain] at h
        cases h
      · have hplain : plain = (.ok ⟨r.version, r.buildDir, [a]⟩, s₁.tree) :=
          buildIn_of_noStyles hv hs rfl
        refine ⟨fun e h => ?_, fun r₀ h => ?_⟩
        · rw [hplain] at h
          cases h
        · rw [hplain] at h ⊢
          cases h
          rcases hb : perform
            (logged Session.log [.pressingStyles dir (styleOutput r.version)] s₁)
            ((workbench base minify).press.styles ((r.withStyles dir).styleJob dir))
            with ⟨answer, s₂⟩
          have hbuild :=
            buildIn_of_styles (r := r.withStyles dir) hv hs (styleSource_withStyles hdir) hb
          cases answer with
          | error e =>
            have hfull : full = (.error (.compress e), s₂.tree) := hbuild
            have hfails := of_perform_pressStyles_error hb
            rw [hfull]
            exact Or.inr ⟨e, rfl, hfails⟩
          | ok b =>
            have hfull : full = (.ok ⟨r.version, r.buildDir, [a, b]⟩, s₂.tree) := hbuild
            obtain ⟨texts, code, v, hkind, -, -⟩ := of_perform_pressStyles_ok hb
            rw [hfull]
            exact Or.inl ⟨b, by rw [hkind]; rfl, rfl⟩

/-- Where the scripts are there and the directory of the stylesheets is not, the build without
stylesheets succeeds and the one with them fails, its tree being that of the former or later. -/
theorem buildIn_withStyles_missing :
    let t := Tree.workplace
    let dir := Path.ofString "css"
    let r : Request := ⟨"3.0.0", .ofString "/", none, .ofString "/"⟩
    let plain := r.withoutStyles.buildIn [] t
    let full := (r.withStyles dir).buildIn [] t
    dir.bytes ≠ [] ∧ plain.1.toOption.isSome = true ∧ full.1.toOption = none ∧
      ∃ e, full.1 = .error (.compress e) ∧
        (e.IsEarly .stylesheet ∧ full.2 = plain.2 ∨ e.IsLate ∧ plain.2.AddsDirs full.2) := by
  intro t dir r plain full
  have hdir : dir.bytes ≠ [] := by decide
  have hplain : plain.1.toOption.isSome = true := by decide +kernel
  have hfull : full.1.toOption = none := by decide +kernel
  refine ⟨hdir, hplain, hfull, ?_⟩
  obtain ⟨r₀, hr₀⟩ : ∃ r₀, plain.1 = .ok r₀ := by
    cases h : plain.1 with
    | error e =>
        rw [h] at hplain
        cases hplain
    | ok r₀ => exact ⟨r₀, rfl⟩
  rcases (@buildIn_withStyles [] .standard r dir t hdir).2 r₀ hr₀ with ⟨b, -, hok⟩ | hfails
  · rw [show full.1 = _ from hok] at hfull
    cases hfull
  · exact hfails

end Request
end AssetPress
