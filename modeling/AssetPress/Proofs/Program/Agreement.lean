import AssetPress.Program
import AssetPress.Proofs.CommandLine.Spelling

/-!
# The command line and the library

A caller who gives texts to the library and a user who spells the same texts on the command line,
in whatever order and with whatever other flags, ask for the same build: the arguments are parsed,
and what the settings run is the build of the texts, at any workbench (`run_of_parse_arguments`).
-/

namespace AssetPress

namespace Choice

/-- What a user sets who gives the texts of a build. -/
def ofTexts (version scripts : String) (styles : Option String) (buildDir : String) :
    List Choice :=
  [.version version, .scripts scripts, .buildDir buildDir] ++ (styles.map .styles).toList

theorem request_foldl_set {cs : List Choice} (h : ∀ c ∈ cs, c.value? = none) (s : Settings) :
    (cs.foldl set s).request = s.request := by
  induction cs generalizing s with
  | nil => rfl
  | cons c rest ih =>
      have hc := h c List.mem_cons_self
      rw [List.foldl_cons, ih fun d hd => h d (List.mem_cons_of_mem _ hd)]
      cases c <;> first | rfl | cases hc

theorem request_foldl_set_ofTexts (version scripts : String) (styles : Option String)
    (buildDir : String) :
    ((ofTexts version scripts styles buildDir).foldl set .standard).request =
      .ofTexts version scripts styles buildDir := by
  cases styles <;> rfl

end Choice

namespace Settings

/-- Whatever texts are given for the version and the scripts, perhaps the stylesheets, and a build
directory that is named: the arguments that spell them, among any number of flags for verbosity and
at most one of the flags that exclude each other, in any order, are parsed.  What the settings
run is then the build of these texts, at every workbench: it reads and writes the same, logs the
same and has the same result. -/
theorem run_of_parse_arguments {version scripts buildDir : String} {styles : Option String}
    (hdir : buildDir ≠ "") {loudness : List Choice}
    (hloudness : loudness = [] ∨ loudness = [.quiet] ∨ loudness = [.json]) (verbosity : Nat)
    {cs : List Choice} (hperm : cs.Perm (Choice.ofTexts version scripts styles buildDir ++
      (loudness ++ List.replicate verbosity .verbose))) :
    ∃ s, parse (cs.map Choice.argument) = .ok s ∧
      ∀ (m : Type → Type) [Monad m] (w : Workbench m),
        s.run w = w.build (.ofTexts version scripts styles buildDir) := by
  have hfits : (Choice.ofTexts version scripts styles buildDir ++
      (loudness ++ List.replicate verbosity Choice.verbose)).Pairwise Choice.Fits := by
    rcases hloudness with rfl | rfl | rfl <;> cases styles <;>
      simp [Choice.ofTexts, List.pairwise_replicate, Choice.Fits, Choice.flag]
  have hgiven : .buildDir "" ∉ cs := by
    rw [hperm.mem_iff]
    rcases hloudness with rfl | rfl | rfl <;> cases styles <;>
      simp [Choice.ofTexts, hdir.symm]
  have hone : ¬ (.quiet ∈ cs ∧ .json ∈ cs) := by
    rw [hperm.mem_iff, hperm.mem_iff]
    rcases hloudness with rfl | rfl | rfl <;> cases styles <;> simp [Choice.ofTexts]
  have hne : cs ≠ [] := List.ne_nil_of_mem (hperm.mem_iff.mpr List.mem_cons_self)
  have hvalueless : ∀ c ∈ loudness ++ List.replicate verbosity Choice.verbose,
      c.value? = none := by
    rcases hloudness with rfl | rfl | rfl <;> simp [Choice.value?]
  have hfits' := (hperm.pairwise_iff Choice.Fits.symm).mpr hfits
  refine ⟨_, parse_arguments hne hfits' hgiven hone, fun m _ w => ?_⟩
  rw [run_eq, Choice.foldl_set_eq_of_perm hperm hfits', List.foldl_append,
    Choice.request_foldl_set hvalueless, Choice.request_foldl_set_ofTexts]

/-- Texts that look like flags, an empty one, and flags in between. -/
theorem run_of_parse_arguments_mixed :
    let cs : List Choice := [.verbose, .styles "", .buildDir "--json", .json, .scripts "-x=y",
      .verbose, .version "="]
    let arguments := ["--verbose", "--css_src=", "--build_dir=--json", "--json", "--js_src=-x=y",
      "--verbose", "--version=="].map Utf8.encode
    cs.map Choice.argument = arguments ∧ "--json" ≠ "" ∧
      cs.Perm (Choice.ofTexts "=" "-x=y" (some "") "--json" ++
        ([.json] ++ List.replicate 2 .verbose)) ∧
      ∃ s, parse arguments = .ok s ∧ ∀ (m : Type → Type) [Monad m] (w : Workbench m),
        s.run w = w.build (.ofTexts "=" "-x=y" (some "") "--json") := by
  intro cs arguments
  have hperm : cs.Perm (Choice.ofTexts "=" "-x=y" (some "") "--json" ++
      ([.json] ++ List.replicate 2 .verbose)) := by decide
  have hspelled : cs.map Choice.argument = arguments := by decide
  refine ⟨hspelled, by decide, hperm, ?_⟩
  rw [← hspelled]
  exact run_of_parse_arguments (by decide) (Or.inr (Or.inr rfl)) 2 hperm

end Settings
end AssetPress
