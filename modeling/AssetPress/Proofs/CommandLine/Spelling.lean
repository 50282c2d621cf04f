import Mathlib.Data.List.Basic
import AssetPress.Proofs.CommandLine.Phrases

/-!
# Reading what has been spelled

Each thing that a command line can set is spelled as one argument (`Choice.argument`).  That is a
phrase of its own (`Choice.phrase`), so arguments that use no flag twice, but for the counted one,
are read as what they set together, and that does not depend on their order
(`Choice.foldl_set_eq_of_perm`).  Main statement: `Settings.parse_arguments`.
-/

namespace AssetPress

/-! ### Choices -/

/-- A thing that a command line sets. -/
inductive Choice where
  | version (text : String)
  | scripts (text : String)
  | styles (text : String)
  | buildDir (text : String)
  | verbose
  | quiet
  | json
  deriving DecidableEq, Repr

namespace Choice

def flag : Choice → Flag
  | version _ => .version
  | scripts _ => .scripts
  | styles _ => .styles
  | buildDir _ => .buildDir
  | verbose => .verbose
  | quiet => .quiet
  | json => .json

/-- The value that the flag is given, if it takes one. -/
def value? : Choice → Option String
  | version text | scripts text | styles text | buildDir text => some text
  | verbose | quiet | json => none

/-- The argument that spells a choice: the name of the flag behind two hyphens, and a value behind
an equals sign. -/
def argument (c : Choice) : Bytes :=
  match c.value? with
  | some text => Utf8.encode ("--" ++ c.flag.name ++ "=" ++ text)
  | none => Utf8.encode ("--" ++ c.flag.name)

def set (s : Settings) : Choice → Settings
  | version text => { s with version := some text }
  | scripts text => { s with scripts := some text }
  | styles text => { s with styles := some text }
  | buildDir text => { s with buildDir := .ofString text }
  | verbose => { s with verbosity := min (s.verbosity + 1) Settings.maxVerbosity }
  | quiet => { s with quiet := true }
  | json => { s with json := true }

/-- Two choices that can stand in one command line: no flag is used twice, but for the counted
one. -/
def Fits (c d : Choice) : Prop := c.flag = d.flag → c.flag = .verbose

instance : DecidableRel Fits := fun _ _ => inferInstanceAs (Decidable (_ → _))

theorem eq_verbose_of_flag {c : Choice} (h : c.flag = .verbose) : c = verbose := by
  cases c <;> first | rfl | cases h

theorem Fits.symm {c d : Choice} (h : c.Fits d) : d.Fits c := fun heq => heq.trans (h heq.symm)

theorem Fits.eq_of_flag {c d : Choice} (h : c.Fits d) (heq : c.flag = d.flag) : c = d := by
  rw [eq_verbose_of_flag (h heq), eq_verbose_of_flag (heq.symm.trans (h heq))]

/-! ### What choices set together -/

theorem set_comm {c d : Choice} (h : c.flag = d.flag → c = d) (s : Settings) :
    set (set s c) d = set (set s d) c := by
  by_cases heq : c.flag = d.flag
  · rw [h heq]
  · cases c <;> cases d <;> first | rfl | exact absurd rfl heq

theorem foldl_set_eq_of_perm {cs ds : List Choice} (hperm : cs.Perm ds) (hfits : cs.Pairwise Fits)
    (s : Settings) : cs.foldl set s = ds.foldl set s := by
  have hsame : ∀ c ∈ cs, ∀ d ∈ cs, c.flag = d.flag → c = d :=
    fun c hc d hd => List.Pairwise.forall_of_forall_of_flip
      (R := fun c d => c.flag = d.flag → c = d) (fun _ _ _ => rfl) (hfits.imp Fits.eq_of_flag)
      (hfits.imp fun h heq => h.symm.eq_of_flag heq) hc hd
  exact hperm.foldl_eq' (fun c hc d hd s => set_comm (hsame c hc d hd) s) s

/-! ### Choices as phrases -/

def phrase (c : Choice) : Phrase :=
  match c.value? with
  | some text => .named c.flag (Utf8.encode text)
  | none => .switch c.flag

theorem flag_phrase (c : Choice) : c.phrase.flag = c.flag := by
  cases c <;> rfl

theorem arguments_phrase (c : Choice) : c.phrase.arguments = [c.argument] := by
  unfold phrase argument
  cases c.value? with
  | none =>
      simp only [Phrase.arguments, Phrase.dashed, Utf8.encode_append]
      rfl
  | some text =>
      simp only [Phrase.arguments, Phrase.dashed, Utf8.encode_append, List.append_assoc]
      rfl

/-- A choice can be made, unless it is a build directory that is not named. -/
theorem sound_phrase {c : Choice} (hgiven : c ≠ .buildDir "") : c.phrase.Sound := by
  have htext : ∀ text : String, (Utf8.decode? (Utf8.encode text)).isSome := by
    intro text
    rw [Utf8.decode?_encode]
    rfl
  cases c with
  | buildDir dir =>
      have hne : Utf8.encode dir ≠ [] := fun hnil => hgiven
        (congrArg Choice.buildDir (Utf8.encode_injective (hnil.trans Utf8.encode_empty.symm)))
      exact ⟨hne, trivial⟩
  | version text | scripts text | styles text => exact ⟨⟨rfl, htext text⟩, trivial⟩
  | verbose | quiet | json => exact ⟨by decide, trivial⟩

theorem set_act_phrase {c : Choice} (hgiven : c ≠ .buildDir "") (s : Settings) :
    c.phrase.act.set s = c.set s := by
  have hok : ∀ {flag : Flag} {value : Bytes} {s' : Settings},
      s.withValue flag value = .ok s' → (Act.give flag value).set s = s' := by
    intro flag value s' h
    rw [Act.set, h]
    rfl
  cases c with
  | buildDir dir => exact hok (if_neg (sound_phrase hgiven).act)
  | version text | scripts text | styles text => exact hok (Act.withText_encode text _)
  | verbose | quiet | json => rfl

theorem foldl_set_act_phrase {cs : List Choice} (hgiven : .buildDir "" ∉ cs) (s : Settings) :
    ((cs.map phrase).map Phrase.act).foldl Act.set s = cs.foldl set s := by
  rw [List.map_map, List.foldl_map]
  exact List.foldl_ext _ _ _ fun s c hc => set_act_phrase (fun heq => hgiven (heq ▸ hc)) s

theorem once_of_fits {cs : List Choice} (hfits : cs.Pairwise Fits) : Act.Once (cs.map flag) := by
  intro flag hflag
  induction cs with
  | nil => exact Nat.zero_le 1
  | cons c rest ih =>
      obtain ⟨hfirst, hrest⟩ := List.pairwise_cons.mp hfits
      rw [List.map_cons, List.count_cons]
      by_cases hsame : c.flag = flag
      · have hnone : (rest.map Choice.flag).count flag = 0 := by
          refine List.count_eq_zero.mpr fun hmem => ?_
          obtain ⟨d, hd, hdflag⟩ := List.mem_map.mp hmem
          exact hflag (hsame ▸ hfirst d hd (hsame.trans hdflag.symm))
        exact Nat.le_of_eq (by rw [hnone, if_pos (beq_iff_eq.mpr hsame)])
      · rw [if_neg (by simpa using hsame)]
        exact ih hrest

end Choice

/-- Arguments that spell fitting choices, at least one, and not both of the flags that exclude each
other, are parsed as what the choices set together. -/
theorem Settings.parse_arguments {cs : List Choice} (hne : cs ≠ [])
    (hfits : cs.Pairwise Choice.Fits) (hgiven : .buildDir "" ∉ cs)
    (hone : ¬ (.quiet ∈ cs ∧ .json ∈ cs)) :
    parse (cs.map Choice.argument) = .ok (cs.foldl Choice.set standard) := by
  have hflags : (cs.map Choice.phrase).map Phrase.flag = cs.map Choice.flag := by
    rw [List.map_map]
    exact List.map_congr_left fun c _ => c.flag_phrase
  have harguments : (cs.map Choice.phrase).flatMap Phrase.arguments = cs.map Choice.argument := by
    rw [List.flatMap_map, List.map_eq_flatMap]
    exact List.flatMap_congr fun c _ => c.arguments_phrase
  have hsound : ∀ p ∈ cs.map Choice.phrase, p.Sound := by
    intro p hp
    obtain ⟨c, hc, rfl⟩ := List.mem_map.mp hp
    exact Choice.sound_phrase fun heq => hgiven (heq ▸ hc)
  have hexclude : ¬ (.quiet ∈ cs.map Choice.flag ∧ .json ∈ cs.map Choice.flag) := by
    rintro ⟨hquiet, hjson⟩
    obtain ⟨c, hc, hcflag⟩ := List.mem_map.mp hquiet
    obtain ⟨d, hd, hdflag⟩ := List.mem_map.mp hjson
    cases c <;> cases hcflag
    cases d <;> cases hdflag
    exact hone ⟨hc, hd⟩
  rw [← harguments, parse_of_once (by simpa using hne) hsound (hflags ▸ Choice.once_of_fits hfits)
    (hflags ▸ hexclude), Choice.foldl_set_act_phrase hgiven]

end AssetPress
