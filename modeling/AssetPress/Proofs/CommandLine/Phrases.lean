import AssetPress.Proofs.CommandLine.Reading
import AssetPress.Proofs.Text.Utf8

/-!
# Phrases of a command line

What a user gives a flag can be spelled in several ways (`Phrase`), and the reader may see the flag
before it sees the value.  Still every phrase ends in one act: a value is taken over or a flag is
raised (`Act.apply`), though it may have to wait for the next phrase or for the end
(`bind_settle_begin`).  So a command line made of phrases is read as the acts that they spell, one
after the other (`Settings.parse_flatMap_arguments`), and these fail only if a flag is used again
(`Act.foldlM_apply`).  Main statement: `Settings.parse_phrases`.
-/

namespace AssetPress

/-! ### Acts -/

/-- A use of a flag: it is given a value, or raised. -/
inductive Act where
  | give (flag : Flag) (value : Bytes)
  | raise (flag : Flag)
  deriving DecidableEq, Repr

namespace Act

def flag : Act → Flag
  | give flag _ => flag
  | raise flag => flag

/-- The flag takes what it is given: a text, a path that is not empty, or nothing. -/
def Sound : Act → Prop
  | give flag value =>
      if flag = .buildDir then value ≠ []
      else flag.takesValue = true ∧ (Utf8.decode? value).isSome
  | raise flag => flag = .verbose ∨ flag = .quiet ∨ flag = .json

instance : DecidablePred Sound
  | give flag value => inferInstanceAs (Decidable (if flag = .buildDir then value ≠ [] else _ ∧ _))
  | raise _ => inferInstanceAs (Decidable (_ ∨ _ ∨ _))

/-- What the reader does once it has understood. -/
def apply (r : Reading) : Act → Except Failure Reading
  | give flag value => r.give flag value
  | raise flag => r.raise flag

def set (s : Settings) : Act → Settings
  | give flag value => (s.withValue flag value).toOption.getD s
  | raise .verbose => { s with verbosity := min (s.verbosity + 1) Settings.maxVerbosity }
  | raise .quiet => { s with quiet := true }
  | raise .json => { s with json := true }
  | raise _ => s

/-- The flags used after an act: the counted one is noted where it was used last. -/
def use (used : List Flag) (a : Act) : List Flag :=
  (if a.flag = .verbose then used.erase .verbose else used) ++ [a.flag]

/-- No flag is used twice, but for the counted one. -/
def Once (flags : List Flag) : Prop := ∀ flag, flag ≠ .verbose → flags.count flag ≤ 1

variable {r : Reading} {a : Act}

theorem takesValue_of_sound {flag : Flag} {value : Bytes} (h : (give flag value).Sound) :
    flag.takesValue = true := by
  cases flag <;> first | rfl | exact h.1

theorem eq_raise_of_flag (h : a.Sound) (hflag : a.flag.takesValue = false) :
    a = raise a.flag := by
  cases a with
  | give flag value => exact absurd (takesValue_of_sound h) (ne_true_of_eq_false hflag)
  | raise flag => rfl

theorem withText_encode (text : String) (update : String → Settings) :
    Settings.withValue.withText (Utf8.encode text) update = .ok (update text) := by
  rw [Settings.withValue.withText, Utf8.decode?_encode]

theorem withValue_of_sound {flag : Flag} {value : Bytes} (h : (give flag value).Sound)
    (s : Settings) : s.withValue flag value = .ok ((give flag value).set s) := by
  have hok : ∃ s', s.withValue flag value = .ok s' := by
    cases flag with
    | buildDir => exact ⟨_, if_neg h⟩
    | version | scripts | styles =>
        obtain ⟨text, htext⟩ := Option.isSome_iff_exists.mp h.2
        simp only [Settings.withValue, Settings.withValue.withText, htext]
        exact ⟨_, rfl⟩
    | _ => exact absurd h.1 (by decide)
  obtain ⟨s', hs'⟩ := hok
  rw [set, hs']
  rfl

/-- An act fails if its flag has been used, unless it is the counted one. -/
theorem apply_of_sound (h : a.Sound) :
    a.apply r = if a.flag ∈ r.used ∧ a.flag ≠ .verbose then .error (.repeated a.flag)
      else .ok { r with settings := a.set r.settings, used := a.use r.used } := by
  cases a with
  | give flag value =>
      have hcounted : flag ≠ .verbose := by
        rintro rfl
        exact absurd (takesValue_of_sound h) (by decide)
      have hset := withValue_of_sound h r.settings
      by_cases hused : flag ∈ r.used
      · rw [if_pos ⟨hused, hcounted⟩, apply, Reading.give, if_pos hused, Act.flag]
      · rw [if_neg fun hboth => hused hboth.1, apply, Reading.give, if_neg hused, hset, use,
          Act.flag, if_neg hcounted]
        rfl
  | raise flag =>
      rcases h with rfl | rfl | rfl
      · exact (if_neg fun hboth => hboth.2 rfl).symm
      · by_cases hused : Flag.quiet ∈ r.used
        · rw [if_pos ⟨hused, by decide⟩]
          exact if_pos hused
        · rw [if_neg fun hboth => hused hboth.1]
          exact if_neg hused
      · by_cases hused : Flag.json ∈ r.used
        · rw [if_pos ⟨hused, by decide⟩]
          exact if_pos hused
        · rw [if_neg fun hboth => hused hboth.1]
          exact if_neg hused

/-! ### Several acts -/

theorem count_use {flag : Flag} (h : flag ≠ .verbose) (used : List Flag) (a : Act) :
    (a.use used).count flag = used.count flag + [a.flag].count flag := by
  rw [use, List.count_append]
  split
  · rw [List.count_erase_of_ne h]
  · rfl

theorem once_use_append (used : List Flag) (a : Act) (rest : List Flag) :
    Once (a.use used ++ rest) ↔ Once (used ++ a.flag :: rest) := by
  refine forall_congr' fun flag => forall_congr' fun h => ?_
  have hcons : (a.flag :: rest).count flag = [a.flag].count flag + rest.count flag := by
    rw [← List.singleton_append, List.count_append]
  rw [List.count_append, List.count_append, count_use h, hcons, Nat.add_assoc]

/-- Acts on different flags are carried out; the first one on a flag that has been used is
refused. -/
theorem foldlM_apply {as : List Act} (hsound : ∀ a ∈ as, a.Sound) (hused : Once r.used) :
    (Once (r.used ++ as.map flag) → as.foldlM apply r =
      .ok { r with settings := as.foldl set r.settings, used := as.foldl use r.used }) ∧
    (¬ Once (r.used ++ as.map flag) → ∃ flag, as.foldlM apply r = .error (.repeated flag)) := by
  induction as generalizing r with
  | nil =>
      rw [List.map_nil, List.append_nil]
      exact ⟨fun _ => rfl, fun hnot => absurd hused hnot⟩
  | cons a rest ih =>
      have ha := apply_of_sound (r := r) (hsound a List.mem_cons_self)
      rw [List.map_cons, ← once_use_append, List.foldlM_cons, ha]
      by_cases hagain : a.flag ∈ r.used ∧ a.flag ≠ .verbose
      · have htwice : ¬ Once (a.use r.used ++ rest.map flag) := by
          intro honce
          have hcount := honce a.flag hagain.2
          have hbefore := List.count_pos_iff.mpr hagain.1
          rw [List.count_append, count_use hagain.2, List.count_singleton_self] at hcount
          omega
        rw [if_pos hagain]
        exact ⟨fun honce => absurd honce htwice, fun _ => ⟨a.flag, rfl⟩⟩
      · have hnext : Once (a.use r.used) := by
          intro flag hflag
          have hcount := hused flag hflag
          rw [count_use hflag]
          by_cases hsame : a.flag = flag
          · have hnew : r.used.count flag = 0 :=
              List.count_eq_zero.mpr fun hmem => hagain ⟨hsame ▸ hmem, hsame ▸ hflag⟩
            exact Nat.le_of_eq (by rw [hnew, hsame, List.count_singleton_self])
          · rw [List.count_singleton, if_neg (by simpa using hsame)]
            exact hcount
        rw [if_neg hagain]
        exact ih (r := ⟨a.set r.settings, a.use r.used, r.pending, r.flagsEnded⟩)
          (fun b hb => hsound b (List.mem_cons_of_mem _ hb)) hnext

theorem foldlM_apply_start {as : List Act} (hsound : ∀ a ∈ as, a.Sound) :
    (Once (as.map flag) →
      as.foldlM apply .start = .ok ⟨as.foldl set .standard, as.foldl use [], none, false⟩) ∧
    (¬ Once (as.map flag) → ∃ flag, as.foldlM apply .start = .error (.repeated flag)) :=
  foldlM_apply (r := .start) hsound fun _ _ => Nat.zero_le 1

theorem mem_foldl_use {flag : Flag} {as : List Act} {used : List Flag}
    (h : flag ∈ used ∨ flag ∈ as.map Act.flag) : flag ∈ as.foldl use used := by
  induction as generalizing used with
  | nil => exact h.resolve_right (by simp)
  | cons a rest ih =>
      refine ih ?_
      rcases h with hmem | hmem
      · by_cases hsame : flag = a.flag
        · exact Or.inl (List.mem_append_right _ (hsame ▸ List.mem_cons_self))
        · refine Or.inl (List.mem_append_left _ ?_)
          split
          case isTrue hverbose => exact (List.mem_erase_of_ne (hverbose ▸ hsame)).mpr hmem
          case isFalse => exact hmem
      · rcases List.mem_cons.mp hmem with rfl | hrest
        · exact Or.inl (List.mem_append_right _ List.mem_cons_self)
        · exact Or.inr hrest

/-- Only raising them changes the flags that exclude each other. -/
theorem set_eq_or (s : Settings) (a : Act) :
    (a.set s).quiet = (s.quiet || a == raise .quiet) ∧
      (a.set s).json = (s.json || a == raise .json) := by
  cases a with
  | give flag value =>
      cases h : s.withValue flag value with
      | error e => simp [set, h, Except.toOption]
      | ok s' =>
          obtain ⟨hquiet, hjson⟩ := Settings.of_withValue h
          simp [set, h, Except.toOption, hquiet, hjson]
  | raise flag => cases flag <;> simp [set]

/-- What one act turns on, and no other one touches, is on behind some acts if it was on or that act
is among them. -/
theorem isOn_foldl_set {isOn : Settings → Bool} {act : Act}
    (hset : ∀ s a, isOn (set s a) = (isOn s || a == act)) (as : List Act) (s : Settings) :
    isOn (as.foldl set s) = true ↔ isOn s = true ∨ act ∈ as := by
  induction as generalizing s with
  | nil => simp
  | cons a rest ih =>
      rw [List.foldl_cons, ih, hset s a, Bool.or_eq_true, beq_iff_eq, List.mem_cons, or_assoc,
        @eq_comm _ a]

end Act

/-! ### Wishes -/

/-- What a user may want to set: each value at most once, and at most one of the flags that exclude
each other. -/
structure Wish where
  version : Option String
  scripts : Option String
  styles : Option String
  buildDir : Option Path
  verbosity : Nat
  quiet : Bool
  json : Bool
  named : ∀ dir ∈ buildDir, dir.bytes ≠ []
  one : ¬ (quiet = true ∧ json = true)

namespace Wish

/-- The acts that a wish takes, in some order. -/
def acts (w : Wish) : List Act :=
  List.replicate w.verbosity (.raise .verbose) ++
    (w.version.toList.map fun text => .give .version (Utf8.encode text)) ++
    (w.scripts.toList.map fun text => .give .scripts (Utf8.encode text)) ++
    (w.styles.toList.map fun text => .give .styles (Utf8.encode text)) ++
    (w.buildDir.toList.map fun dir => .give .buildDir dir.bytes) ++
    (if w.quiet then [.raise .quiet] else []) ++ if w.json then [.raise .json] else []

def settings (w : Wish) : Settings :=
  ⟨w.version, w.scripts, w.styles, w.buildDir.getD Request.defaultBuildDir,
    min w.verbosity Settings.maxVerbosity, w.quiet, w.json⟩

/-- The wish as far as some flags go. -/
def settingsBy (w : Wish) (flags : List Flag) : Settings :=
  ⟨if .version ∈ flags then w.version else none, if .scripts ∈ flags then w.scripts else none,
    if .styles ∈ flags then w.styles else none,
    if .buildDir ∈ flags then w.buildDir.getD Request.defaultBuildDir
      else Request.defaultBuildDir,
    min (flags.count .verbose) Settings.maxVerbosity, .quiet ∈ flags, .json ∈ flags⟩

variable {w : Wish}

theorem set_settingsBy {a : Act} (h : a ∈ w.acts) (flags : List Flag) :
    a.set (w.settingsBy flags) = w.settingsBy (flags ++ [a.flag]) := by
  simp only [acts, List.mem_append, List.mem_replicate, List.mem_map, Option.mem_toList] at h
  rcases h with (((((⟨-, rfl⟩ | ⟨text, htext, rfl⟩) | ⟨text, htext, rfl⟩) | ⟨text, htext, rfl⟩) |
    ⟨dir, hdir, rfl⟩) | h) | h
  · simp only [Act.set, settingsBy, Act.flag, List.count_append, List.count_singleton_self]
    simp only [List.mem_append, List.mem_cons, reduceCtorEq, List.not_mem_nil, or_false,
      Settings.mk.injEq, and_self, and_true, true_and]
    omega
  · simp [Act.set, settingsBy, Act.flag, Settings.withValue, Act.withText_encode, Except.toOption,
      htext]
  · simp [Act.set, settingsBy, Act.flag, Settings.withValue, Act.withText_encode, Except.toOption,
      htext]
  · simp [Act.set, settingsBy, Act.flag, Settings.withValue, Act.withText_encode, Except.toOption,
      htext]
  · simp [Act.set, settingsBy, Act.flag, Settings.withValue, w.named dir hdir, Except.toOption,
      Option.mem_def.mp hdir]
  · obtain ⟨-, rfl⟩ : w.quiet = true ∧ a = .raise .quiet := by simpa using h
    simp [Act.set, settingsBy, Act.flag]
  · obtain ⟨-, rfl⟩ : w.json = true ∧ a = .raise .json := by simpa using h
    simp [Act.set, settingsBy, Act.flag]

theorem settingsBy_nil (w : Wish) : w.settingsBy [] = .standard := rfl

theorem settingsBy_of_perm {flags flags' : List Flag} (h : flags.Perm flags') :
    w.settingsBy flags = w.settingsBy flags' := by
  simp only [settingsBy, h.mem_iff, h.count_eq]

theorem foldl_set_settingsBy {as : List Act} (h : as ⊆ w.acts) (flags : List Flag) :
    as.foldl Act.set (w.settingsBy flags) = w.settingsBy (flags ++ as.map Act.flag) := by
  induction as generalizing flags with
  | nil => rw [List.map_nil, List.append_nil, List.foldl_nil]
  | cons a rest ih =>
      obtain ⟨ha, hrest⟩ := List.cons_subset.mp h
      rw [List.foldl_cons, set_settingsBy ha, ih hrest, List.append_assoc]
      rfl

theorem flags_acts : w.acts.map Act.flag = List.replicate w.verbosity .verbose ++
    ((w.version.toList.map fun _ => .version) ++ (w.scripts.toList.map fun _ => .scripts) ++
      (w.styles.toList.map fun _ => .styles) ++ (w.buildDir.toList.map fun _ => .buildDir) ++
      (if w.quiet then [.quiet] else []) ++ if w.json then [.json] else []) := by
  have hraised : ∀ (b : Bool) (flag : Flag),
      (if b then [Act.raise flag] else []).map Act.flag = if b then [flag] else [] := by
    intro b flag
    cases b <;> rfl
  simp only [acts, List.map_append, List.map_replicate, List.map_map, hraised, List.append_assoc]
  rfl

theorem quiet_and_json_of_mem (w : Wish)
    (h : .quiet ∈ w.acts.map Act.flag ∧ .json ∈ w.acts.map Act.flag) :
    w.quiet = true ∧ w.json = true := by
  simpa [flags_acts] using h

theorem settingsBy_acts : w.settingsBy (w.acts.map Act.flag) = w.settings := by
  rw [flags_acts]
  obtain ⟨version, scripts, styles, buildDir, verbosity, quiet, json, -, -⟩ := w
  cases version <;> cases scripts <;> cases styles <;> cases buildDir <;> cases quiet <;>
    cases json <;> simp [settingsBy, settings, List.count_append]

theorem once_flags_acts (w : Wish) : Act.Once (w.acts.map Act.flag) := by
  have hvalue : ∀ {α : Type} (o : Option α) (flag : Flag),
      (o.toList.map fun _ => flag).Sublist [flag] := by
    intro α o flag
    cases o with
    | none => exact List.nil_sublist _
    | some _ => exact List.Sublist.refl _
  have hswitch : ∀ (b : Bool) (flag : Flag), (if b then [flag] else []).Sublist [flag] := by
    intro b flag
    cases b with
    | false => exact List.nil_sublist _
    | true => exact List.Sublist.refl _
  intro flag hflag
  have hcounted : (List.replicate w.verbosity Flag.verbose).count flag = 0 :=
    List.count_eq_zero.mpr fun hmem => hflag (List.eq_of_mem_replicate hmem)
  rw [flags_acts, List.count_append, hcounted, Nat.zero_add]
  refine Nat.le_trans (List.Sublist.count_le flag (((((((hvalue w.version .version).append
    (hvalue w.scripts .scripts)).append (hvalue w.styles .styles)).append
    (hvalue w.buildDir .buildDir)).append (hswitch w.quiet .quiet)).append
    (hswitch w.json .json)))) ?_
  cases flag <;> decide

end Wish

/-! ### Phrases -/

def versionLetter : UInt8 := 118

/-- A part of a command line that spells the use of a flag. -/
inductive Phrase where
  /-- The name behind two hyphens, and the value behind an equals sign. -/
  | named (flag : Flag) (value : Bytes)
  /-- The name behind two hyphens, and the value as the next argument. -/
  | namedApart (flag : Flag) (value : Bytes)
  /-- The letter of the version behind one hyphen, and the value behind an equals sign. -/
  | letter (value : Bytes)
  /-- The letter of the version behind one hyphen, and the value as the next argument. -/
  | letterApart (value : Bytes)
  /-- The letter of the version behind one hyphen, and the value right behind it. -/
  | letterJoined (value : Bytes)
  /-- The name behind two hyphens alone. -/
  | switch (flag : Flag)
  deriving DecidableEq, Repr

namespace Phrase

/-- The name of a flag behind two hyphens. -/
def dashed (flag : Flag) : Bytes := Reading.hyphen :: Reading.hyphen :: Utf8.encode flag.name

def arguments : Phrase → List Bytes
  | named flag value => [dashed flag ++ Reading.equals :: value]
  | namedApart flag value => [dashed flag, value]
  | letter value => [Reading.hyphen :: versionLetter :: Reading.equals :: value]
  | letterApart value => [[Reading.hyphen, versionLetter], value]
  | letterJoined value => [Reading.hyphen :: versionLetter :: value]
  | switch flag => [dashed flag]

/-- The use of a flag that a phrase spells. -/
def act : Phrase → Act
  | named flag value | namedApart flag value => .give flag value
  | letter value | letterApart value | letterJoined value => .give .version value
  | switch flag => .raise flag

def flag (p : Phrase) : Flag := p.act.flag

/-- The value can be told from what is around it: apart, it does not begin as flags do, and right
behind the letter there is one and it does not begin with an equals sign. -/
def Plain : Phrase → Prop
  | namedApart _ value | letterApart value => value.head? ≠ some Reading.hyphen
  | letterJoined value => value ≠ [] ∧ value.head? ≠ some Reading.equals
  | _ => True

instance : DecidablePred Plain
  | namedApart _ _ | letterApart _ => inferInstanceAs (Decidable (_ ≠ _))
  | letterJoined _ => inferInstanceAs (Decidable (_ ≠ _ ∧ _ ≠ _))
  | named _ _ | letter _ | switch _ => inferInstanceAs (Decidable True)

/-- A phrase that can stand in a command line. -/
structure Sound (p : Phrase) : Prop where
  act : p.act.Sound
  plain : p.Plain

instance : DecidablePred Sound := fun p =>
  decidable_of_iff (p.act.Sound ∧ p.Plain) ⟨fun h => ⟨h.1, h.2⟩, fun h => ⟨h.act, h.plain⟩⟩

/-- What the reader has done when it has seen a phrase and nothing behind it: where the value stands
apart, the flag is still pending. -/
def begin (r : Reading) : Phrase → Except Failure Reading
  | namedApart flag value => .ok { r with pending := some (flag, some value) }
  | letterApart value => .ok { r with pending := some (.version, some value) }
  | p => p.act.apply r

end Phrase

namespace Reading

variable {r r' : Reading}

theorem of_give {flag : Flag} {value : Bytes} (h : r.give flag value = .ok r') :
    r'.pending = r.pending ∧ r'.flagsEnded = r.flagsEnded := by
  unfold give at h
  split at h
  · cases h
  · obtain ⟨settings, -, hend⟩ := of_bind_ok h
    cases hend
    exact ⟨rfl, rfl⟩

theorem of_raise {flag : Flag} (h : r.raise flag = .ok r') :
    r'.pending = r.pending ∧ r'.flagsEnded = r.flagsEnded := by
  cases flag with
  | help => cases h
  | quiet | json =>
      unfold raise raise.once at h
      simp only at h
      split at h
      · cases h
      · cases h
        exact ⟨rfl, rfl⟩
  | _ =>
      cases h
      exact ⟨rfl, rfl⟩

theorem of_apply {a : Act} (h : a.apply r = .ok r') :
    r'.pending = r.pending ∧ r'.flagsEnded = r.flagsEnded := by
  cases a with
  | give flag value => exact of_give h
  | raise flag => exact of_raise h

theorem settle_of_pending (h : r.pending = none) : r.settle = .ok r := by rw [settle, h]

theorem of_settle (h : r.settle = .ok r') :
    r'.pending = none ∧ r'.flagsEnded = r.flagsEnded := by
  unfold settle at h
  split at h
  case _ hnone =>
    cases h
    exact ⟨hnone, rfl⟩
  case _ => cases h
  case _ => exact of_give h

theorem finish_eq (r : Reading) : r.finish = r.settle >>= finish := by
  cases h : r.settle with
  | error e =>
      rw [finish, h]
      rfl
  | ok m =>
      have hm := settle_of_pending (of_settle h).1
      rw [finish, h]
      show _ = m.finish
      rw [finish, hm]

/-- With nothing pending, and without both of the flags that exclude each other, what has been read
are the settings. -/
theorem finish_of_used (hpending : r.pending = none) (hused : r.used ≠ [])
    (hone : ¬ (r.settings.quiet && r.settings.json) = true) : r.finish = .ok r.settings := by
  rw [finish, settle_of_pending hpending]
  show (if r.used = [] then _ else _) = _
  rw [if_neg hused]
  show (if (r.settings.quiet && r.settings.json) = true then _ else _) = _
  rw [if_neg hone]
  rfl

/-! ### Arguments of a phrase -/

/-- Bytes behind two hyphens are a flag by its name. -/
theorem step_hyphens (hended : r.flagsEnded = false) {text : Bytes} (htext : text ≠ []) :
    r.step (hyphen :: hyphen :: text) = r.long text := by
  cases text with
  | nil => exact absurd rfl htext
  | cons b rest => simp [step, hended]

theorem equals_not_mem_name (flag : Flag) : equals ∉ Utf8.encode flag.name := by
  cases flag <;> decide

theorem encode_name_ne_nil (flag : Flag) : Utf8.encode flag.name ≠ [] := by
  cases flag <;> decide

theorem long_value {flag : Flag} (htakes : flag.takesValue = true) (value : Bytes) :
    r.long (Utf8.encode flag.name ++ equals :: value) = (do (← r.settle).give flag value) := by
  rw [long, cut_append (equals_not_mem_name flag)]
  simp only [Utf8.decode?_encode, Option.bind_some, Flag.ofName?_name, htakes]

theorem long_switch {flag : Flag} (htakes : flag.takesValue = false) :
    r.long (Utf8.encode flag.name) = (do (← r.settle).raise flag) := by
  rw [long, cut_of_not_mem (equals_not_mem_name flag)]
  simp only [Utf8.decode?_encode, Option.bind_some, Flag.ofName?_name, htakes]

theorem step_plain (hended : r.flagsEnded = false) {argument : Bytes}
    (h : argument.head? ≠ some hyphen) : r.step argument = r.plain argument := by
  rcases argument with _ | ⟨b, _ | ⟨c, rest⟩⟩
  · simp [step, hended]
  · simp [step, hended]
  · have hb : b ≠ hyphen := fun heq => h (by rw [heq]; rfl)
    cases rest <;> simp [step, hended, hb]

theorem step_letter (hended : r.flagsEnded = false) (text : Bytes) :
    r.step (hyphen :: versionLetter :: text) = r.short (versionLetter :: text) := by
  cases text <;> simp [step, hended, versionLetter, hyphen]

theorem short_versionLetter (r : Reading) (rest : Bytes) :
    r.short (versionLetter :: rest) =
      match rest with
      | [] => r.settle >>= fun m => .ok { m with pending := some (.version, none) }
      | b :: more => r.settle >>= fun m =>
          m.give .version (if b = equals then more else b :: more) := by
  have hletter : firstLetter? (versionLetter :: rest) = some ('v', rest) := rfl
  have hflag : Flag.ofLetter? 'v' = some .version := by decide
  rw [short, hletter]
  simp only [hflag]
  rw [if_pos (show Flag.version.takesValue = true from rfl)]
  cases rest <;> rfl

theorem long_await {flag : Flag} (htakes : flag.takesValue = true) :
    r.long (Utf8.encode flag.name) =
      r.settle >>= fun m => .ok { m with pending := some (flag, none) } := by
  rw [long, cut_of_not_mem (equals_not_mem_name flag)]
  simp only [Utf8.decode?_encode, Option.bind_some, Flag.ofName?_name, htakes]
  rfl

theorem foldlM_apart {first value : Bytes} {flag : Flag} (hended : r.flagsEnded = false)
    (hfirst : r.step first = r.settle >>= fun m => .ok { m with pending := some (flag, none) })
    (hvalue : value.head? ≠ some hyphen) :
    [first, value].foldlM step r =
      r.settle >>= fun m => .ok { m with pending := some (flag, some value) } := by
  rw [List.foldlM_cons, hfirst]
  cases h : r.settle with
  | error e => rfl
  | ok m =>
      have hm : m.flagsEnded = false := (of_settle h).2.trans hended
      show [value].foldlM step { m with pending := some (flag, none) } = _
      rw [List.foldlM_cons, step_plain (r := { m with pending := some (flag, none) }) hm hvalue]
      rfl

theorem foldlM_singleton (argument : Bytes) : [argument].foldlM step r = r.step argument := by
  rw [List.foldlM_cons]
  exact bind_pure _

/-- The arguments of a phrase settle what is pending and begin the phrase. -/
theorem foldlM_arguments_of_sound {p : Phrase} (hp : p.Sound) (hended : r.flagsEnded = false) :
    p.arguments.foldlM step r = r.settle >>= p.begin := by
  have hdashed : ∀ {flag : Flag} (rest : Bytes), r.step (Phrase.dashed flag ++ rest) =
      r.long (Utf8.encode flag.name ++ rest) := fun rest =>
    step_hyphens hended (List.append_ne_nil_of_left_ne_nil (encode_name_ne_nil _) rest)
  have hname : ∀ flag : Flag, r.step (Phrase.dashed flag) = r.long (Utf8.encode flag.name) :=
    fun flag => step_hyphens hended (encode_name_ne_nil flag)
  cases p with
  | named flag value =>
      rw [Phrase.arguments, foldlM_singleton, hdashed,
        long_value (Act.takesValue_of_sound hp.act)]
      rfl
  | namedApart flag value =>
      have hfirst := (hname flag).trans (long_await (Act.takesValue_of_sound hp.act))
      exact foldlM_apart hended hfirst hp.plain
  | letter value =>
      rw [Phrase.arguments, foldlM_singleton, step_letter hended, short_versionLetter]
      rfl
  | letterApart value =>
      have hfirst := (step_letter hended []).trans (short_versionLetter r [])
      exact foldlM_apart hended hfirst hp.plain
  | letterJoined value =>
      obtain ⟨hne, hhead⟩ := hp.plain
      obtain ⟨b, more, rfl⟩ := List.exists_cons_of_ne_nil hne
      have hb : b ≠ equals := fun heq => hhead (by rw [heq]; rfl)
      rw [Phrase.arguments, foldlM_singleton, step_letter hended, short_versionLetter]
      simp only [if_neg hb]
      rfl
  | switch flag =>
      have htakes : flag.takesValue = false := by
        rcases hp.act with rfl | rfl | rfl <;> rfl
      rw [Phrase.arguments, foldlM_singleton, hname, long_switch htakes]
      rfl

/-- A phrase that has been begun ends in its act when it is settled. -/
theorem bind_settle_begin (p : Phrase) (hpending : r.pending = none) :
    p.begin r >>= settle = p.act.apply r := by
  have hcleared : { r with pending := none } = r := by rw [← hpending]
  have hacted : p.act.apply r >>= settle = p.act.apply r := by
    cases h : p.act.apply r with
    | error e => rfl
    | ok m => exact settle_of_pending ((of_apply h).1.trans hpending)
  cases p with
  | namedApart flag value =>
      show ({ r with pending := none } : Reading).give flag value = r.give flag value
      rw [hcleared]
  | letterApart value =>
      show ({ r with pending := none } : Reading).give .version value = r.give .version value
      rw [hcleared]
  | _ => exact hacted

theorem flagsEnded_of_begin {p : Phrase} (h : p.begin r = .ok r') :
    r'.flagsEnded = r.flagsEnded := by
  have hacted : p.act.apply r = .ok r' → r'.flagsEnded = r.flagsEnded :=
    fun hact => (of_apply hact).2
  cases p with
  | namedApart flag value =>
      cases h
      rfl
  | letterApart value =>
      cases h
      rfl
  | _ => exact hacted h

/-- Reading phrases and then settling is settling and then acting as they spell. -/
theorem foldlM_flatMap_arguments {ps : List Phrase} (hps : ∀ p ∈ ps, p.Sound)
    (hended : r.flagsEnded = false) :
    (ps.flatMap Phrase.arguments).foldlM step r >>= settle =
      r.settle >>= fun m => (ps.map Phrase.act).foldlM Act.apply m := by
  induction ps generalizing r with
  | nil => exact (bind_pure _).symm
  | cons p rest ih =>
      rw [List.flatMap_cons, List.foldlM_append,
        foldlM_arguments_of_sound (hps p List.mem_cons_self) hended]
      cases hsettle : r.settle with
      | error e => rfl
      | ok m =>
          have hm := of_settle hsettle
          have hacted := bind_settle_begin p hm.1
          show (p.begin m >>= fun next => (rest.flatMap Phrase.arguments).foldlM step next) >>=
            settle = (p.act :: rest.map Phrase.act).foldlM Act.apply m
          rw [List.foldlM_cons, ← hacted]
          cases hbegin : p.begin m with
          | error e => rfl
          | ok next =>
              have hnext := (flagsEnded_of_begin hbegin).trans (hm.2.trans hended)
              exact ih (fun q hq => hps q (List.mem_cons_of_mem _ hq)) hnext

end Reading

/-- A complaint about flags that cannot stand in one command line. -/
def Failure.IsConflict : Failure → Prop
  | repeated _ | conflict _ _ _ => True
  | _ => False

theorem Failure.exitCode_of_isConflict {f : Failure} (h : f.IsConflict) : f.exitCode = 2 := by
  cases f with
  | repeated | conflict => rfl
  | _ => exact h.elim

namespace Settings

theorem parse_flatMap_arguments {ps : List Phrase} (hps : ∀ p ∈ ps, p.Sound) :
    parse (ps.flatMap Phrase.arguments) =
      (ps.map Phrase.act).foldlM Act.apply .start >>= Reading.finish := by
  calc parse (ps.flatMap Phrase.arguments)
      = (ps.flatMap Phrase.arguments).foldlM Reading.step .start >>= fun r =>
          r.settle >>= Reading.finish := by
        rw [parse]
        exact bind_congr Reading.finish_eq
    _ = ((ps.flatMap Phrase.arguments).foldlM Reading.step .start >>= Reading.settle) >>=
          Reading.finish := (bind_assoc _ _ _).symm
    _ = (ps.map Phrase.act).foldlM Act.apply .start >>= Reading.finish := by
        rw [Reading.foldlM_flatMap_arguments hps rfl]
        rfl

theorem forall_act_sound {ps : List Phrase} (hps : ∀ p ∈ ps, p.Sound) :
    ∀ a ∈ ps.map Phrase.act, a.Sound := by
  intro a ha
  obtain ⟨p, hp, rfl⟩ := List.mem_map.mp ha
  exact (hps p hp).act

/-- Phrases, at least one, that use no flag twice and not both of the flags that exclude each other
are parsed as what they set together. -/
theorem parse_of_once {ps : List Phrase} (hne : ps ≠ []) (hps : ∀ p ∈ ps, p.Sound)
    (honce : Act.Once (ps.map Phrase.flag))
    (hone : ¬ (.quiet ∈ ps.map Phrase.flag ∧ .json ∈ ps.map Phrase.flag)) :
    parse (ps.flatMap Phrase.arguments) = .ok ((ps.map Phrase.act).foldl Act.set standard) := by
  have hflags : (ps.map Phrase.act).map Act.flag = ps.map Phrase.flag := List.map_map
  have hacted := (Act.foldlM_apply_start (forall_act_sound hps)).1 (hflags ▸ honce)
  obtain ⟨p, hp⟩ := List.exists_mem_of_ne_nil _ hne
  have hused : p.flag ∈ (ps.map Phrase.act).foldl Act.use [] :=
    Act.mem_foldl_use (Or.inr (hflags ▸ List.mem_map_of_mem hp))
  have hloud : ¬ (((ps.map Phrase.act).foldl Act.set standard).quiet &&
      ((ps.map Phrase.act).foldl Act.set standard).json) = true := by
    rw [Bool.and_eq_true, Act.isOn_foldl_set fun s a => (Act.set_eq_or s a).1,
      Act.isOn_foldl_set fun s a => (Act.set_eq_or s a).2]
    rintro ⟨hquiet | hquiet, hjson | hjson⟩
    · cases hquiet
    · cases hquiet
    · cases hjson
    · exact hone (hflags ▸ ⟨List.mem_map_of_mem hquiet, List.mem_map_of_mem hjson⟩)
  rw [parse_flatMap_arguments hps, hacted]
  exact Reading.finish_of_used (r := ⟨_, _, none, false⟩) rfl (List.ne_nil_of_mem hused) hloud

theorem parse_of_perm {w : Wish} {ps : List Phrase} (hne : w.acts ≠ [])
    (hps : ∀ p ∈ ps, p.Sound) (hperm : (ps.map Phrase.act).Perm w.acts) :
    parse (ps.flatMap Phrase.arguments) = .ok w.settings := by
  have hflags : (ps.map Phrase.flag).Perm (w.acts.map Act.flag) :=
    (List.map_map (f := Phrase.act) (g := Act.flag)).symm ▸ hperm.map Act.flag
  have honce : Act.Once (ps.map Phrase.flag) := by
    intro flag hflag
    rw [hflags.count_eq]
    exact w.once_flags_acts flag hflag
  have hone : ¬ (.quiet ∈ ps.map Phrase.flag ∧ .json ∈ ps.map Phrase.flag) := by
    rw [hflags.mem_iff, hflags.mem_iff]
    exact fun hboth => w.one (w.quiet_and_json_of_mem hboth)
  have hset : (ps.map Phrase.act).foldl Act.set standard = w.settings := by
    rw [← Wish.settingsBy_nil w, Wish.foldl_set_settingsBy hperm.subset, List.nil_append,
      Wish.settingsBy_of_perm (hperm.map Act.flag), Wish.settingsBy_acts]
  have hsome : ps ≠ [] := by
    rintro rfl
    exact hne hperm.nil_eq.symm
  rw [parse_of_once hsome hps honce hone, hset]

/-- Phrases with a flag that is used twice, or with both flags that exclude each other, are
complained about. -/
theorem exists_conflict_of_phrases {ps : List Phrase} (hps : ∀ p ∈ ps, p.Sound)
    (h : (∃ flag, flag ≠ .verbose ∧ 2 ≤ (ps.map Phrase.flag).count flag) ∨
      .quiet ∈ ps.map Phrase.flag ∧ .json ∈ ps.map Phrase.flag) :
    ∃ f, parse (ps.flatMap Phrase.arguments) = .error f ∧ f.IsConflict := by
  have hsound := forall_act_sound hps
  have hflags : (ps.map Phrase.act).map Act.flag = ps.map Phrase.flag := List.map_map
  obtain ⟨hok, hrefused⟩ := Act.foldlM_apply_start hsound
  rw [hflags] at hok hrefused
  by_cases honce : Act.Once (ps.map Phrase.flag)
  · obtain ⟨hquiet, hjson⟩ := h.resolve_left fun ⟨flag, hflag, htwice⟩ =>
      absurd (honce flag hflag) (by omega)
    have hraised : ∀ flag : Flag, flag.takesValue = false → flag ∈ ps.map Phrase.flag →
        .raise flag ∈ ps.map Phrase.act := by
      intro flag htakes hmem
      rw [← hflags] at hmem
      obtain ⟨a, ha, rfl⟩ := List.mem_map.mp hmem
      exact Act.eq_raise_of_flag (hsound a ha) htakes ▸ ha
    have hused : ∀ flag ∈ ps.map Phrase.flag, flag ∈ (ps.map Phrase.act).foldl Act.use [] :=
      fun flag hmem => Act.mem_foldl_use (Or.inr (hflags ▸ hmem))
    obtain ⟨first, second, used, hfinish⟩ := Reading.exists_conflict_of_finish
      (r := ⟨(ps.map Phrase.act).foldl Act.set standard, _, none, false⟩)
      ⟨fun _ => hused _ hquiet, fun _ => hused _ hjson⟩ rfl
      ((Act.isOn_foldl_set (fun s a => (Act.set_eq_or s a).1) _ _).mpr
        (Or.inr (hraised .quiet rfl hquiet)))
      ((Act.isOn_foldl_set (fun s a => (Act.set_eq_or s a).2) _ _).mpr
        (Or.inr (hraised .json rfl hjson)))
    rw [parse_flatMap_arguments hps, hok honce]
    exact ⟨_, hfinish, trivial⟩
  · obtain ⟨flag, hrepeated⟩ := hrefused honce
    rw [parse_flatMap_arguments hps, hrepeated]
    exact ⟨_, rfl, trivial⟩

/-- Reading undoes spelling.  A command line that spells what a user wants, if he wants anything,
in phrases of whatever form and order, is parsed as just that.  One with a flag that is used
twice, apart from the counted one, or with both flags that exclude each other, is complained about
and ends with status 2. -/
theorem parse_phrases :
    (∀ (w : Wish) (ps : List Phrase), w.acts ≠ [] → (∀ p ∈ ps, p.Sound) →
      (ps.map Phrase.act).Perm w.acts → parse (ps.flatMap Phrase.arguments) = .ok w.settings) ∧
    ∀ ps : List Phrase, (∀ p ∈ ps, p.Sound) →
      ((∃ flag, flag ≠ .verbose ∧ 2 ≤ (ps.map Phrase.flag).count flag) ∨
        .quiet ∈ ps.map Phrase.flag ∧ .json ∈ ps.map Phrase.flag) →
      ∃ f, parse (ps.flatMap Phrase.arguments) = .error f ∧ f.IsConflict ∧ f.exitCode = 2 := by
  constructor
  · intro w ps hne hps hperm
    exact parse_of_perm hne hps hperm
  · intro ps hps h
    obtain ⟨f, hparse, hf⟩ := exists_conflict_of_phrases hps h
    exact ⟨f, hparse, hf, f.exitCode_of_isConflict hf⟩

/-- A wish for everything but silence in mixed spellings, with values that look like flags and a
path that is no text, and two versions. -/
theorem parse_phrases_mixed :
    let w : Wish := ⟨some "3=", some "", some "--json", some ⟨[255]⟩, 2, false, true,
      by decide, by decide⟩
    let ps : List Phrase := [.switch .verbose, .namedApart .buildDir [255], .letterJoined
      (Utf8.encode "3="), .switch .json, .namedApart .scripts [], .named .styles
      (Utf8.encode "--json"), .switch .verbose]
    let qs : List Phrase := [.letter (Utf8.encode "-1"), .switch .verbose, .letterApart
      (Utf8.encode "=")]
    ps.flatMap Phrase.arguments = [Utf8.encode "--verbose", Utf8.encode "--build_dir", [255],
        Utf8.encode "-v3=", Utf8.encode "--json", Utf8.encode "--js_src", [],
        Utf8.encode "--css_src=--json", Utf8.encode "--verbose"] ∧
      qs.flatMap Phrase.arguments = ["-v=-1", "--verbose", "-v", "="].map Utf8.encode ∧
      w.acts ≠ [] ∧ (∀ p ∈ ps, p.Sound) ∧ (ps.map Phrase.act).Perm w.acts ∧
      parse (ps.flatMap Phrase.arguments) =
        .ok ⟨some "3=", some "", some "--json", ⟨[255]⟩, 2, false, true⟩ ∧
      (∀ p ∈ qs, p.Sound) ∧ 2 ≤ (qs.map Phrase.flag).count .version ∧
      ∃ f, parse (qs.flatMap Phrase.arguments) = .error f ∧ f.IsConflict ∧ f.exitCode = 2 := by
  intro w ps qs
  have hps : ∀ p ∈ ps, p.Sound := by decide
  have hqs : ∀ p ∈ qs, p.Sound := by decide
  have hperm : (ps.map Phrase.act).Perm w.acts := by decide
  have htwice : 2 ≤ (qs.map Phrase.flag).count .version := by decide
  exact ⟨by decide, by decide, by decide, hps, hperm,
    parse_phrases.1 w ps (by decide) hps hperm, hqs, htwice,
    parse_phrases.2 qs hqs (Or.inl ⟨.version, by decide, htwice⟩)⟩

end Settings
end AssetPress
