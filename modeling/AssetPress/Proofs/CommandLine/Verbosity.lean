import AssetPress.Proofs.CommandLine.Phrases
import AssetPress.Proofs.CommandLine.Reading
import AssetPress.Proofs.Text.Fields
import AssetPress.Proofs.Text.Utf8

/-!
# Verbosity on the command line

What an argument does to the state of reading depends on the argument alone, as long as flags have
not ended (`Move`, `exists_move`): so whatever is to be proved of all arguments is proved of six
moves.  The verbosity is raised by the argument `--verbose` and by no other
(`Settings.verbosity_of_parse`), and once more of it in front of arguments that can be read raises
the verbosity by one, up to the largest that is told apart, and changes nothing else
(`Settings.parse_verbose_cons`).
-/

namespace AssetPress

def verboseArgument : Bytes := Utf8.encode "--verbose"

/-! ### Moves -/

/-- What an argument does to what has been read. -/
inductive Move where
  /-- No flags come behind it. -/
  | endFlags
  /-- It is the value that is awaited. -/
  | value (text : Bytes)
  /-- It names a flag together with a value. -/
  | give (flag : Flag) (text : Bytes)
  /-- It names a flag whose value is awaited from now on. -/
  | await (flag : Flag)
  /-- It names a flag without a value. -/
  | raise (flag : Flag)
  /-- It is complained about. -/
  | stray

namespace Move

/-- The move takes the state `r` to the state `m`. -/
def Takes (r m : Reading) : Move → Prop
  | .endFlags => m = { r with flagsEnded := true }
  | .value text => r.plain text = .ok m
  | .give flag text => ∃ n, r.settle = .ok n ∧ n.give flag text = .ok m
  | .await flag => ∃ n, r.settle = .ok n ∧ m = { n with pending := some (flag, none) }
  | .raise flag => ∃ n, r.settle = .ok n ∧ n.raise flag = .ok m
  | .stray => False

/-- The move can be that of an argument: only flags that take a value are given one, and the counted
one is raised by its name alone. -/
def Sound (argument : Bytes) : Move → Prop
  | .give flag _ => flag.takesValue = true
  | .await flag => flag.takesValue = true
  | .raise flag => flag = .verbose → argument = verboseArgument
  | _ => True

/-- The move is what reading does, wherever it succeeds. -/
def Describes (read : Reading → Except Failure Reading) (move : Move) : Prop :=
  ∀ r m, read r = .ok m ↔ move.Takes r m

theorem stray_describes {read : Reading → Except Failure Reading}
    (h : ∀ r, ∃ f, read r = .error f) : stray.Describes read := by
  intro r m
  obtain ⟨f, hf⟩ := h r
  rw [hf]
  exact ⟨fun heq => (by cases heq), False.elim⟩

theorem bind_settle_eq_ok_iff {r m : Reading} {f : Reading → Except Failure Reading} :
    (r.settle >>= f) = .ok m ↔ ∃ n, r.settle = .ok n ∧ f n = .ok m := by
  constructor
  · exact of_bind_ok
  · rintro ⟨n, hn, hm⟩
    rw [hn]
    exact hm

theorem give_describes (flag : Flag) (text : Bytes) :
    (give flag text).Describes fun r => r.settle >>= fun n => n.give flag text :=
  fun _ _ => bind_settle_eq_ok_iff

theorem raise_describes (flag : Flag) :
    (raise flag).Describes fun r => r.settle >>= fun n => n.raise flag :=
  fun _ _ => bind_settle_eq_ok_iff

theorem await_describes (flag : Flag) :
    (await flag).Describes fun r =>
      r.settle >>= fun n => .ok { n with pending := some (flag, none) } := by
  intro r m
  rw [bind_settle_eq_ok_iff]
  constructor
  · rintro ⟨n, hn, hm⟩
    cases hm
    exact ⟨n, hn, rfl⟩
  · rintro ⟨n, hn, rfl⟩
    exact ⟨n, hn, rfl⟩

end Move

namespace Flag

theorem name_of_ofName? {name : String} {flag : Flag} (h : ofName? name = some flag) :
    flag.name = name :=
  beq_iff_eq.mp (List.find?_some (p := fun f : Flag => f.name == name) h)

theorem letter?_of_ofLetter? {c : Char} {flag : Flag} (h : ofLetter? c = some flag) :
    flag.letter? = some c :=
  beq_iff_eq.mp (List.find?_some (p := fun f : Flag => f.letter? == some c) h)

end Flag

namespace Reading

/-- Behind two hyphens a flag is named, perhaps with a value. -/
theorem exists_move_long (text : Bytes) : ∃ move : Move,
    move.Sound (hyphen :: hyphen :: text) ∧ move.Describes fun r => r.long text := by
  have hspec := cut_spec equals text
  unfold long
  rcases hcut : cut equals text with ⟨name, value⟩
  rw [hcut] at hspec
  simp only
  cases hflag : (Utf8.decode? name).bind Flag.ofName? with
  | none => exact ⟨.stray, trivial, Move.stray_describes fun _ => ⟨_, rfl⟩⟩
  | some flag =>
      simp only
      cases htakes : flag.takesValue with
      | true =>
          cases value with
          | some value => exact ⟨.give flag value, htakes, Move.give_describes flag value⟩
          | none => exact ⟨.await flag, htakes, Move.await_describes flag⟩
      | false =>
          cases value with
          | some value => exact ⟨.stray, trivial, Move.stray_describes fun _ => ⟨_, rfl⟩⟩
          | none =>
              refine ⟨.raise flag, fun hverbose => ?_, Move.raise_describes flag⟩
              obtain ⟨spelled, hspelled, hname⟩ := Option.bind_eq_some_iff.mp hflag
              have hbytes := Utf8.encode_of_decode? hspelled
              have htext : text = name := by simpa using hspec
              rw [htext, ← hbytes, ← Flag.name_of_ofName? hname, hverbose]
              decide

theorem exists_move_short (argument text : Bytes) : ∃ move : Move,
    move.Sound argument ∧ move.Describes fun r => r.short text := by
  unfold short
  cases hfirst : firstLetter? text with
  | none => exact ⟨.stray, trivial, Move.stray_describes fun _ => ⟨_, rfl⟩⟩
  | some first =>
      obtain ⟨letter, rest⟩ := first
      simp only
      cases hflag : Flag.ofLetter? letter with
      | none => exact ⟨.stray, trivial, Move.stray_describes fun _ => ⟨_, rfl⟩⟩
      | some flag =>
          simp only
          cases htakes : flag.takesValue with
          | true =>
              cases rest with
              | nil => exact ⟨.await flag, htakes, Move.await_describes flag⟩
              | cons b more => exact ⟨.give flag _, htakes, Move.give_describes flag _⟩
          | false =>
              refine ⟨.raise flag, fun hverbose => ?_, Move.raise_describes flag⟩
              -- The counted flag has no letter.
              have hletter := Flag.letter?_of_ofLetter? hflag
              rw [hverbose] at hletter
              cases hletter

/-- Every argument makes a move of its own, whatever has been read before. -/
theorem exists_move (argument : Bytes) : ∃ move : Move, move.Sound argument ∧
    ∀ r m : Reading, r.flagsEnded = false → (r.step argument = .ok m ↔ move.Takes r m) := by
  by_cases hhead : argument.head? = some hyphen
  · rcases argument with _ | ⟨b, _ | ⟨c, rest⟩⟩
    · cases hhead
    · refine ⟨.value [b], trivial, fun r m hended => ?_⟩
      simp only [step, hended, Bool.false_eq_true, if_false]
      exact Iff.rfl
    · obtain rfl : b = hyphen := Option.some.inj hhead
      by_cases hc : c = hyphen
      · subst hc
        by_cases hrest : rest = []
        · subst hrest
          refine ⟨.endFlags, trivial, fun r m hended => ?_⟩
          simp only [step, hended, Bool.false_eq_true, if_false, and_self, if_true]
          constructor
          · intro h
            cases h
            rfl
          · intro h
            exact congrArg Except.ok (Eq.symm h)
        · obtain ⟨move, hsound, hmove⟩ := exists_move_long rest
          refine ⟨move, hsound, fun r m hended => ?_⟩
          rw [step_hyphens hended hrest]
          exact hmove r m
      · obtain ⟨move, hsound, hmove⟩ := exists_move_short (hyphen :: c :: rest) (c :: rest)
        refine ⟨move, hsound, fun r m hended => ?_⟩
        have hstep : r.step (hyphen :: c :: rest) = r.short (c :: rest) := by
          cases rest <;> simp [step, hended, hc]
        rw [hstep]
        exact hmove r m
  · refine ⟨.value argument, trivial, fun r m hended => ?_⟩
    rw [step_plain hended hhead]
    exact Iff.rfl

theorem flagsEnded_of_step {r m : Reading} {argument : Bytes} (h : r.step argument = .ok m) :
    r.flagsEnded = false := by
  cases hended : r.flagsEnded with
  | false => rfl
  | true =>
      simp [step, hended] at h

/-! ### Who raises the verbosity -/

theorem withValue_withVerbosity (s : Settings) (n : Nat) (flag : Flag) (value : Bytes) :
    ({ s with verbosity := n } : Settings).withValue flag value =
      (s.withValue flag value).map fun s' => { s' with verbosity := n } := by
  unfold Settings.withValue
  cases flag with
  | version | scripts | styles =>
      unfold Settings.withValue.withText
      cases Utf8.decode? value <;> rfl
  | buildDir =>
      simp only
      split <;> rfl
  | _ => rfl

theorem verbosity_of_withValue {s s' : Settings} {flag : Flag} {value : Bytes}
    (h : s.withValue flag value = .ok s') : s'.verbosity = s.verbosity := by
  have hself : s.withValue flag value = (s.withValue flag value).map _ :=
    withValue_withVerbosity s s.verbosity flag value
  rw [h] at hself
  have hsame : s' = { s' with verbosity := s.verbosity } := Except.ok.inj hself
  have hverbosity := congrArg Settings.verbosity hsame
  exact hverbosity

theorem verbosity_of_give {r m : Reading} {flag : Flag} {value : Bytes}
    (h : r.give flag value = .ok m) : m.settings.verbosity = r.settings.verbosity := by
  unfold give at h
  split at h
  · cases h
  · obtain ⟨settings, hvalue, hend⟩ := of_bind_ok h
    cases hend
    exact verbosity_of_withValue hvalue

theorem verbosity_of_settle {r m : Reading} (h : r.settle = .ok m) :
    m.settings.verbosity = r.settings.verbosity := by
  unfold settle at h
  split at h
  · cases h
    rfl
  · cases h
  · exact verbosity_of_give (r := { r with pending := none }) h

theorem verbosity_of_raise {r m : Reading} {flag : Flag} (hflag : flag ≠ .verbose)
    (h : r.raise flag = .ok m) : m.settings.verbosity = r.settings.verbosity := by
  cases flag with
  | verbose => exact absurd rfl hflag
  | help => cases h
  | quiet | json =>
      unfold raise raise.once at h
      simp only at h
      split at h <;> cases h
      rfl
  | _ =>
      cases h
      rfl

theorem verbosity_of_step {r m : Reading} {argument : Bytes} (hne : argument ≠ verboseArgument)
    (h : r.step argument = .ok m) : m.settings.verbosity = r.settings.verbosity := by
  obtain ⟨move, hsound, hmove⟩ := exists_move argument
  have htakes := (hmove r m (flagsEnded_of_step h)).mp h
  cases move with
  | endFlags =>
      rw [show m = _ from htakes]
  | value text =>
      have hplain : r.plain text = .ok m := htakes
      unfold plain at hplain
      split at hplain <;> cases hplain
      rfl
  | give flag value =>
      obtain ⟨n, hsettle, hgive⟩ := htakes
      rw [verbosity_of_give hgive, verbosity_of_settle hsettle]
  | await flag =>
      obtain ⟨n, hsettle, hm⟩ := htakes
      rw [hm]
      exact verbosity_of_settle (m := n) hsettle
  | raise flag =>
      obtain ⟨n, hsettle, hraise⟩ := htakes
      have hflag : flag ≠ .verbose := fun heq => hne (hsound heq)
      rw [verbosity_of_raise hflag hraise, verbosity_of_settle hsettle]
  | stray => exact htakes.elim

theorem verbosity_of_steps {r m : Reading} {arguments : List Bytes}
    (hnot : verboseArgument ∉ arguments) (h : arguments.foldlM step r = .ok m) :
    m.settings.verbosity = r.settings.verbosity := by
  induction arguments generalizing r with
  | nil =>
      cases h
      rfl
  | cons argument rest ih =>
      rw [List.foldlM_cons] at h
      obtain ⟨n, hstep, hrest⟩ := of_bind_ok h
      have hne : argument ≠ verboseArgument := fun heq => hnot (heq ▸ List.mem_cons_self)
      rw [ih (fun hmem => hnot (List.mem_cons_of_mem _ hmem)) hrest, verbosity_of_step hne hstep]

/-- What has been read once everything pending is settled are the settings. -/
theorem of_finish {r : Reading} {s : Settings} (h : r.finish = .ok s) :
    ∃ m, r.settle = .ok m ∧ s = m.settings := by
  unfold finish at h
  obtain ⟨m, hsettle, hrest⟩ := of_bind_ok h
  refine ⟨m, hsettle, ?_⟩
  have hused : m.used ≠ [] := by
    intro hnil
    simp only [hnil, if_true] at hrest
    cases hrest
  simp only [hused, if_false] at hrest
  split at hrest
  · split at hrest <;> cases hrest
    rfl
  · cases hrest
    rfl

end Reading

/-- Arguments without `--verbose` ask for no verbosity. -/
theorem Settings.verbosity_of_parse {arguments : List Bytes} {s : Settings}
    (h : parse arguments = .ok s) (hnot : verboseArgument ∉ arguments) : s.verbosity = 0 := by
  obtain ⟨r, hsteps, hfinish⟩ := of_bind_ok h
  obtain ⟨m, hsettle, rfl⟩ := Reading.of_finish hfinish
  rw [Reading.verbosity_of_settle hsettle, Reading.verbosity_of_steps hnot hsteps]
  rfl

/-! ### Once more -/

/-- The settings with the verbosity raised once more, if a larger one is told apart. -/
def Settings.louder (s : Settings) : Settings :=
  { s with verbosity := min (s.verbosity + 1) maxVerbosity }

namespace Reading

/-- The second state is the first one with the verbosity raised once more.  What waits for a value
is never the counted flag. -/
structure Louder (r r' : Reading) : Prop where
  settings : r'.settings = r.settings.louder
  mem_used_iff : ∀ flag, flag ≠ .verbose → (flag ∈ r'.used ↔ flag ∈ r.used)
  used_ne_nil : r'.used ≠ []
  pending : r'.pending = r.pending
  flagsEnded : r'.flagsEnded = r.flagsEnded
  waits : ∀ flag value, r.pending = some (flag, value) → flag.takesValue = true

variable {r r' m : Reading}

theorem ne_verbose_of_takesValue {flag : Flag} (h : flag.takesValue = true) : flag ≠ .verbose := by
  rintro rfl
  cases h

theorem withValue_louder {s s' : Settings} {flag : Flag} {value : Bytes}
    (h : s.withValue flag value = .ok s') : s.louder.withValue flag value = .ok s'.louder := by
  rw [Settings.louder, withValue_withVerbosity, h, Settings.louder, verbosity_of_withValue h]
  rfl

namespace Louder

theorem mem_append_iff (h : Louder r r') (used : Flag) (flag : Flag) (hflag : flag ≠ .verbose) :
    flag ∈ r'.used ++ [used] ↔ flag ∈ r.used ++ [used] := by
  rw [List.mem_append, List.mem_append, h.mem_used_iff flag hflag]

theorem give (h : Louder r r') {flag : Flag} {value : Bytes} (htakes : flag.takesValue = true)
    (hgive : r.give flag value = .ok m) : ∃ m', r'.give flag value = .ok m' ∧ Louder m m' := by
  unfold Reading.give at hgive ⊢
  split at hgive
  case isTrue => cases hgive
  case isFalse hfree =>
    obtain ⟨settings, hvalue, hend⟩ := of_bind_ok hgive
    cases hend
    have hfree' : flag ∉ r'.used :=
      fun hmem => hfree ((h.mem_used_iff flag (ne_verbose_of_takesValue htakes)).mp hmem)
    have hvalue' := withValue_louder hvalue
    rw [if_neg hfree', h.settings, hvalue']
    exact ⟨_, rfl, rfl, h.mem_append_iff flag, by simp, h.pending, h.flagsEnded, h.waits⟩

theorem settle (h : Louder r r') (hsettle : r.settle = .ok m) :
    ∃ m', r'.settle = .ok m' ∧ Louder m m' := by
  unfold Reading.settle at hsettle ⊢
  rw [h.pending]
  cases hpending : r.pending with
  | none =>
      rw [hpending] at hsettle
      cases hsettle
      exact ⟨r', rfl, h⟩
  | some waiting =>
      obtain ⟨flag, _ | value⟩ := waiting
      · rw [hpending] at hsettle
        cases hsettle
      · rw [hpending] at hsettle
        have hfree : Louder { r with pending := none } { r' with pending := none } :=
          ⟨h.settings, h.mem_used_iff, h.used_ne_nil, rfl, h.flagsEnded,
            fun flag value hnone => by cases hnone⟩
        exact hfree.give (h.waits flag _ hpending) hsettle

theorem await (h : Louder r r') {flag : Flag} (value : Option Bytes)
    (htakes : flag.takesValue = true) :
    Louder { r with pending := some (flag, value) } { r' with pending := some (flag, value) } := by
  refine ⟨h.settings, h.mem_used_iff, h.used_ne_nil, rfl, h.flagsEnded, fun other _ hsome => ?_⟩
  cases hsome
  exact htakes

theorem raise (h : Louder r r') {flag : Flag} (hraise : r.raise flag = .ok m) :
    ∃ m', r'.raise flag = .ok m' ∧ Louder m m' := by
  cases flag with
  | help => cases hraise
  | verbose =>
      cases hraise
      refine ⟨_, rfl, ?_, fun flag hflag => ?_, by simp, h.pending, h.flagsEnded, h.waits⟩
      · rw [h.settings]
        rfl
      · rw [List.mem_append, List.mem_append, List.mem_erase_of_ne hflag,
          List.mem_erase_of_ne hflag, h.mem_used_iff flag hflag]
  | quiet | json =>
      unfold Reading.raise raise.once at hraise ⊢
      simp only at hraise ⊢
      split at hraise
      case isTrue => cases hraise
      case isFalse hfree =>
        cases hraise
        rw [if_neg fun hmem => hfree ((h.mem_used_iff _ (by decide)).mp hmem), h.settings]
        exact ⟨_, rfl, rfl, h.mem_append_iff _, by simp, h.pending, h.flagsEnded, h.waits⟩
  | _ =>
      cases hraise
      exact ⟨r', rfl, h⟩

theorem plain (h : Louder r r') {argument : Bytes} (hplain : r.plain argument = .ok m) :
    ∃ m', r'.plain argument = .ok m' ∧ Louder m m' := by
  unfold Reading.plain at hplain ⊢
  rw [h.pending]
  cases hpending : r.pending with
  | none =>
      rw [hpending] at hplain
      cases hplain
  | some waiting =>
      obtain ⟨flag, _ | value⟩ := waiting
      · rw [hpending] at hplain
        cases hplain
        exact ⟨_, rfl, h.await (some argument) (h.waits flag none hpending)⟩
      · rw [hpending] at hplain
        cases hplain

/-- Every argument that can be read keeps the states so. -/
theorem step (h : Louder r r') {argument : Bytes} (hstep : r.step argument = .ok m) :
    ∃ m', r'.step argument = .ok m' ∧ Louder m m' := by
  obtain ⟨move, hsound, hmove⟩ := exists_move argument
  have hended := flagsEnded_of_step hstep
  have htakes := (hmove r m hended).mp hstep
  have hended' : r'.flagsEnded = false := h.flagsEnded.trans hended
  suffices hlouder : ∃ m', move.Takes r' m' ∧ Louder m m' by
    obtain ⟨m', htakes', hm⟩ := hlouder
    exact ⟨m', (hmove r' m' hended').mpr htakes', hm⟩
  cases move with
  | endFlags =>
      obtain rfl : m = _ := htakes
      exact ⟨_, rfl, h.settings, h.mem_used_iff, h.used_ne_nil, h.pending, rfl, h.waits⟩
  | value text => exact h.plain htakes
  | give flag value =>
      obtain ⟨n, hsettle, hgive⟩ := htakes
      obtain ⟨n', hsettle', hn⟩ := h.settle hsettle
      obtain ⟨m', hgive', hm⟩ := hn.give hsound hgive
      exact ⟨m', ⟨n', hsettle', hgive'⟩, hm⟩
  | await flag =>
      obtain ⟨n, hsettle, rfl⟩ := htakes
      obtain ⟨n', hsettle', hn⟩ := h.settle hsettle
      exact ⟨_, ⟨n', hsettle', rfl⟩, hn.await none hsound⟩
  | raise flag =>
      obtain ⟨n, hsettle, hraise⟩ := htakes
      obtain ⟨n', hsettle', hn⟩ := h.settle hsettle
      obtain ⟨m', hraise', hm⟩ := hn.raise hraise
      exact ⟨m', ⟨n', hsettle', hraise'⟩, hm⟩
  | stray => exact htakes.elim

theorem steps (h : Louder r r') {arguments : List Bytes}
    (hsteps : arguments.foldlM Reading.step r = .ok m) :
    ∃ m', arguments.foldlM Reading.step r' = .ok m' ∧ Louder m m' := by
  induction arguments generalizing r r' with
  | nil =>
      cases hsteps
      exact ⟨r', rfl, h⟩
  | cons argument rest ih =>
      rw [List.foldlM_cons] at hsteps
      obtain ⟨n, hstep, hrest⟩ := of_bind_ok hsteps
      obtain ⟨n', hstep', hn⟩ := h.step hstep
      obtain ⟨m', hrest', hm⟩ := ih hn hrest
      refine ⟨m', ?_, hm⟩
      rw [List.foldlM_cons, hstep']
      exact hrest'

/-- The settings that are read in the end differ by the verbosity alone. -/
theorem finish (h : Louder r r') (hrecords : r.Records) {s : Settings}
    (hfinish : r.finish = .ok s) : r'.finish = .ok s.louder := by
  have hone := not_quiet_and_json_of_finish hrecords hfinish
  obtain ⟨m, hsettle, rfl⟩ := of_finish hfinish
  obtain ⟨m', hsettle', hm⟩ := h.settle hsettle
  have hpending : m'.pending = none := (of_settle hsettle').1
  have hone' : ¬ (m'.settings.quiet && m'.settings.json) = true := by
    rw [hm.settings]
    exact fun hboth => hone (Bool.and_eq_true_iff.mp hboth)
  rw [finish_eq, hsettle', ← hm.settings]
  exact finish_of_used hpending hm.used_ne_nil hone'

end Louder

theorem exists_louder_start :
    ∃ r', start.step verboseArgument = .ok r' ∧ Louder start r' := by
  refine ⟨⟨Settings.standard.louder, [.verbose], none, false⟩, rfl, rfl, ?_, by decide, rfl, rfl,
    fun flag value hnone => by cases hnone⟩
  intro flag hflag
  simp [start, hflag]

end Reading

/-- One more `--verbose` in front raises the verbosity, if it can be raised, and nothing else. -/
theorem Settings.parse_verbose_cons {arguments : List Bytes} {s : Settings}
    (h : parse arguments = .ok s) : parse (verboseArgument :: arguments) = .ok s.louder := by
  obtain ⟨r, hsteps, hfinish⟩ := of_bind_ok h
  obtain ⟨first, hfirst, hlouder⟩ := Reading.exists_louder_start
  obtain ⟨r', hsteps', hr⟩ := hlouder.steps hsteps
  have hrecords := Reading.records_start.steps hsteps
  rw [parse, List.foldlM_cons, hfirst]
  show (arguments.foldlM Reading.step first >>= Reading.finish) = _
  rw [hsteps']
  exact hr.finish hrecords hfinish

end AssetPress
