import AssetPress.Json.Reader

/-!
# Reading printed JSON

What has been printed is read back: strings (`readString_escapes`), numbers
(`readUnsigned_toDigits`) and, by induction on their structure, values (`readValue_render`).  The
printed form of a value can stand in front of any text that does not go on with a number, and
blanks in front of it make no difference.  Main statement: `read?_print`.
-/

namespace AssetPress
namespace Json

/-! ### What is read -/

mutual

/-- What a value stands for. -/
def value : Json → Value
  | string text => .string text
  | number n => .number false n 0
  | list items => .list (values items)
  | object fields => .object (fieldValues fields)

def values : List Json → List Value
  | [] => []
  | item :: more => item.value :: values more

def fieldValues : List (String × Json) → List (String × Value)
  | [] => []
  | (key, v) :: more => (key, v.value) :: fieldValues more

end

/-! ### Blanks -/

theorem skipBlanks_newline (level : Nat) (text : List Char) :
    skipBlanks (newline level ++ text) = skipBlanks text := by
  refine List.dropWhile_append_of_pos fun c hc => ?_
  rcases List.mem_cons.mp hc with rfl | hc
  · rfl
  · rw [List.eq_of_mem_replicate hc]
    rfl

theorem skipBlanks_cons {c : Char} (h : isBlank c = false) (rest : List Char) :
    skipBlanks (c :: rest) = c :: rest := by
  rw [skipBlanks, List.dropWhile_cons_of_neg (by simp [h])]

theorem readValue_blank (depth : Nat) {c : Char} (h : isBlank c = true) (text : List Char) :
    readValue depth (c :: text) = readValue depth text := by
  have hskip : skipBlanks (c :: text) = skipBlanks text := List.dropWhile_cons_of_pos h
  cases depth with
  | zero => rfl
  | succ depth => rw [readValue, readValue, hskip]

theorem readValue_newline (depth level : Nat) (text : List Char) :
    readValue depth (newline level ++ text) = readValue depth text := by
  cases depth with
  | zero => rfl
  | succ depth => rw [readValue, readValue, skipBlanks_newline]

theorem readItems_newline (depth level : Nat) (text : List Char) :
    readItems depth (newline level ++ text) = readItems depth text := by
  cases depth with
  | zero => rfl
  | succ depth => rw [readItems, readItems, readValue_newline]

theorem readFields_newline (depth level : Nat) (text : List Char) :
    readFields depth (newline level ++ text) = readFields depth text := by
  cases depth with
  | zero => rfl
  | succ depth => rw [readFields, readFields, skipBlanks_newline]

/-! ### Strings -/

theorem hexDigit?_digit : ∀ n < 16, hexDigit? (digit n) = some n := by decide

theorem unit?_control {n : Nat} (h : n < 32) :
    unit? '0' '0' (digit (n / 16)) (digit (n % 16)) = some n := by
  have hzero : hexDigit? '0' = some 0 := by decide
  simp only [unit?, hzero, hexDigit?_digit (n / 16) (by omega), hexDigit?_digit (n % 16) (by omega)]
  exact congrArg some (by omega)

theorem readString_letter {letter c : Char} (hletter : unescape? letter = some c)
    (rest : List Char) :
    readString ('\\' :: letter :: rest) = (readString rest).map (push c) := by
  have hu : letter ≠ 'u' := by
    rintro rfl
    cases hletter
  rw [readString]
  · rw [hletter]
    cases readString rest <;> rfl
  · rintro a b c d more h -
    exact hu h

theorem readString_control {c : Char} (hc : c.toNat < 32) (rest : List Char) :
    readString ('\\' :: 'u' :: '0' :: '0' :: digit (c.toNat / 16) :: digit (c.toNat % 16) :: rest) =
      (readString rest).map (push c) := by
  have hwhole : isSurrogate c.toNat = false := by simp [isSurrogate]; omega
  rw [readString, unit?_control hc]
  simp only [Option.bind_eq_bind, Option.bind_some, hwhole, Char.ofNat_toNat]
  cases readString rest <;> rfl

theorem readString_plain {c : Char} (hquote : c ≠ '"') (hslash : c ≠ '\\') (hc : ¬ c.toNat < 32)
    (rest : List Char) : readString (c :: rest) = (readString rest).map (push c) := by
  rw [readString]
  · rw [if_neg hc]
    cases readString rest <;> rfl
  · exact hquote
  · exact fun _ _ _ _ _ h => absurd h hslash
  · exact fun _ _ h => absurd h hslash

theorem readString_escape (c : Char) (rest : List Char) :
    readString (escape c ++ rest) = (readString rest).map (push c) := by
  unfold escape
  split
  case isTrue h =>
    subst h
    exact readString_letter rfl rest
  split
  case isTrue h =>
    subst h
    exact readString_letter rfl rest
  split
  case isTrue h =>
    subst h
    exact readString_letter rfl rest
  split
  case isTrue h =>
    subst h
    exact readString_letter rfl rest
  split
  case isTrue h =>
    subst h
    exact readString_letter rfl rest
  split
  case isTrue h =>
    subst h
    exact readString_letter rfl rest
  split
  case isTrue h =>
    subst h
    exact readString_letter rfl rest
  split
  case isTrue h => exact readString_control h rest
  case isFalse hquote hslash _ _ _ _ _ hc => exact readString_plain hquote hslash hc rest

theorem readString_escapes (cs rest : List Char) :
    readString (cs.flatMap escape ++ '"' :: rest) = some (cs, rest) := by
  induction cs with
  | nil => rfl
  | cons c more ih =>
      rw [List.flatMap_cons, List.append_assoc, readString_escape, ih]
      rfl

/-! ### Numbers -/

/-- Text that does not go on with the number in front of it. -/
def EndsNumber (text : List Char) : Prop :=
  ∀ c ∈ text.head?, c.isDigit = false ∧ c ≠ '.' ∧ c ≠ 'e' ∧ c ≠ 'E'

theorem endsNumber_newline (level : Nat) (text : List Char) :
    EndsNumber (newline level ++ text) := by
  intro c hc
  obtain rfl := Option.some.inj hc
  decide

theorem readDigits_append {digits rest : List Char} (hne : digits ≠ [])
    (hdigits : ∀ c ∈ digits, c.isDigit = true) (hrest : EndsNumber rest) :
    readDigits (digits ++ rest) = some (digits, rest) := by
  have hstop : rest.takeWhile Char.isDigit = [] ∧ rest.dropWhile Char.isDigit = rest := by
    cases rest with
    | nil => exact ⟨rfl, rfl⟩
    | cons c more =>
        have hc : c.isDigit = false := (hrest c rfl).1
        simp [hc]
  have htake : (digits ++ rest).takeWhile Char.isDigit = digits := by
    rw [List.takeWhile_append_of_pos hdigits, hstop.1, List.append_nil]
  have hdrop : (digits ++ rest).dropWhile Char.isDigit = rest := by
    rw [List.dropWhile_append_of_pos hdigits, hstop.2]
  rw [readDigits, htake, hdrop, if_neg hne]

/-- No number is printed with a zero in front. -/
theorem head?_toDigits {n : Nat} (h : 0 < n) : (Nat.toDigits 10 n).head? ≠ some '0' := by
  induction n using Nat.strongRecOn with
  | ind n ih =>
      by_cases hsmall : n < 10
      · rw [Nat.toDigits_of_lt_base hsmall]
        have hdigit : ∀ k < 10, 0 < k → [Nat.digitChar k].head? ≠ some '0' := by decide
        exact hdigit n hsmall h
      · have hmore := ih (n / 10) (by omega) (by omega)
        rw [Nat.toDigits_of_base_le (by omega) (by omega), List.head?_append,
          List.head?_eq_some_head Nat.toDigits_ne_nil, Option.some_or,
          ← List.head?_eq_some_head Nat.toDigits_ne_nil]
        exact hmore

theorem readWhole_toDigits (n : Nat) {rest : List Char} (hrest : EndsNumber rest) :
    readWhole (Nat.toDigits 10 n ++ rest) = some (Nat.toDigits 10 n, rest) := by
  rcases Nat.eq_zero_or_pos n with rfl | hn
  · rfl
  · have hdigits : ∀ c ∈ Nat.toDigits 10 n, c.isDigit = true :=
      fun c hc => Nat.isDigit_of_mem_toDigits (by decide) (by decide) hc
    have hread := readDigits_append Nat.toDigits_ne_nil hdigits hrest
    have hhead := head?_toDigits hn
    cases hchars : Nat.toDigits 10 n with
    | nil => exact absurd hchars Nat.toDigits_ne_nil
    | cons c more =>
        rw [hchars] at hread hhead
        rw [List.cons_append] at hread ⊢
        rw [readWhole]
        · exact hread
        · intro tail heq
          exact hhead (congrArg some (List.cons.inj heq).1)

theorem readFraction_of_ends {text : List Char} (h : EndsNumber text) :
    readFraction text = some ([], text) := by
  cases text with
  | nil => rfl
  | cons c rest =>
      rw [readFraction]
      intro more heq
      exact (h c rfl).2.1 (List.cons.inj heq).1

theorem readExponent_of_ends {text : List Char} (h : EndsNumber text) :
    readExponent text = some (0, text) := by
  cases text with
  | nil => rfl
  | cons c rest =>
      obtain ⟨-, -, he, hE⟩ := h c rfl
      rw [readExponent]
      · intro more heq
        exact he (List.cons.inj heq).1
      · intro more heq
        exact hE (List.cons.inj heq).1

theorem readUnsigned_toDigits (n : Nat) {rest : List Char} (hrest : EndsNumber rest) :
    readUnsigned false (Nat.toDigits 10 n ++ rest) = some (.number false n 0, rest) := by
  have hvalue : ofDigits (Nat.toDigits 10 n) = n :=
    Nat.ofDigitChars_toDigits (by decide) (by decide)
  simp only [readUnsigned, readWhole_toDigits n hrest, readFraction_of_ends hrest,
    readExponent_of_ends hrest, Option.bind_eq_bind, Option.bind_some, List.append_nil, hvalue]
  rfl

theorem isDigit_of_toDigits {n : Nat} {c : Char} {more : List Char}
    (h : Nat.toDigits 10 n = c :: more) : c.isDigit = true := by
  have hmem : c ∈ Nat.toDigits 10 n := by simp [h]
  exact Nat.isDigit_of_mem_toDigits (by decide) (by decide) hmem

theorem ne_of_isDigit {c d : Char} (hc : c.isDigit = true) (hd : d.isDigit = false) : c ≠ d := by
  rintro rfl
  rw [hd] at hc
  cases hc

theorem isBlank_of_isDigit {c : Char} (hc : c.isDigit = true) : isBlank c = false := by
  simp [isBlank, ne_of_isDigit hc]

/-- The number at the front of a text: no other value begins with a digit. -/
theorem readValue_number (n depth : Nat) {rest : List Char} (hrest : EndsNumber rest) :
    readValue (depth + 1) (Nat.toDigits 10 n ++ rest) = some (.number false n 0, rest) := by
  have hread := readUnsigned_toDigits n hrest
  cases hchars : Nat.toDigits 10 n with
  | nil => exact absurd hchars Nat.toDigits_ne_nil
  | cons c more =>
      have hother {d : Char} (hd : d.isDigit = false) : c ≠ d :=
        ne_of_isDigit (isDigit_of_toDigits hchars) hd
      have hblank := isBlank_of_isDigit (isDigit_of_toDigits hchars)
      rw [hchars, List.cons_append] at hread
      rw [List.cons_append, readValue, skipBlanks_cons hblank]
      split
      case _ heq => exact absurd (List.cons.inj heq).1 (hother rfl)
      case _ heq => exact absurd (List.cons.inj heq).1 (hother rfl)
      case _ heq => exact absurd (List.cons.inj heq).1 (hother rfl)
      case _ heq => exact absurd (List.cons.inj heq).1 (hother rfl)
      case _ heq => exact absurd (List.cons.inj heq).1 (hother rfl)
      case _ heq => exact absurd (List.cons.inj heq).1 (hother rfl)
      rw [readNumber]
      · exact hread
      · intro tail heq
        exact hother rfl (List.cons.inj heq).1

/-! ### Values -/

theorem quoted_append (text : String) (rest : List Char) :
    quoted text ++ rest = '"' :: (text.toList.flatMap escape ++ '"' :: rest) := by
  simp [quoted]

/-- No value begins with a blank or with what closes a list. -/
theorem exists_render_eq_cons (v : Json) (level : Nat) :
    ∃ c tail, v.render level = c :: tail ∧ isBlank c = false ∧ c ≠ ']' := by
  cases v with
  | string text => exact ⟨'"', _, rfl, rfl, by decide⟩
  | number n =>
      cases hchars : Nat.toDigits 10 n with
      | nil => exact absurd hchars Nat.toDigits_ne_nil
      | cons c more =>
          have hdigit := isDigit_of_toDigits hchars
          exact ⟨c, more, hchars, isBlank_of_isDigit hdigit, fun h => by simp [h] at hdigit⟩
  | list items => cases items <;> exact ⟨'[', _, rfl, rfl, by decide⟩
  | object fields =>
      rcases fields with _ | ⟨⟨key, v⟩, more⟩ <;> exact ⟨'\x7b', _, rfl, rfl, by decide⟩

theorem endsNumber_renderItems (level low : Nat) (more : List Json) (rest : List Char) :
    EndsNumber (renderItems level more ++ (newline low ++ ']' :: rest)) := by
  cases more with
  | nil => exact endsNumber_newline low _
  | cons item more =>
      intro c hc
      obtain rfl := Option.some.inj hc
      decide

theorem endsNumber_renderFields (level low : Nat) (more : List (String × Json))
    (rest : List Char) :
    EndsNumber (renderFields level more ++ (newline low ++ '\x7d' :: rest)) := by
  rcases more with _ | ⟨⟨key, v⟩, more⟩
  · exact endsNumber_newline low _
  · intro c hc
    obtain rfl := Option.some.inj hc
    decide

mutual

/-- A printed value is read as that value, if what is behind it does not go on with a number.  The
induction is on how deep reading may go, which the length of the printed form bounds. -/
theorem readValue_render : (depth : Nat) → (v : Json) → (level : Nat) → (rest : List Char) →
    EndsNumber rest → (v.render level).length < depth →
      readValue depth (v.render level ++ rest) = some (v.value, rest)
  | depth + 1, string text, level, rest, _, _ => by
      rw [render, quoted_append, readValue, skipBlanks_cons rfl]
      simp only [readString_escapes, Option.bind_eq_bind, Option.bind_some, String.ofList_toList]
      rfl
  | depth + 1, number n, level, rest, hrest, _ => readValue_number n depth hrest
  | depth + 1, list [], level, rest, _, _ => rfl
  | depth + 1, list (item :: more), level, rest, _, hdepth => by
      have hitems := readItems_render depth item more (level + 1) level rest (by
        simp only [render, List.length_append, List.length_cons] at hdepth
        omega)
      obtain ⟨c, tail, hhead, hblank, hclose⟩ := exists_render_eq_cons item (level + 1)
      simp only [render, List.cons_append, List.append_assoc, List.nil_append]
      rw [readValue, skipBlanks_cons rfl]
      simp only [skipBlanks_newline]
      rw [hhead, List.cons_append] at hitems ⊢
      rw [skipBlanks_cons hblank]
      split
      case _ heq => exact absurd (List.cons.inj heq).1 hclose
      case _ => rw [hitems]; rfl
  | depth + 1, object [], level, rest, _, _ => rfl
  | depth + 1, object ((key, v) :: more), level, rest, _, hdepth => by
      have hfields := readFields_render depth key v more (level + 1) level rest (by
        simp only [render, List.length_append, List.length_cons] at hdepth
        omega)
      simp only [render, List.cons_append, List.append_assoc, List.nil_append]
      rw [readValue, skipBlanks_cons rfl]
      simp only [skipBlanks_newline]
      rw [quoted_append] at hfields ⊢
      rw [skipBlanks_cons rfl]
      split
      case _ heq => exact absurd (List.cons.inj heq).1 (by decide)
      case _ => rw [hfields]; rfl

theorem readItems_render : (depth : Nat) → (item : Json) → (more : List Json) →
    (level low : Nat) → (rest : List Char) →
    (item.render level).length + (renderItems level more).length + 1 < depth →
      readItems depth (item.render level ++
        (renderItems level more ++ (newline low ++ ']' :: rest))) =
          some (item.value :: values more, rest)
  | depth + 1, item, more, level, low, rest, hdepth => by
      have hitem := readValue_render depth item level
        (renderItems level more ++ (newline low ++ ']' :: rest))
        (endsNumber_renderItems level low more rest) (by omega)
      rw [readItems, hitem]
      cases more with
      | nil =>
          simp only [renderItems, List.nil_append, Option.bind_eq_bind, Option.bind_some,
            skipBlanks_newline]
          rfl
      | cons next more =>
          have hmore := readItems_render depth next more level low rest (by
            simp only [renderItems, List.length_append, List.length_cons] at hdepth
            omega)
          simp only [renderItems, List.cons_append, List.append_assoc, Option.bind_eq_bind,
            Option.bind_some, skipBlanks_cons (c := ',') rfl, readItems_newline, hmore]
          rfl

theorem readFields_render : (depth : Nat) → (key : String) → (v : Json) →
    (more : List (String × Json)) → (level low : Nat) → (rest : List Char) →
    (v.render level).length + (renderFields level more).length + 1 < depth →
      readFields depth (quoted key ++ ':' :: ' ' :: (v.render level ++
        (renderFields level more ++ (newline low ++ '\x7d' :: rest)))) =
          some ((key, v.value) :: fieldValues more, rest)
  | depth + 1, key, v, more, level, low, rest, hdepth => by
      have hv := readValue_render depth v level
        (renderFields level more ++ (newline low ++ '\x7d' :: rest))
        (endsNumber_renderFields level low more rest) (by omega)
      have hblank : ∀ text, readValue depth (' ' :: text) = readValue depth text :=
        fun text => readValue_blank depth rfl text
      rw [quoted_append, readFields, skipBlanks_cons rfl]
      simp only [readString_escapes, Option.bind_eq_bind, Option.bind_some,
        skipBlanks_cons (c := ':') rfl, hblank, hv, String.ofList_toList]
      cases more with
      | nil =>
          simp only [renderFields, List.nil_append, skipBlanks_newline]
          rfl
      | cons next more =>
          obtain ⟨key', v'⟩ := next
          have hmore := readFields_render depth key' v' more level low rest (by
            simp only [renderFields, List.length_append, List.length_cons] at hdepth
            omega)
          simp only [renderFields, List.cons_append, List.append_assoc,
            skipBlanks_cons (c := ',') rfl, readFields_newline, hmore, Option.bind_some]
          rfl

end

/-- What has been printed is read back. -/
theorem read?_print (v : Json) : read? v.print = some v.value := by
  have hread := readValue_render ((v.render 0).length + 1) v 0 []
    (fun c hc => by cases hc) (Nat.lt_succ_self _)
  rw [List.append_nil] at hread
  rw [read?, print, String.toList_ofList, hread]
  rfl

/-- A text with a comma too much, a control character in a string, or half a pair of code units is
no value. -/
example : (["[1,]", "\"\n\"", "\"\\ud800\""].map fun text => (read? text).isNone).all id := by
  decide +kernel

end Json
end AssetPress
