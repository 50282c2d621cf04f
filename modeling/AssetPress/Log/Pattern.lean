import AssetPress.Number.Digit
import AssetPress.Text.Letters

/-!
# Patterns

A filter may ask for events whose field has a value that a pattern describes.  Events are never
tried against a pattern here; what is decided is whether a text is a pattern at all
(`Pattern.fault?`).  The text is read from left to right: `Pattern.scan` keeps the flags in force,
the sequence being read and the sequences around it, and `Pattern.scanClass` does the same for the
bracketed classes of characters.  Only what can be decided without tables of characters is
accepted, so classes such as letters, and the change between small and large letters, are faults
unless the flags confine them to plain characters.  Main statement: `fault?_of_isPlain` (plain text
is a pattern).
-/

namespace AssetPress

/-- Why a pattern cannot be used. -/
inductive PatternFault where
  /-- It is malformed, or asks for characters that no table is there for. -/
  | malformed
  /-- It asks for the borders of words of any script. -/
  | wordBorder
  deriving DecidableEq, Repr

namespace Pattern

/-! ### Flags -/

/-- The flags in force: whether small and large letters are the same, whether characters are those
of any script rather than plain ones, and whether blanks are passed over. -/
structure Flags where
  ignoreCase : Bool
  anyScript : Bool
  spaced : Bool
  deriving DecidableEq, Repr

namespace Flags

/-- The flags at the beginning. -/
def standard : Flags := ⟨false, true, false⟩

/-- Whether a word of flags is well formed: known letters, each at most once, and at most one dash,
which is not the last. -/
def isWord (word : List Char) : Bool :=
  word.all (['i', 'm', 's', 'U', 'u', 'R', 'x', '-'].contains ·) && word.Nodup &&
    word.getLast? != some '-'

/-- A flag after a word of flags: those before the dash are set, those behind it are taken back. -/
def after (word : List Char) (flag : Char) (now : Bool) : Bool :=
  let (on, off) := word.span (· ≠ '-')
  on.contains flag || (now && !off.contains flag)

/-- The flags after a word of flags. -/
def set (f : Flags) (word : List Char) : Flags :=
  ⟨after word 'i' f.ignoreCase, after word 'u' f.anyScript, after word 'x' f.spaced⟩

/-- Passes over blanks and over comments, which run from a hash to the end of the line; `inComment`
says that one is being read. -/
def skipBlanks (inComment : Bool) : List Char → List Char
  | [] => []
  | c :: rest =>
      if inComment then skipBlanks (c ≠ '\n') rest
      else if isBlankChar c then skipBlanks false rest
      else if c = '#' then skipBlanks true rest
      else c :: rest

/-- Passes over blanks where the flags ask for it. -/
def skip (f : Flags) (text : List Char) : List Char :=
  if f.spaced then skipBlanks false text else text

/-- The character that decides what a dash stands for: the next one, or where blanks are passed
over, the next one that is no blank, behind a hash if there is one. -/
def peek (f : Flags) (text : List Char) : Option Char :=
  if f.spaced then
    match text.dropWhile isBlankChar with
    | '#' :: rest => (rest.dropWhile isBlankChar).head?
    | rest => rest.head?
  else text.head?

/-- Whether a literal character can be matched.  Characters of any script have no small or large
letters here, and `byte` says that a single byte was asked for, which must be plain unless it stands
for a character. -/
def admits (f : Flags) (c : Char) (byte : Bool) : Bool :=
  if f.anyScript then !f.ignoreCase else !byte || c.toNat < 0x80

/-- Whether a literal character can be matched within a class. -/
def admitsInClass (f : Flags) (c : Char) : Bool :=
  if f.anyScript then !f.ignoreCase else c.toNat < 0x80

/-- Whether all but some characters can be matched. -/
def admitsNegation (f : Flags) (negated : Bool) : Bool := f.anyScript || !negated

end Flags

/-! ### Escapes -/

inductive Escape where
  /-- A character, perhaps given as a byte. -/
  | literal (c : Char) (byte : Bool)
  /-- Digits, blanks or the characters of words, or all others. -/
  | kind (negated : Bool)
  /-- A place: a border of a word or of the text. -/
  | border (word : Bool)
  deriving DecidableEq, Repr

def hexDigits? (f : Flags) : Nat → Nat → List Char → Option (Nat × List Char)
  | 0, value, text => some (value, f.skip text)
  | count + 1, value, text =>
      match f.skip text with
      | [] => none
      | c :: rest => (hexDigit? c).bind fun d => hexDigits? f count (16 * value + d) rest

/-- Reads a character that is given by its number. -/
def numbered? (f : Flags) (count : Nat) (byte : Bool) (text : List Char) :
    Option (Escape × List Char) :=
  (hexDigits? f count 0 text).bind fun (value, rest) =>
    if value.isValidChar then some (.literal (Char.ofNat value) byte, rest) else none

/-- The characters that letters stand for behind the escape. -/
def named? : Char → Option Char
  | 'a' => some '\x07'
  | 'f' => some '\x0c'
  | 't' => some '\t'
  | 'n' => some '\n'
  | 'r' => some '\r'
  | 'v' => some '\x0b'
  | _ => none

/-- Reads an escape, behind its mark. -/
def escape? (f : Flags) : List Char → Option (Escape × List Char)
  | [] => none
  | c :: rest =>
      if c = 'x' then numbered? f 2 true rest
      else if c = 'u' then numbered? f 4 false rest
      else if c = 'U' then numbered? f 8 false rest
      else if ['d', 's', 'w'].contains c then some (.kind false, rest)
      else if ['D', 'S', 'W'].contains c then some (.kind true, rest)
      else if ['b', 'B', '<', '>'].contains c then some (.border true, rest)
      else if ['A', 'z'].contains c then some (.border false, rest)
      else if c.toNat < 0x80 ∧ ¬ c.isAlphanum then some (.literal c false, rest)
      else (named? c).map fun literal => (.literal literal false, rest)

/-! ### Sequences -/

/-- A sequence of parts that is being read: how deep the alternatives before it go, how many parts
there are, how deep they go, and how deep the last goes if it can be repeated. -/
structure Sequence where
  before : Option Nat
  parts : Nat
  depth : Nat
  last : Option Nat
  deriving DecidableEq, Repr

namespace Sequence

/-- An empty sequence behind alternatives of some depth. -/
def behind (before : Option Nat) : Sequence := ⟨before, 0, 0, none⟩

/-- Adds a part of some depth. -/
def add (s : Sequence) (depth : Nat) : Sequence :=
  { s with parts := s.parts + 1, depth := max s.depth depth, last := some depth }

/-- Adds flags, which cannot be repeated. -/
def addFlags (s : Sequence) : Sequence := { s with parts := s.parts + 1, last := none }

def repeated? (s : Sequence) : Option Sequence :=
  s.last.map fun d => { s with depth := max s.depth (d + 1), last := some (d + 1) }

/-- How deep the sequence goes; a single part is not wrapped. -/
def height (s : Sequence) : Nat := if s.parts ≤ 1 then s.depth else s.depth + 1

/-- How deep the sequence goes together with the alternatives before it. -/
def total (s : Sequence) : Nat :=
  match s.before with
  | none => s.height
  | some before => max before s.height + 1

def alternative (s : Sequence) : Sequence := behind (some (max (s.before.getD 0) s.height))

/-- The right side of an operator between classes. -/
def operand (s : Sequence) : Sequence := behind (some s.total)

end Sequence

def depthLimit : Nat := 250

/-! ### Classes -/

/-- The names of classes of plain characters. -/
def classNames : List String :=
  ["alnum", "alpha", "ascii", "blank", "cntrl", "digit", "graph", "lower", "print", "punct",
    "space", "upper", "word", "xdigit"]

/-- Reads a class that is given by its name, behind the bracket. -/
def namedClass? (text : List Char) : Option (Bool × List Char) :=
  match text with
  | ':' :: text =>
      let negated := text.head? = some '^'
      let (name, rest) := (if negated then text.tail else text).span (· ≠ ':')
      match rest with
      | ':' :: ']' :: rest =>
          if classNames.contains (String.ofList name) then some (negated, rest) else none
      | _ => none
  | _ => none

/-- Reads a member of a class. -/
def member? (f : Flags) : List Char → Option (Escape × List Char)
  | [] => none
  | '\\' :: rest => escape? f rest
  | c :: rest => some (.literal c false, rest)

/-- Whether a class can have a member. -/
def admitsMember (f : Flags) : Escape → Bool
  | .literal c _ => f.admitsInClass c
  | .kind negated => !f.anyScript && !negated
  | .border _ => false

/-- Reads a member of a class or a range of them. -/
def members? (f : Flags) (text : List Char) : Option (List Char) := do
  let (low, rest) ← member? f text
  let rest := f.skip rest
  match rest with
  | '-' :: behind =>
      if f.peek behind = some ']' ∨ f.peek behind = some '-' then
        if admitsMember f low then some rest else none
      else
        let (high, rest) ← member? f (f.skip behind)
        match low, high with
        | .literal low _, .literal high _ =>
            if f.admitsInClass low ∧ f.admitsInClass high ∧ low ≤ high then some rest else none
        | _, _ => none
  | _ => if admitsMember f low then some rest else none

/-- Reads the beginning of a class, behind the bracket. -/
def openClass? (f : Flags) (text : List Char) : Option (List Char) :=
  match f.skip text with
  | '^' :: rest => if f.admitsNegation true then some rest else none
  | rest => some rest

/-- Reads a class up to its end.  The class is `level`, within the classes `outer`; `fresh` says
that nothing but dashes has been read of it.  The result is how deep it goes. -/
def scanClass (f : Flags) :
    Nat → Bool → Sequence → List Sequence → List Char → Option (Nat × List Char)
  | 0, _, _, _, _ => none
  | fuel + 1, fresh, level, outer, text =>
      match f.skip text with
      | [] => none
      | c :: rest =>
          if fresh ∧ (c = '-' ∨ (c = ']' ∧ level.parts = 0)) then
            if f.admitsInClass c then scanClass f fuel (c = '-') (level.add 0) outer rest else none
          else if c = '[' then
            match namedClass? rest with
            | some (negated, rest) =>
                if f.admitsNegation negated ∧ f.admitsInClass 'a' then
                  scanClass f fuel false (level.add 0) outer rest
                else none
            | none => do
                let rest ← openClass? f rest
                scanClass f fuel true (.behind none) (level :: outer) rest
          else if c = ']' then
            match outer with
            | [] => some (level.total + 1, rest)
            | parent :: outer => scanClass f fuel false (parent.add (level.total + 1)) outer rest
          else if (c = '&' ∨ c = '-' ∨ c = '~') ∧ rest.head? = some c then
            scanClass f fuel false level.operand outer rest.tail
          else do
            let rest ← members? f (c :: rest)
            scanClass f fuel false (level.add 0) outer rest

/-! ### Patterns -/

/-- What has been read of a pattern: the flags in force, the sequence being read, the groups around
it with the flags outside, the names of groups, and whether a border of words was asked for. -/
structure Reading where
  flags : Flags
  sequence : Sequence
  outer : List (Flags × Sequence)
  names : List (List Char)
  wordBorder : Bool
  deriving Repr

namespace Reading

/-- Nothing has been read. -/
def start : Reading := ⟨.standard, .behind none, [], [], false⟩

/-- Adds a part. -/
def add (r : Reading) (depth : Nat) : Reading := { r with sequence := r.sequence.add depth }

/-- Begins a group in which some flags are in force. -/
def enter (r : Reading) (inside : Flags) : Reading :=
  { r with
    flags := inside
    sequence := .behind none
    outer := (r.flags, r.sequence) :: r.outer }

def leave? (r : Reading) : Option Reading :=
  match r.outer with
  | [] => none
  | (flags, sequence) :: outer =>
      some { r with flags, sequence := sequence.add (r.sequence.total + 1), outer }

end Reading

/-- Whether a name may be given to a group. -/
def isGroupName : List Char → Bool
  | [] => false
  | c :: rest =>
      (c == '_' || isLetter c) &&
        rest.all fun c => ['_', '.', '[', ']'].contains c || isLetterOrDigit c

/-- Reads the beginning of a group that has a name, behind the angle. -/
def openNamed? (r : Reading) (text : List Char) : Option (Reading × List Char) :=
  let (name, rest) := text.span (· ≠ '>')
  if rest ≠ [] ∧ isGroupName name ∧ ¬ r.names.contains name then
    some ({ r.enter r.flags with names := name :: r.names }, rest.tail)
  else none

/-- Reads the beginning of a group, or flags that hold up to the end of the group around them,
behind the parenthesis. -/
def openGroup? (r : Reading) (text : List Char) : Option (Reading × List Char) :=
  match r.flags.skip text with
  | '?' :: 'P' :: '<' :: rest => openNamed? r rest
  | '?' :: '<' :: rest => openNamed? r rest
  | '?' :: rest =>
      let (word, rest) := rest.span fun c => c ≠ ':' ∧ c ≠ ')'
      if Flags.isWord word then
        match rest with
        | ':' :: rest => some (r.enter (r.flags.set word), rest)
        | ')' :: rest =>
            if word = [] then none
            else some ({ r with flags := r.flags.set word, sequence := r.sequence.addFlags }, rest)
        | _ => none
      else none
  | rest => some (r.enter r.flags, rest)

/-- Reads an escape outside of classes, behind its mark. -/
def scanEscape? (r : Reading) (text : List Char) : Option (Reading × List Char) := do
  let (escape, rest) ← escape? r.flags text
  match escape with
  | .literal c byte => if r.flags.admits c byte then some (r.add 0, rest) else none
  | .kind negated => if !r.flags.anyScript && !negated then some (r.add 0, rest) else none
  | .border word =>
      some ({ r.add 0 with wordBorder := r.wordBorder || (word && r.flags.anyScript) }, rest)

/-- Reads a repetition, behind its mark; a question mark that follows belongs to it. -/
def scanRepeated? (r : Reading) (text : List Char) : Option (Reading × List Char) :=
  r.sequence.repeated?.map fun sequence =>
    ({ r with sequence }, if text.head? = some '?' then text.tail else text)

/-- Reads the next part of a pattern that begins with `c`.  Counts of repetitions are never
complete, for the brace that ends one ends the field as well. -/
def scanPart? (r : Reading) (c : Char) (rest : List Char) : Option (Reading × List Char) :=
  if c = '(' then openGroup? r rest
  else if c = ')' then r.leave?.map (·, rest)
  else if c = '|' then some ({ r with sequence := r.sequence.alternative }, rest)
  else if c = '[' then do
    let inside ← openClass? r.flags rest
    let (depth, rest) ← scanClass r.flags (rest.length + 1) true (.behind none) [] inside
    return (r.add depth, rest)
  else if c = '?' ∨ c = '*' ∨ c = '+' then scanRepeated? r rest
  else if c = '\x7b' then none
  else if c = '\\' then scanEscape? r rest
  else if c = '.' then if r.flags.anyScript then some (r.add 0, rest) else none
  else if c = '^' ∨ c = '$' ∨ r.flags.admits c false then some (r.add 0, rest)
  else none

def scan : Nat → Reading → List Char → Option Reading
  | 0, _, _ => none
  | fuel + 1, r, text =>
      match r.flags.skip text with
      | [] => if r.outer = [] ∧ r.sequence.total ≤ depthLimit then some r else none
      | c :: rest => do
          let (r, rest) ← scanPart? r c rest
          scan fuel r rest

/-- Why a text is no pattern that can be used, if so. -/
def fault? (text : List Char) : Option PatternFault :=
  match scan (text.length + 1) .start text with
  | none => some .malformed
  | some r => if r.wordBorder then some .wordBorder else none

/-! ### Laws -/

/-- Whether a character is nothing but itself in a pattern. -/
def isPlain (c : Char) : Bool := c.isAlphanum || c == ' ' || c == '-' || c == '_'

theorem scanPart?_of_isPlain {r : Reading} {c : Char} (hflags : r.flags = .standard)
    (hc : isPlain c = true) (rest : List Char) : scanPart? r c rest = some (r.add 0, rest) := by
  have hne (d : Char) (hd : isPlain d = false) : c ≠ d := by
    rintro rfl
    rw [hc] at hd
    exact absurd hd (by decide)
  have hadmits : r.flags.admits c false = true := by rw [hflags]; rfl
  unfold scanPart?
  rw [if_neg (hne '(' (by decide)), if_neg (hne ')' (by decide)), if_neg (hne '|' (by decide)),
    if_neg (hne '[' (by decide)), if_neg (by
      rintro (h | h | h)
      · exact hne '?' (by decide) h
      · exact hne '*' (by decide) h
      · exact hne '+' (by decide) h),
    if_neg (hne _ (by decide)), if_neg (hne '\\' (by decide)), if_neg (hne '.' (by decide)),
    if_pos (Or.inr (Or.inr hadmits))]

/-- Nothing but plain characters has been read. -/
structure Reading.IsFlat (r : Reading) : Prop where
  flags : r.flags = .standard
  outer : r.outer = []
  before : r.sequence.before = none
  depth : r.sequence.depth = 0
  wordBorder : r.wordBorder = false

theorem Reading.IsFlat.add {r : Reading} (h : r.IsFlat) : (r.add 0).IsFlat :=
  ⟨h.flags, h.outer, h.before, congrArg (max · 0) h.depth, h.wordBorder⟩

theorem Reading.IsFlat.total_le {r : Reading} (h : r.IsFlat) : r.sequence.total ≤ depthLimit := by
  have hheight : r.sequence.height ≤ 1 := by
    unfold Sequence.height
    rw [h.depth]
    split
    · exact Nat.zero_le _
    · exact Nat.le_refl _
  unfold Sequence.total
  rw [h.before]
  exact Nat.le_trans hheight (by decide)

theorem scan_of_isPlain {text : List Char} (h : ∀ c ∈ text, isPlain c = true) :
    ∀ {r : Reading} {fuel : Nat}, r.IsFlat → text.length < fuel →
      ∃ s, scan fuel r text = some s ∧ s.wordBorder = false := by
  induction text with
  | nil =>
      intro r fuel hr hfuel
      obtain ⟨fuel, rfl⟩ := Nat.exists_eq_succ_of_ne_zero (Nat.ne_of_gt hfuel)
      refine ⟨r, ?_, hr.wordBorder⟩
      unfold scan
      rw [hr.flags]
      exact if_pos ⟨hr.outer, hr.total_le⟩
  | cons c rest ih =>
      intro r fuel hr hfuel
      obtain ⟨fuel, rfl⟩ := Nat.exists_eq_succ_of_ne_zero (Nat.ne_of_gt (Nat.zero_lt_of_lt hfuel))
      obtain ⟨s, hs, hborder⟩ :=
        ih (fun d hd => h d (List.mem_cons_of_mem _ hd)) hr.add (Nat.lt_of_succ_lt_succ hfuel)
      refine ⟨s, ?_, hborder⟩
      have hskip : r.flags.skip (c :: rest) = c :: rest := by rw [hr.flags]; rfl
      unfold scan
      rw [hskip]
      show (scanPart? r c rest).bind _ = _
      rw [scanPart?_of_isPlain hr.flags (h c List.mem_cons_self)]
      exact hs

theorem fault?_of_isPlain {text : List Char} (h : ∀ c ∈ text, isPlain c = true) :
    fault? text = none := by
  have hstart : Reading.start.IsFlat := ⟨rfl, rfl, rfl, rfl, rfl⟩
  obtain ⟨s, hs, hborder⟩ := scan_of_isPlain h hstart (Nat.lt_succ_self _)
  unfold fault?
  rw [hs]
  exact if_neg (by rw [hborder]; decide)

end Pattern
end AssetPress
