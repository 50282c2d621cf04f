import AssetPress.Script.Numeral

/-!
# Tokens of scripts

A script is a row of words, numbers, strings, patterns, texts between back-quotes and marks; blanks
and comments between them vanish, but a token remembers whether a line ended before it.  Tokens are
read one at a time (`Token.next`), for what a slash is depends on what is expected: it begins a
pattern where an operand may stand, and is an operator elsewhere.  Where the text cannot be read
on, the token is a broken one that holds the rest of it.  Main statement: `Token.text_append_stop`,
so that a token is the text between the places where it begins and ends.
-/

namespace AssetPress
namespace Script

/-! ### Between tokens -/

def isLineEnd (c : Char) : Bool := c == '\n'

/-- Characters between tokens that end no line. -/
def isBlank (c : Char) : Bool :=
  c == ' ' || c == '\t' || c == '\r' || c == '\x0b' || c == '\x0c'

/-- What is being passed over in front of a token. -/
inductive Gap where
  | blank
  /-- A slash that may begin a comment, with the text from it on. -/
  | slash (text : List Char)
  | lineComment
  /-- A block comment, with the text behind its opening. -/
  | blockComment (inside : List Char)
  /-- A block comment whose last character is a star. -/
  | blockStar (inside : List Char)
  deriving DecidableEq, Repr

/-- Whether a line has ended in front of the next token, and the text from that token on; or the
inside of a comment without its end.  A comment up to the end of its line counts as a line end,
line ends inside a block comment do not. -/
def Gap.pass (line : Bool) : Gap → List Char → Bool × Except (List Char) (List Char)
  | blank, [] => (line, .ok [])
  | slash text, [] => (line, .ok text)
  | lineComment, [] => (line, .ok [])
  | blockComment inside, [] => (line, .error inside)
  | blockStar inside, [] => (line, .error inside)
  | blank, c :: rest =>
      if isBlank c then pass line blank rest
      else if isLineEnd c then pass true blank rest
      else if c = '/' then pass line (slash (c :: rest)) rest
      else (line, .ok (c :: rest))
  | slash text, c :: rest =>
      if c = '/' then pass true lineComment rest
      else if c = '*' then pass line (blockComment rest) rest
      else (line, .ok text)
  | lineComment, c :: rest => pass line (if isLineEnd c then blank else lineComment) rest
  | blockComment inside, c :: rest =>
      pass line (if c = '*' then blockStar inside else blockComment inside) rest
  | blockStar inside, c :: rest =>
      pass line
        (if c = '/' then blank else if c = '*' then blockStar inside else blockComment inside) rest

/-! ### Lexemes -/

/-- A part of a script: what it is, how it is written and what stands behind it. -/
structure Lexeme where
  kind : Kind
  text : List Char
  stop : List Char
  deriving DecidableEq, Repr

namespace Lexeme

/-- A text that cannot be read on. -/
def broken (why : Break) (rest : List Char) : Lexeme := ⟨.broken why, rest, []⟩

/-- A text that ends behind a backslash, or inside something else. -/
def unfinished (escaped : Bool) : Lexeme := broken .unexpectedEnd (if escaped then ['\\'] else [])

/-- A keyword, which ends at the first character of which none could be made, or a name. -/
def word (text : List Char) : Lexeme :=
  let plain := text.takeWhile isPlainPart
  let rest := text.dropWhile isPlainPart
  match keyword? plain with
  | some k => ⟨.keyword k, plain, rest⟩
  | none => ⟨.name, plain ++ rest.takeWhile isWordPart, rest.dropWhile isWordPart⟩

def privateMember (rest : List Char) : Lexeme :=
  match rest with
  | [] => unfinished false
  | c :: more =>
      if isWordStart c then
        ⟨.privateName, '#' :: c :: more.takeWhile isWordPart, more.dropWhile isWordPart⟩
      else broken .namelessMember rest

def numeral (first : Char) (rest : List Char) : Lexeme :=
  match (Numeral.ofFirst first).split rest with
  | (_, .mark, []) => unfinished false
  | (more, .big, stop) => ⟨.bigNumber, first :: more, stop⟩
  | (more, _, stop) => ⟨.number, first :: more, stop⟩

/-- A string; `read` has been read of it, in reverse. -/
def string (quote : Char) (read : List Char) (escaped : Bool) : List Char → Lexeme
  | [] => unfinished escaped
  | c :: rest =>
      if escaped then string quote (c :: read) false rest
      else if c = quote then ⟨.string, (c :: read).reverse, rest⟩
      else if isLineEnd c then broken .lineEndInString (c :: rest)
      else string quote (c :: read) (c == '\\') rest

/-- A part of a template, up to a back-quote or the beginning of an expression; `dollar` behind a
dollar sign. -/
def template (read : List Char) (escaped dollar : Bool) : List Char → Lexeme
  | [] => unfinished escaped
  | c :: rest =>
      if escaped then template (c :: read) false false rest
      else if c = backQuote then ⟨.templatePart true, (c :: read).reverse, rest⟩
      else if dollar && c == '\x7b' then ⟨.templatePart false, (c :: read).reverse, rest⟩
      else template (c :: read) (c == '\\') (c == '$') rest

/-- A pattern with the letters behind it; `inClass` between brackets. -/
def pattern (read : List Char) (inClass escaped : Bool) : List Char → Lexeme
  | [] => unfinished false
  | c :: rest =>
      if isLineEnd c then broken .lineEndInPattern rest
      else if escaped then pattern (c :: read) inClass false rest
      else if c = '/' && !inClass then
        ⟨.pattern, (c :: read).reverse ++ rest.takeWhile isWordPart, rest.dropWhile isWordPart⟩
      else
        let inClass := if c = '[' then true else if c = ']' then false else inClass
        pattern (c :: read) inClass (c == '\\') rest

def mark (text : List Char) : Lexeme :=
  match mark? text with
  | some m => ⟨.mark m, text.take m.length, text.drop m.length⟩
  | none => broken .notFound text

/-- What stands at the beginning of a text, where an operand is expected or not. -/
def first (operand : Bool) (text : List Char) : Lexeme :=
  match text with
  | [] => ⟨.endOfText, [], []⟩
  | c :: rest =>
      if isWordStart c then word text
      else if c.isDigit then numeral c rest
      else if c = '.' && (rest.head?.any Char.isDigit) then numeral c rest
      else if c = '\'' || c = '"' then string c [c] false rest
      else if c = backQuote then template [c] false false rest
      else if c = '#' then privateMember rest
      else if c = '/' && operand then pattern [c] false false rest
      else mark text

end Lexeme

/-! ### Tokens -/

/-- A lexeme in a script: the script from it on, and whether a line ended before it. -/
structure Token extends Lexeme where
  start : List Char
  afterLineEnd : Bool
  deriving DecidableEq, Repr

namespace Token

/-- The first token of a text, where no operand is expected. -/
def next (text : List Char) : Token :=
  match Gap.blank.pass false text with
  | (line, .ok start) => ⟨Lexeme.first false start, start, line⟩
  | (line, .error inside) => ⟨.broken .notFound inside, [], line⟩

def asOperand (t : Token) : Token :=
  if t.kind = .mark "/" ∨ t.kind = .mark "/=" then
    ⟨Lexeme.first true t.start, t.start, t.afterLineEnd⟩
  else t

def nextPart (text : List Char) : Token := ⟨Lexeme.template [] false false text, text, false⟩

/-- Whether a statement may end before the token without a semicolon. -/
def endsStatement (t : Token) : Bool :=
  match t.kind with
  | .broken _ => false
  | .mark "\x7d" => true
  | .endOfText => true
  | _ => t.afterLineEnd

end Token

/-! ### Laws -/

def Kind.isBroken : Kind → Bool
  | broken _ => true
  | _ => false

namespace Lexeme

theorem text_append_stop_string {quote : Char} {read : List Char} {escaped : Bool}
    {text : List Char} (h : (string quote read escaped text).kind.isBroken = false) :
    (string quote read escaped text).text ++ (string quote read escaped text).stop =
      read.reverse ++ text := by
  fun_induction string quote read escaped text with
  | case1 => cases h
  | case2 =>
      rename_i ih
      exact (ih h).trans (by simp)
  | case3 => simp
  | case4 => cases h
  | case5 =>
      rename_i ih
      exact (ih h).trans (by simp)

theorem text_append_stop_template {read : List Char} {escaped dollar : Bool}
    {text : List Char} (h : (template read escaped dollar text).kind.isBroken = false) :
    (template read escaped dollar text).text ++ (template read escaped dollar text).stop =
      read.reverse ++ text := by
  fun_induction template read escaped dollar text with
  | case1 => cases h
  | case2 =>
      rename_i ih
      exact (ih h).trans (by simp)
  | case3 => simp
  | case4 => simp
  | case5 =>
      rename_i ih
      exact (ih h).trans (by simp)

theorem text_append_stop_pattern {read : List Char} {inClass escaped : Bool}
    {text : List Char} (h : (pattern read inClass escaped text).kind.isBroken = false) :
    (pattern read inClass escaped text).text ++ (pattern read inClass escaped text).stop =
      read.reverse ++ text := by
  fun_induction pattern read inClass escaped text with
  | case1 => cases h
  | case2 => cases h
  | case3 =>
      rename_i ih
      exact (ih h).trans (by simp)
  | case4 => simp [List.takeWhile_append_dropWhile]
  | case5 =>
      rename_i ih
      exact (ih h).trans (by simp)

theorem text_append_stop_numeral {c : Char} {rest : List Char}
    (h : (numeral c rest).kind.isBroken = false) :
    (numeral c rest).text ++ (numeral c rest).stop = c :: rest := by
  have hsplit := Numeral.split_append (Numeral.ofFirst c) rest
  unfold numeral at h ⊢
  split at h
  · cases h
  · rename_i heq
    rw [heq] at hsplit
    exact congrArg (c :: ·) hsplit
  · rename_i heq
    rw [heq] at hsplit
    exact congrArg (c :: ·) hsplit

theorem text_append_stop_word (text : List Char) : (word text).text ++ (word text).stop = text := by
  unfold word
  dsimp only
  split
  · exact List.takeWhile_append_dropWhile
  · simp [List.takeWhile_append_dropWhile]

theorem text_append_stop_privateMember {rest : List Char}
    (h : (privateMember rest).kind.isBroken = false) :
    (privateMember rest).text ++ (privateMember rest).stop = '#' :: rest := by
  revert h
  unfold privateMember
  split
  · exact nofun
  · split
    · intro _
      simp [List.takeWhile_append_dropWhile]
    · exact nofun

theorem text_append_stop_mark {text : List Char} (h : (mark text).kind.isBroken = false) :
    (mark text).text ++ (mark text).stop = text := by
  revert h
  unfold mark
  split
  · exact fun _ => List.take_append_drop _ _
  · exact nofun

theorem text_append_stop_first {operand : Bool} {text : List Char}
    (h : (first operand text).kind.isBroken = false) :
    (first operand text).text ++ (first operand text).stop = text := by
  cases text with
  | nil => rfl
  | cons c rest =>
      revert h
      unfold first
      dsimp only
      split
      · exact fun _ => text_append_stop_word _
      split
      · exact text_append_stop_numeral
      split
      · exact text_append_stop_numeral
      split
      · exact text_append_stop_string
      split
      · exact text_append_stop_template
      split
      · rename_i hash
        exact hash ▸ text_append_stop_privateMember
      split
      · exact text_append_stop_pattern
      · exact text_append_stop_mark

end Lexeme

/-- A token that is no broken one is the text between where it begins and where it ends. -/
theorem Token.text_append_stop {text : List Char} (h : (Token.next text).kind.isBroken = false) :
    (Token.next text).text ++ (Token.next text).stop = (Token.next text).start := by
  revert h
  unfold Token.next
  split
  · exact Lexeme.text_append_stop_first
  · exact nofun

end Script
end AssetPress
