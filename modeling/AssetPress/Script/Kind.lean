/-!
# Kinds of tokens

What the words, numbers, strings, patterns and marks of a script are, and what messages call them.
A word is a keyword if it is one of a fixed list; some keywords may be names as well.  A mark is
one of a fixed list of operators and brackets.
-/

namespace AssetPress
namespace Script

/-! ### Kinds -/

/-- Why a text is no row of tokens. -/
inductive Break where
  /-- A character that begins no token, or a comment without its end. -/
  | notFound
  /-- A line end inside a string. -/
  | lineEndInString
  /-- A line end inside a pattern. -/
  | lineEndInPattern
  /-- The end of the text inside a string, a pattern or a number. -/
  | unexpectedEnd
  /-- A private member without a name. -/
  | namelessMember
  deriving DecidableEq, Repr

/-- What a token is. -/
inductive Kind where
  | name
  /-- A name behind a hash. -/
  | privateName
  | number
  /-- A whole number of any size, marked by a letter behind it. -/
  | bigNumber
  | string
  /-- A regular expression between slashes. -/
  | pattern
  /-- A part of a text between back-quotes; the last part ends at a back-quote, the others at the
  beginning of an expression. -/
  | templatePart (last : Bool)
  /-- A word with a meaning of its own. -/
  | keyword (word : String)
  | mark (mark : String)
  | broken (why : Break)
  | endOfText
  deriving DecidableEq, Repr

/-! ### Words -/

/-- The words with a meaning of their own that may be names as well. -/
def freeKeywords : List String :=
  ["as", "async", "await", "constructor", "from", "get", "let", "of", "set", "static", "yield"]

/-- The words with a meaning of their own that are values. -/
def valueKeywords : List String := ["false", "null", "super", "this", "true"]

/-- The words with a meaning of their own. -/
def keywords : List String :=
  freeKeywords ++ valueKeywords ++
    ["break", "case", "catch", "class", "const", "continue", "debugger", "default", "delete", "do",
      "else", "enum", "export", "extends", "finally", "for", "function", "if", "import", "in",
      "instanceof", "new", "return", "switch", "throw", "try", "typeof", "var", "void", "while",
      "with"]

def longestKeyword : Nat := 11

/-- The keyword that a word is, if it is one. -/
def keyword? (word : List Char) : Option String :=
  if longestKeyword < word.length then none
  else keywords.find? (· == String.ofList word)

def wordKind (word : List Char) : Kind :=
  match keyword? word with
  | some k => .keyword k
  | none => .name

/-- Characters with which keywords could begin. -/
def isPlainStart (c : Char) : Bool := c.isAlpha || c == '_' || c == '$'

/-- Characters of which keywords could be made. -/
def isPlainPart (c : Char) : Bool := isPlainStart c || c.isDigit

def isWordStart (c : Char) : Bool := isPlainStart c || 128 ≤ c.toNat

/-- Characters that continue a word. -/
def isWordPart (c : Char) : Bool := isWordStart c || c.isDigit

def Kind.isWord : Kind → Bool
  | name => true
  | keyword _ => true
  | _ => false

def Kind.isName : Kind → Bool
  | name => true
  | keyword word => freeKeywords.contains word
  | _ => false

/-! ### Marks -/

def marks : List (String × String) :=
  [("&", "Ampersand"), ("&&", "AmpersandAmpersand"), ("&&=", "AmpersandAmpersandEquals"),
    ("&=", "AmpersandEquals"), ("*", "Asterisk"), ("**", "AsteriskAsterisk"),
    ("**=", "AsteriskAsteriskEquals"), ("*=", "AsteriskEquals"), ("|", "Bar"), ("||", "BarBar"),
    ("||=", "BarBarEquals"), ("|=", "BarEquals"), ("\x7d", "BraceClose"), ("\x7b", "BraceOpen"),
    ("]", "BracketClose"), ("[", "BracketOpen"), ("^", "Caret"), ("^=", "CaretEquals"),
    ("<", "ChevronLeft"), ("<<", "ChevronLeftChevronLeft"),
    ("<<=", "ChevronLeftChevronLeftEquals"), ("<=", "ChevronLeftEquals"), (">", "ChevronRight"),
    (">>", "ChevronRightChevronRight"), (">>>", "ChevronRightChevronRightChevronRight"),
    (">>>=", "ChevronRightChevronRightChevronRightEquals"),
    (">>=", "ChevronRightChevronRightEquals"), (">=", "ChevronRightEquals"), (":", "Colon"),
    (",", "Comma"), (".", "Dot"), ("...", "DotDotDot"), ("=", "Equals"),
    ("=>", "EqualsChevronRight"), ("==", "EqualsEquals"), ("===", "EqualsEqualsEquals"),
    ("!", "Exclamation"), ("!=", "ExclamationEquals"), ("!==", "ExclamationEqualsEquals"),
    ("-", "Hyphen"), ("-=", "HyphenEquals"), ("--", "HyphenHyphen"), (")", "ParenthesisClose"),
    ("(", "ParenthesisOpen"), ("%", "Percent"), ("%=", "PercentEquals"), ("+", "Plus"),
    ("+=", "PlusEquals"), ("++", "PlusPlus"), ("?", "Question"), ("?.", "QuestionDot"),
    ("?.[", "QuestionDotBracketOpen"), ("?.(", "QuestionDotParenthesisOpen"),
    ("??", "QuestionQuestion"), ("??=", "QuestionQuestionEquals"), (";", "Semicolon"),
    ("/", "Slash"), ("/=", "SlashEquals"), ("~", "Tilde")]

/-- Characters that are a mark with which no longer one begins. -/
def isLoneMark (c : Char) : Bool :=
  match c with
  | '(' | ')' | '[' | ']' | '\x7b' | '\x7d' | ';' | ',' | ':' | '~' => true
  | _ => false

def longestMark : Nat := 4

/-- The mark around texts with expressions in them. -/
def backQuote : Char := Char.ofNat 96

/-- The longest mark of at most `count` characters with which a text begins. -/
def longestMarkUpTo? (text : List Char) : (count : Nat) → Option String
  | 0 => none
  | count + 1 =>
      let mark := String.ofList (text.take (count + 1))
      if (marks.lookup mark).isSome then some mark else longestMarkUpTo? text count

def mark? (text : List Char) : Option String :=
  match text with
  | [] => none
  | c :: _ => if isLoneMark c then some (String.ofList [c]) else longestMarkUpTo? text longestMark

/-! ### Names in messages -/

/-- The name of a keyword in messages. -/
def keywordLabel (word : String) : String :=
  if ["true", "false", "null"].contains word then "Literal" ++ word.capitalize
  else "Keyword" ++ word.capitalize

/-- The name of a kind of token in messages. -/
def Kind.label : Kind → String
  | name => "Identifier"
  | privateName => "PrivateMember"
  | number => "LiteralNumber"
  | bigNumber => "LiteralBigInt"
  | string => "LiteralString"
  | pattern => "LiteralRegex"
  | templatePart false => "LiteralTemplatePartString"
  | templatePart true => "LiteralTemplatePartStringEnd"
  | keyword word => keywordLabel word
  | mark text => (marks.lookup text).getD ""
  | broken _ => "Invalid"
  | endOfText => "EOF"

/-! ### Laws -/

theorem longestMarkUpTo?_mem {text : List Char} {mark : String} :
    ∀ {count : Nat}, longestMarkUpTo? text count = some mark → (marks.lookup mark).isSome = true
  | 0, h => nomatch h
  | count + 1, h => by
      unfold longestMarkUpTo? at h
      dsimp only at h
      split at h
      · rename_i hmark
        exact Option.some.inj h ▸ hmark
      · exact longestMarkUpTo?_mem h

/-- Characters of which keywords could be made continue a word. -/
theorem isWordPart_of_isPlainPart {c : Char} (h : isPlainPart c = true) : isWordPart c = true := by
  unfold isPlainPart at h
  unfold isWordPart isWordStart
  cases hs : isPlainStart c <;> simp_all

end Script
end AssetPress
