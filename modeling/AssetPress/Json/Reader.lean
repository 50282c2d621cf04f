import AssetPress.Json.Basic
import AssetPress.Number.Digit

/-!
# Reading JSON

A reader for any JSON text, however it is laid out: it accepts the texts that are one JSON value
with nothing but blanks around it, and answers with what the value stands for.  Strings are read
with all their escapes, a pair of surrogates being one character and half a pair a mistake;
numbers keep their exact decimal value.  Every part of a value takes at least one character, so the
length of a text bounds how deeply `readValue` goes down in it.
-/

namespace AssetPress
namespace Json

/-- What a JSON text stands for.  A number is its digits times a power of ten. -/
inductive Value where
  | null
  | bool (b : Bool)
  | number (negative : Bool) (digits : Nat) (exponent : Int)
  | string (text : String)
  | list (items : List Value)
  | object (fields : List (String × Value))

/-! ### Blanks -/

/-- Whether a character may stand between the parts of a value. -/
def isBlank (c : Char) : Bool := c == ' ' || c == '\t' || c == '\n' || c == '\r'

/-- What stands behind blanks. -/
def skipBlanks (text : List Char) : List Char := text.dropWhile isBlank

/-! ### Strings -/

/-- The character for which a letter behind a backslash stands. -/
def unescape? : Char → Option Char
  | '"' => some '"'
  | '\\' => some '\\'
  | '/' => some '/'
  | 'b' => some '\x08'
  | 'f' => some '\x0c'
  | 'n' => some '\n'
  | 'r' => some '\r'
  | 't' => some '\t'
  | _ => none

/-- The code unit that four hexadecimal digits spell. -/
def unit? (a b c d : Char) : Option Nat := do
  let high := (← hexDigit? a) * 16 + (← hexDigit? b)
  let low := (← hexDigit? c) * 16 + (← hexDigit? d)
  return high * 256 + low

/-- Whether a code unit is half of a pair. -/
def isSurrogate (n : Nat) : Bool := 0xD800 ≤ n && n ≤ 0xDFFF

/-- The character of a pair of code units, if they are the first and the second half of one. -/
def paired? (high low : Nat) : Option Char :=
  if 0xD800 ≤ high ∧ high < 0xDC00 ∧ 0xDC00 ≤ low ∧ low ≤ 0xDFFF then
    some (Char.ofNat (0x10000 + (high - 0xD800) * 0x400 + (low - 0xDC00)))
  else none

/-- A character in front of what has been read. -/
def push (c : Char) : List Char × List Char → List Char × List Char
  | (text, rest) => (c :: text, rest)

/-- The characters up to the quote that ends a string, and what stands behind it. -/
def readString : List Char → Option (List Char × List Char)
  | [] => none
  | '"' :: rest => some ([], rest)
  | '\\' :: 'u' :: a :: b :: c :: d :: rest => do
      let n ← unit? a b c d
      if isSurrogate n then
        match rest with
        | '\\' :: 'u' :: a :: b :: c :: d :: rest => do
            let both ← paired? n (← unit? a b c d)
            return push both (← readString rest)
        | _ => none
      else return push (Char.ofNat n) (← readString rest)
  | '\\' :: c :: rest => do return push (← unescape? c) (← readString rest)
  | c :: rest => if c.toNat < 32 then none else do return push c (← readString rest)

/-! ### Numbers -/

/-- Digits, at least one, and what stands behind them. -/
def readDigits (text : List Char) : Option (List Char × List Char) :=
  if text.takeWhile Char.isDigit = [] then none
  else some (text.takeWhile Char.isDigit, text.dropWhile Char.isDigit)

/-- The digits of a number in front of a point: no further one behind a zero. -/
def readWhole : List Char → Option (List Char × List Char)
  | '0' :: rest => some (['0'], rest)
  | text => readDigits text

/-- The digits of a number behind a point, if there is one. -/
def readFraction : List Char → Option (List Char × List Char)
  | '.' :: rest => readDigits rest
  | text => some ([], text)

/-- The number that digits spell. -/
def ofDigits (digits : List Char) : Nat := Nat.ofDigitChars 10 digits 0

/-- The power of ten of a number, if one is given. -/
def readExponent : List Char → Option (Int × List Char)
  | 'e' :: rest | 'E' :: rest =>
      match rest with
      | '-' :: rest => (readDigits rest).map fun (digits, rest) => (-(ofDigits digits : Int), rest)
      | '+' :: rest => (readDigits rest).map fun (digits, rest) => ((ofDigits digits : Int), rest)
      | rest => (readDigits rest).map fun (digits, rest) => ((ofDigits digits : Int), rest)
  | text => some (0, text)

/-- A number without its sign. -/
def readUnsigned (negative : Bool) (text : List Char) : Option (Value × List Char) := do
  let (whole, text) ← readWhole text
  let (fraction, text) ← readFraction text
  let (exponent, text) ← readExponent text
  return (.number negative (ofDigits (whole ++ fraction)) (exponent - fraction.length), text)

def readNumber : List Char → Option (Value × List Char)
  | '-' :: rest => readUnsigned true rest
  | text => readUnsigned false text

/-! ### Values -/

mutual

/-- A value and what stands behind it. -/
def readValue : Nat → List Char → Option (Value × List Char)
  | 0, _ => none
  | depth + 1, text =>
      match skipBlanks text with
      | '"' :: rest => do
          let (text, rest) ← readString rest
          return (.string (String.ofList text), rest)
      | '[' :: rest =>
          match skipBlanks rest with
          | ']' :: rest => some (.list [], rest)
          | rest => do
              let (items, rest) ← readItems depth rest
              return (.list items, rest)
      | '\x7b' :: rest =>
          match skipBlanks rest with
          | '\x7d' :: rest => some (.object [], rest)
          | rest => do
              let (fields, rest) ← readFields depth rest
              return (.object fields, rest)
      | 't' :: 'r' :: 'u' :: 'e' :: rest => some (.bool true, rest)
      | 'f' :: 'a' :: 'l' :: 's' :: 'e' :: rest => some (.bool false, rest)
      | 'n' :: 'u' :: 'l' :: 'l' :: rest => some (.null, rest)
      | text => readNumber text

/-- The items of a list up to its closing bracket, at least one. -/
def readItems : Nat → List Char → Option (List Value × List Char)
  | 0, _ => none
  | depth + 1, text => do
      let (item, rest) ← readValue depth text
      match skipBlanks rest with
      | ']' :: rest => return ([item], rest)
      | ',' :: rest => do
          let (items, rest) ← readItems depth rest
          return (item :: items, rest)
      | _ => none

/-- The fields of an object up to its closing brace, at least one. -/
def readFields : Nat → List Char → Option (List (String × Value) × List Char)
  | 0, _ => none
  | depth + 1, text =>
      match skipBlanks text with
      | '"' :: rest => do
          let (name, rest) ← readString rest
          match skipBlanks rest with
          | ':' :: rest => do
              let (value, rest) ← readValue depth rest
              let field := (String.ofList name, value)
              match skipBlanks rest with
              | '\x7d' :: rest => return ([field], rest)
              | ',' :: rest => do
                  let (fields, rest) ← readFields depth rest
                  return (field :: fields, rest)
              | _ => none
          | _ => none
      | _ => none

end

/-- What a text stands for, if it is one JSON value. -/
def read? (text : String) : Option Value :=
  match readValue (text.toList.length + 1) text.toList with
  | some (v, rest) => if skipBlanks rest = [] then some v else none
  | none => none

end Json
end AssetPress
