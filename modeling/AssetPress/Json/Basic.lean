/-!
# JSON

JSON values as far as reports need them, and their printed form: two spaces for each level, an
item or a field on each line, nothing between the brackets of an empty list or object.  In strings
the quote, the backslash and control characters are written as escapes, all else as it is.
-/

namespace AssetPress

inductive Json where
  | string (text : String)
  | number (n : Nat)
  | list (items : List Json)
  | object (fields : List (String × Json))

namespace Json

/-! ### Strings -/

/-- The digit for a value below sixteen. -/
def digit (n : Nat) : Char := if n < 10 then Char.ofNat (48 + n) else Char.ofNat (87 + n)

/-- A character inside a string. -/
def escape (c : Char) : List Char :=
  if c = '"' then ['\\', '"']
  else if c = '\\' then ['\\', '\\']
  else if c = '\x08' then ['\\', 'b']
  else if c = '\x0c' then ['\\', 'f']
  else if c = '\n' then ['\\', 'n']
  else if c = '\r' then ['\\', 'r']
  else if c = '\t' then ['\\', 't']
  else if c.toNat < 32 then ['\\', 'u', '0', '0', digit (c.toNat / 16), digit (c.toNat % 16)]
  else [c]

def quoted (text : String) : List Char := '"' :: text.toList.flatMap escape ++ ['"']

/-! ### Values -/

/-- The beginning of a line at the given level. -/
def newline (level : Nat) : List Char := '\n' :: List.replicate (2 * level) ' '

mutual

/-- The printed form of a value that begins at the given level. -/
def render (level : Nat) : Json → List Char
  | string text => quoted text
  | number n => Nat.toDigits 10 n
  | list [] => ['[', ']']
  | list (item :: more) =>
      '[' :: newline (level + 1) ++ render (level + 1) item ++ renderItems (level + 1) more ++
        newline level ++ [']']
  | object [] => ['{', '}']
  | object ((key, value) :: more) =>
      '{' :: newline (level + 1) ++ quoted key ++ ':' :: ' ' :: render (level + 1) value ++
        renderFields (level + 1) more ++ newline level ++ ['}']

/-- Further items, each on a line of its own. -/
def renderItems (level : Nat) : List Json → List Char
  | [] => []
  | item :: more => ',' :: newline level ++ render level item ++ renderItems level more

/-- Further fields, each on a line of its own. -/
def renderFields (level : Nat) : List (String × Json) → List Char
  | [] => []
  | (key, value) :: more =>
      ',' :: newline level ++ quoted key ++ ':' :: ' ' :: render level value ++
        renderFields level more

end

/-- The printed form of a value. -/
def print (v : Json) : String := String.ofList (v.render 0)

end Json
end AssetPress
