/-!
# Text and its bytes

Texts are written in UTF-8: one to four bytes a character, the first of which tells how many
follow.  Reading goes byte by byte: `Utf8.pieces` cuts any bytes into characters and broken
parts, a broken part being the longest beginning of a character that is there.  `Utf8.decode?`
accepts the bytes without a broken part, `Utf8.lossy` shows each broken part as one replacement
character.  Main statements: `encode_append` and `pieces_of_ascii`.
-/

namespace AssetPress

/-- Raw bytes: file contents, names and paths. -/
abbrev Bytes := List UInt8

namespace Utf8

/-! ### Writing -/

def encodeChar (c : Char) : Bytes :=
  let n := c.toNat
  if n < 0x80 then [.ofNat n]
  else if n < 0x800 then [.ofNat (0xC0 + n / 64), .ofNat (0x80 + n % 64)]
  else if n < 0x10000 then
    [.ofNat (0xE0 + n / 4096), .ofNat (0x80 + n / 64 % 64), .ofNat (0x80 + n % 64)]
  else
    [.ofNat (0xF0 + n / 262144), .ofNat (0x80 + n / 4096 % 64), .ofNat (0x80 + n / 64 % 64),
      .ofNat (0x80 + n % 64)]

def encodeChars (cs : List Char) : Bytes := cs.flatMap encodeChar

def encode (s : String) : Bytes := encodeChars s.toList

theorem encodeChars_append (a b : List Char) :
    encodeChars (a ++ b) = encodeChars a ++ encodeChars b := by
  simp [encodeChars]

theorem encode_append (a b : String) : encode (a ++ b) = encode a ++ encode b := by
  simp [encode, encodeChars_append]

@[simp] theorem encode_empty : encode "" = [] := by simp [encode, encodeChars]

/-! ### Reading -/

/-- A character that has begun: the bits read so far, how many bytes it still owes, and the
bounds on the next of them. -/
structure Pending where
  bits : Nat
  owed : Nat
  low : Nat
  high : Nat
  deriving DecidableEq, Repr

/-- What the first byte of a longer character promises.  The bounds on the second byte leave out
overlong forms, surrogates and everything above the last code point. -/
def lead (b : Nat) : Option Pending :=
  if 0xC2 ≤ b ∧ b ≤ 0xDF then some ⟨b - 0xC0, 1, 0x80, 0xBF⟩
  else if b = 0xE0 then some ⟨0, 2, 0xA0, 0xBF⟩
  else if b = 0xED then some ⟨0xD, 2, 0x80, 0x9F⟩
  else if 0xE1 ≤ b ∧ b ≤ 0xEF then some ⟨b - 0xE0, 2, 0x80, 0xBF⟩
  else if b = 0xF0 then some ⟨0, 3, 0x90, 0xBF⟩
  else if b = 0xF4 then some ⟨4, 3, 0x80, 0x8F⟩
  else if 0xF1 ≤ b ∧ b ≤ 0xF3 then some ⟨b - 0xF0, 3, 0x80, 0xBF⟩
  else none

/-- A byte where a character may begin: the pieces it completes, and what it leaves pending. -/
def begin (b : Nat) : List (Option Char) × Option Pending :=
  if b < 0x80 then ([some (Char.ofNat b)], none)
  else
    match lead b with
    | some p => ([], some p)
    | none => ([none], none)

/-- The next byte of a pending character, or a byte that breaks it off. -/
def Pending.feed (p : Pending) (b : Nat) : List (Option Char) × Option Pending :=
  if p.low ≤ b ∧ b ≤ p.high then
    let bits := p.bits * 64 + (b - 0x80)
    if p.owed ≤ 1 then ([some (Char.ofNat bits)], none)
    else ([], some ⟨bits, p.owed - 1, 0x80, 0xBF⟩)
  else
    let (out, next) := begin b
    (none :: out, next)

/-- The pieces of `bytes` after a possibly pending character: `some` character or `none` for a
broken part. -/
def piecesFrom : Option Pending → Bytes → List (Option Char)
  | none, [] => []
  | some _, [] => [none]
  | none, b :: rest =>
      let (out, next) := begin b.toNat
      out ++ piecesFrom next rest
  | some p, b :: rest =>
      let (out, next) := p.feed b.toNat
      out ++ piecesFrom next rest

/-- The characters and broken parts of `bytes`, in order. -/
def pieces (bytes : Bytes) : List (Option Char) := piecesFrom none bytes

/-- The characters of `bytes`, if no part is broken. -/
def decodeChars? (bytes : Bytes) : Option (List Char) := (pieces bytes).mapM id

/-- The text of `bytes`, if no part is broken. -/
def decode? (bytes : Bytes) : Option String := (decodeChars? bytes).map String.ofList

/-- The text of `bytes` for a reader: each broken part is shown as one replacement character. -/
def lossy (bytes : Bytes) : String :=
  String.ofList ((pieces bytes).map fun p => p.getD (Char.ofNat 0xFFFD))

theorem pieces_of_ascii (b : UInt8) (rest : Bytes) (h : b.toNat < 0x80) :
    pieces (b :: rest) = some (Char.ofNat b.toNat) :: pieces rest := by
  simp [pieces, piecesFrom, begin, h]

end Utf8
end AssetPress
