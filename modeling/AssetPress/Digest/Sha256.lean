import AssetPress.Text.Utf8

/-!
# The SHA-256 digest

The message is padded to whole blocks of 64 bytes; each block is mixed into a state of eight
words in 64 rounds, for which its sixteen words are stretched by a recurrence; the last state,
written in hexadecimal digits, is the digest.  Main statements: `length_pad_mod` (padding fills
whole blocks) and `length_hex` (two digits a byte).
-/

namespace AssetPress
namespace Sha256

/-! ### Words -/

/-- The word with its bits turned right by `n` places, `n` between 1 and 31. -/
def turn (x : UInt32) (n : UInt32) : UInt32 := (x >>> n) ||| (x <<< (32 - n))

/-- The word that bytes spell, the weightiest first. -/
def word (bytes : Bytes) : UInt32 := bytes.foldl (fun w b => w <<< 8 ||| b.toUInt32) 0

/-- The `n` lowest bytes of a number, the weightiest first. -/
def bytesOf (n : Nat) (value : Nat) : Bytes :=
  (List.range n).reverse.map fun i => .ofNat (value >>> (8 * i) % 256)

/-! ### Rounds -/

/-- The state that blocks are mixed into. -/
structure State where
  a : UInt32
  b : UInt32
  c : UInt32
  d : UInt32
  e : UInt32
  f : UInt32
  g : UInt32
  h : UInt32
  deriving DecidableEq, Repr

/-- The state before the first block. -/
def State.start : State :=
  ⟨0x6a09e667, 0xbb67ae85, 0x3c6ef372, 0xa54ff53a, 0x510e527f, 0x9b05688c, 0x1f83d9ab, 0x5be0cd19⟩

/-- The constants of the rounds: the fractions of the cube roots of the first 64 primes. -/
def constants : List UInt32 :=
  [0x428a2f98, 0x71374491, 0xb5c0fbcf, 0xe9b5dba5, 0x3956c25b, 0x59f111f1, 0x923f82a4, 0xab1c5ed5,
    0xd807aa98, 0x12835b01, 0x243185be, 0x550c7dc3, 0x72be5d74, 0x80deb1fe, 0x9bdc06a7, 0xc19bf174,
    0xe49b69c1, 0xefbe4786, 0x0fc19dc6, 0x240ca1cc, 0x2de92c6f, 0x4a7484aa, 0x5cb0a9dc, 0x76f988da,
    0x983e5152, 0xa831c66d, 0xb00327c8, 0xbf597fc7, 0xc6e00bf3, 0xd5a79147, 0x06ca6351, 0x14292967,
    0x27b70a85, 0x2e1b2138, 0x4d2c6dfc, 0x53380d13, 0x650a7354, 0x766a0abb, 0x81c2c92e, 0x92722c85,
    0xa2bfe8a1, 0xa81a664b, 0xc24b8b70, 0xc76c51a3, 0xd192e819, 0xd6990624, 0xf40e3585, 0x106aa070,
    0x19a4c116, 0x1e376c08, 0x2748774c, 0x34b0bcb5, 0x391c0cb3, 0x4ed8aa4a, 0x5b9cca4f, 0x682e6ff3,
    0x748f82ee, 0x78a5636f, 0x84c87814, 0x8cc70208, 0x90befffa, 0xa4506ceb, 0xbef9a3f7, 0xc67178f2]

/-- One round, with its constant and its word. -/
def State.round (s : State) (k w : UInt32) : State :=
  let t₁ := s.h + (turn s.e 6 ^^^ turn s.e 11 ^^^ turn s.e 25) +
    ((s.e &&& s.f) ^^^ (~~~s.e &&& s.g)) + k + w
  let t₂ := (turn s.a 2 ^^^ turn s.a 13 ^^^ turn s.a 22) +
    ((s.a &&& s.b) ^^^ (s.a &&& s.c) ^^^ (s.b &&& s.c))
  ⟨t₁ + t₂, s.a, s.b, s.c, s.d + t₁, s.e, s.f, s.g⟩

/-- The next sixteen words: the first one leaves, a mixture of four of them enters. -/
def slide (ws : List UInt32) : List UInt32 :=
  let x := ws.getD 1 0
  let y := ws.getD 14 0
  ws.drop 1 ++
    [ws.getD 0 0 + (turn x 7 ^^^ turn x 18 ^^^ x >>> 3) + ws.getD 9 0 +
      (turn y 17 ^^^ turn y 19 ^^^ y >>> 10)]

/-- The words of two states added one by one. -/
def State.add (s t : State) : State :=
  ⟨s.a + t.a, s.b + t.b, s.c + t.c, s.d + t.d, s.e + t.e, s.f + t.f, s.g + t.g, s.h + t.h⟩

/-- The state after a block of sixteen words. -/
def State.absorb (s : State) (block : List UInt32) : State :=
  s.add (constants.foldl (fun (t, ws) k => (t.round k (ws.getD 0 0), slide ws)) (s, block)).1

/-! ### Messages -/

/-- The message with a one bit, zeros and its length in bits behind it. -/
def pad (message : Bytes) : Bytes :=
  message ++ 0x80 :: List.replicate ((119 - message.length % 64) % 64) 0 ++
    bytesOf 8 (8 * message.length)

/-- The bytes in groups of `size + 1`, the last perhaps shorter. -/
def groups (size : Nat) (bytes : Bytes) : List Bytes :=
  match bytes with
  | [] => []
  | b :: rest => (b :: rest.take size) :: groups size (rest.drop size)
termination_by bytes.length
decreasing_by
  rw [List.length_drop, List.length_cons]
  omega

def State.bytes (s : State) : Bytes :=
  [s.a, s.b, s.c, s.d, s.e, s.f, s.g, s.h].flatMap fun w => bytesOf 4 w.toNat

/-- The digest of a message: 32 bytes. -/
def digest (message : Bytes) : Bytes :=
  ((groups 63 (pad message)).foldl (fun s block => s.absorb ((groups 3 block).map word))
    State.start).bytes

/-! ### Hexadecimal digits -/

/-- The digit for a value below sixteen. -/
def hexDigit (n : Nat) : Char := if n < 10 then Char.ofNat (48 + n) else Char.ofNat (87 + n)

/-- The bytes as hexadecimal digits in lower case. -/
def hex (bytes : Bytes) : String :=
  String.ofList (bytes.flatMap fun b => [hexDigit (b.toNat / 16), hexDigit (b.toNat % 16)])

def hexDigest (message : Bytes) : String := hex (digest message)

/-! ### Lengths -/

theorem length_bytesOf (n value : Nat) : (bytesOf n value).length = n := by
  simp [bytesOf]

theorem length_pad_mod (message : Bytes) : (pad message).length % 64 = 0 := by
  simp only [pad, List.length_append, List.length_cons, List.length_replicate, length_bytesOf]
  omega

theorem length_digest (message : Bytes) : (digest message).length = 32 := by
  simp [digest, State.bytes, length_bytesOf]

theorem length_hex (bytes : Bytes) : (hex bytes).length = 2 * bytes.length := by
  unfold hex
  rw [String.length_ofList]
  induction bytes with
  | nil => rfl
  | cons b rest ih =>
      rw [List.flatMap_cons, List.length_append, ih]
      simp
      omega

end Sha256
end AssetPress
