import AssetPress.Text.Utf8

/-!
# Reading what has been written

The bytes of a text are read back as that text (`decode?_encode`), so no two texts have the same
bytes (`encode_injective`), and bytes that are read as a text are the bytes of that text
(`encode_of_decode?`).  Bytes without a broken part can be read in front of any others without
a difference (`piecesFrom_append`), whence a text behind a text makes a text
(`isSome_decode?_append`).  A text and its bytes end in a line end alike (`getLast?_encode`).
-/

namespace AssetPress
namespace Utf8

/-! ### Bytes in front of others -/

/-- Bytes without a broken part leave nothing pending, so what follows is read on its own. -/
theorem piecesFrom_append {st : Option Pending} {a : Bytes} (h : none ∉ piecesFrom st a)
    (b : Bytes) : piecesFrom st (a ++ b) = piecesFrom st a ++ pieces b := by
  induction a generalizing st with
  | nil =>
      cases st with
      | none => rfl
      | some p => exact absurd List.mem_cons_self h
  | cons x rest ih =>
      cases st with
      | none =>
          simp only [piecesFrom, List.mem_append, not_or] at h
          simp only [List.cons_append, piecesFrom, ih h.2, List.append_assoc]
      | some p =>
          simp only [piecesFrom, List.mem_append, not_or] at h
          simp only [List.cons_append, piecesFrom, ih h.2, List.append_assoc]

/-! ### Characters -/

/-- What the first byte of a character of two, three or four bytes promises. -/
theorem lead_two : ∀ q < 32, 2 ≤ q → lead (0xC0 + q) = some ⟨q, 1, 0x80, 0xBF⟩ := by decide

theorem lead_three : ∀ q < 16, lead (0xE0 + q) =
    some ⟨q, 2, if q = 0 then 0xA0 else 0x80, if q = 0xD then 0x9F else 0xBF⟩ := by decide

theorem lead_four : ∀ q < 5, lead (0xF0 + q) =
    some ⟨q, 3, if q = 0 then 0x90 else 0x80, if q = 4 then 0x8F else 0xBF⟩ := by decide

theorem toNat_ofNat {k : Nat} (h : k < 256) : (UInt8.ofNat k).toNat = k :=
  UInt8.toNat_ofNat_of_lt' h

theorem piecesFrom_lead {k : Nat} {p : Pending} (hlow : 0x80 ≤ k) (hk : k < 256)
    (h : lead k = some p) (rest : Bytes) :
    piecesFrom none (.ofNat k :: rest) = piecesFrom (some p) rest := by
  have hlong : ¬ k < 0x80 := by omega
  simp [piecesFrom, begin, toNat_ofNat hk, hlong, h]

/-- A byte within the bounds that is not the last one owed. -/
theorem piecesFrom_more {p : Pending} {k : Nat} (hk : k < 256) (hlow : p.low ≤ k)
    (hhigh : k ≤ p.high) (howed : 1 < p.owed) (rest : Bytes) :
    piecesFrom (some p) (.ofNat k :: rest) =
      piecesFrom (some ⟨p.bits * 64 + (k - 0x80), p.owed - 1, 0x80, 0xBF⟩) rest := by
  have hmore : ¬ p.owed ≤ 1 := by omega
  simp [piecesFrom, Pending.feed, toNat_ofNat hk, hlow, hhigh, hmore]

theorem piecesFrom_last {p : Pending} {k : Nat} (hk : k < 256) (hlow : p.low ≤ k)
    (hhigh : k ≤ p.high) (howed : p.owed ≤ 1) (rest : Bytes) :
    piecesFrom (some p) (.ofNat k :: rest) =
      some (Char.ofNat (p.bits * 64 + (k - 0x80))) :: piecesFrom none rest := by
  simp [piecesFrom, Pending.feed, toNat_ofNat hk, hlow, hhigh, howed]

/-- No character is a surrogate or lies above the last code point. -/
theorem toNat_bounds (c : Char) :
    c.toNat < 0xD800 ∨ 0xDFFF < c.toNat ∧ c.toNat < 0x110000 := c.valid

theorem pieces_encodeChar (c : Char) : pieces (encodeChar c) = [some c] := by
  have hbounds := toNat_bounds c
  have hback : Char.ofNat c.toNat = c := Char.ofNat_toNat c
  unfold pieces encodeChar
  generalize c.toNat = n at hbounds hback
  simp only
  split
  case isTrue hone =>
    have hk : n < 256 := by omega
    simp [piecesFrom, begin, toNat_ofNat hk, hone, hback]
  case isFalse hone =>
    split
    case isTrue htwo =>
      rw [piecesFrom_lead (by omega) (by omega) (lead_two (n / 64) (by omega) (by omega)),
        piecesFrom_last (by omega) (by simp) (by simp; omega) (by simp)]
      have hbits : n / 64 * 64 + (0x80 + n % 64 - 0x80) = n := by omega
      simp only [hbits, hback, piecesFrom]
    case isFalse htwo =>
      split
      case isTrue hthree =>
        rw [piecesFrom_lead (by omega) (by omega) (lead_three (n / 4096) (by omega)),
          piecesFrom_more (by omega) (by simp only; split <;> omega)
            (by simp only; split <;> omega) (by simp),
          piecesFrom_last (by omega) (by simp) (by simp; omega) (by simp)]
        have hbits : (n / 4096 * 64 + (0x80 + n / 64 % 64 - 0x80)) * 64 +
            (0x80 + n % 64 - 0x80) = n := by omega
        simp only [hbits, hback, piecesFrom]
      case isFalse hthree =>
        rw [piecesFrom_lead (by omega) (by omega) (lead_four (n / 262144) (by omega)),
          piecesFrom_more (by omega) (by simp only; split <;> omega)
            (by simp only; split <;> omega) (by simp),
          piecesFrom_more (by omega) (by simp) (by simp; omega) (by simp),
          piecesFrom_last (by omega) (by simp) (by simp; omega) (by simp)]
        have hbits : ((n / 262144 * 64 + (0x80 + n / 4096 % 64 - 0x80)) * 64 +
            (0x80 + n / 64 % 64 - 0x80)) * 64 + (0x80 + n % 64 - 0x80) = n := by omega
        simp only [hbits, hback, piecesFrom]

/-! ### Texts -/

theorem pieces_encodeChars (cs : List Char) : pieces (encodeChars cs) = cs.map some := by
  induction cs with
  | nil => rfl
  | cons c rest ih =>
      have hwhole : none ∉ pieces (encodeChar c) := by simp [pieces_encodeChar]
      have happend := piecesFrom_append hwhole (encodeChars rest)
      rw [ih, ← pieces, ← pieces, pieces_encodeChar] at happend
      exact happend

/-- What is read has no broken part, and reading takes every piece. -/
theorem decodeChars?_eq_some_iff {bytes : Bytes} {cs : List Char} :
    decodeChars? bytes = some cs ↔ pieces bytes = cs.map some := by
  unfold decodeChars?
  generalize pieces bytes = ps
  induction ps generalizing cs with
  | nil => cases cs <;> simp
  | cons p rest ih =>
      cases p with
      | none => cases cs <;> simp
      | some c =>
          cases cs with
          | nil => simp [Option.bind_eq_some_iff]
          | cons c' cs =>
              simp only [List.mapM_cons, id_eq, Option.pure_def, Option.bind_eq_bind,
                Option.bind_some, Option.bind_eq_some_iff, Option.some.injEq, List.cons.injEq,
                List.map_cons, ih]
              constructor
              · rintro ⟨_, hrest, rfl, rfl⟩
                exact ⟨rfl, hrest⟩
              · rintro ⟨rfl, hrest⟩
                exact ⟨cs, hrest, rfl, rfl⟩

theorem decode?_encode (s : String) : decode? (encode s) = some s := by
  rw [decode?, encode, decodeChars?_eq_some_iff.mpr (pieces_encodeChars s.toList)]
  simp

theorem encode_injective {a b : String} (h : encode a = encode b) : a = b := by
  have hread := congrArg decode? h
  rw [decode?_encode, decode?_encode] at hread
  exact Option.some.inj hread

theorem isSome_decode?_append {bytes : Bytes} (h : (decode? bytes).isSome) (s : String) :
    (decode? (bytes ++ encode s)).isSome := by
  rw [decode?, Option.isSome_map] at h ⊢
  obtain ⟨cs, hcs⟩ := Option.isSome_iff_exists.mp h
  have hpieces := decodeChars?_eq_some_iff.mp hcs
  have hwhole : none ∉ pieces bytes := by simp [hpieces]
  have hread : decodeChars? (bytes ++ encode s) = some (cs ++ s.toList) := by
    rw [decodeChars?_eq_some_iff, pieces, piecesFrom_append hwhole, ← pieces, hpieces, encode,
      pieces_encodeChars, List.map_append]
  simp [hread]

/-! ### Line ends -/

/-- No longer character ends in the byte of the line end. -/
theorem getLast?_encodeChar (c : Char) : (encodeChar c).getLast? = some 10 ↔ c = '\n' := by
  have hbyte : ∀ k < 256, UInt8.ofNat k = 10 ↔ k = 10 := by
    intro k hk
    rw [← UInt8.toNat_inj, toNat_ofNat hk]
    rfl
  have hchar : c = '\n' ↔ c.toNat = 10 := by
    constructor
    · rintro rfl
      rfl
    · intro h
      rw [← Char.ofNat_toNat c, h]
  rw [hchar]
  unfold encodeChar
  dsimp only
  split
  case isTrue hshort =>
    simp only [List.getLast?_singleton, Option.some.injEq]
    exact hbyte _ (by omega)
  case isFalse hlong =>
    have hlast : UInt8.ofNat (0x80 + c.toNat % 64) ≠ 10 := by
      rw [ne_eq, hbyte _ (by omega)]
      omega
    have hother : c.toNat ≠ 10 := by omega
    generalize UInt8.ofNat (0x80 + c.toNat % 64) = last at hlast ⊢
    split
    · simp [hlast, hother]
    · split <;> simp [hlast, hother]

theorem encodeChar_ne_nil (c : Char) : encodeChar c ≠ [] := by
  unfold encodeChar
  dsimp only
  split
  · simp
  · split
    · simp
    · split <;> simp

theorem getLast?_encode (s : String) :
    (encode s).getLast? = some 10 ↔ s.toList.getLast? = some '\n' := by
  unfold encode
  rcases List.eq_nil_or_concat s.toList with hnil | ⟨front, c, hs⟩
  · rw [hnil]
    simp [encodeChars]
  · have hlast : (encodeChars (front ++ [c])).getLast? = (encodeChar c).getLast? := by
      have hone : encodeChars [c] = encodeChar c := by simp [encodeChars]
      rw [encodeChars_append, hone, List.getLast?_append,
        List.getLast?_eq_some_getLast (encodeChar_ne_nil c), Option.some_or]
    rw [hs, List.concat_eq_append, hlast, getLast?_encodeChar, List.getLast?_concat,
      Option.some.injEq]

/-! ### Reading and writing again -/

theorem toNat_charOfNat {n : Nat} (h : n < 0xD800 ∨ 0xDFFF < n ∧ n < 0x110000) :
    (Char.ofNat n).toNat = n := by
  have hvalid : n.isValidChar := h
  rw [Char.ofNat, dif_pos hvalid]
  rfl

theorem ofNat_eq_of_toNat {n : Nat} {b : UInt8} (h : n = b.toNat) : UInt8.ofNat n = b := by
  rw [h, UInt8.ofNat_toNat]

/-- What stands behind a pending character whose reading breaks nowhere: a byte within its
bounds. -/
theorem exists_cons_of_pending {p : Pending} {bytes : Bytes}
    (h : none ∉ piecesFrom (some p) bytes) :
    ∃ b rest, bytes = b :: rest ∧ p.low ≤ b.toNat ∧ b.toNat ≤ p.high ∧
      piecesFrom (some p) bytes =
        if p.owed ≤ 1 then some (Char.ofNat (p.bits * 64 + (b.toNat - 0x80))) :: pieces rest
        else piecesFrom (some ⟨p.bits * 64 + (b.toNat - 0x80), p.owed - 1, 0x80, 0xBF⟩) rest := by
  cases bytes with
  | nil => exact absurd List.mem_cons_self h
  | cons b rest =>
      by_cases hb : p.low ≤ b.toNat ∧ b.toNat ≤ p.high
      · refine ⟨b, rest, rfl, hb.1, hb.2, ?_⟩
        simp only [piecesFrom, Pending.feed, if_pos hb, pieces]
        split <;> rfl
      · simp [piecesFrom, Pending.feed, if_neg hb] at h

/-- What the first byte of a longer character promises, and of how many bytes it is. -/
theorem of_lead {b : Nat} {p : Pending} (h : lead b = some p) :
    p.owed = 1 ∧ b = 0xC0 + p.bits ∧ 2 ≤ p.bits ∧ p.bits < 32 ∧ p.low = 0x80 ∧ p.high = 0xBF ∨
    p.owed = 2 ∧ b = 0xE0 + p.bits ∧ p.bits < 16 ∧ p.low = (if p.bits = 0 then 0xA0 else 0x80) ∧
      p.high = (if p.bits = 0xD then 0x9F else 0xBF) ∨
    p.owed = 3 ∧ b = 0xF0 + p.bits ∧ p.bits < 5 ∧ p.low = (if p.bits = 0 then 0x90 else 0x80) ∧
      p.high = (if p.bits = 4 then 0x8F else 0xBF) := by
  unfold lead at h
  repeat' split at h
  all_goals first
    | (obtain rfl := Option.some.inj h; simp; omega)
    | exact nomatch h

theorem exists_last_of_pending {p : Pending} {bytes : Bytes} {cs : List Char} (howed : p.owed ≤ 1)
    (h : piecesFrom (some p) bytes = cs.map some) :
    ∃ b rest cs', bytes = b :: rest ∧ p.low ≤ b.toNat ∧ b.toNat ≤ p.high ∧
      cs = Char.ofNat (p.bits * 64 + (b.toNat - 0x80)) :: cs' ∧ pieces rest = cs'.map some := by
  have hwhole : none ∉ piecesFrom (some p) bytes := by simp [h]
  obtain ⟨b, rest, rfl, hlow, hhigh, hread⟩ := exists_cons_of_pending hwhole
  rw [if_pos howed, h] at hread
  cases cs with
  | nil => cases hread
  | cons c cs' =>
      obtain ⟨hc, hrest⟩ := List.cons.inj hread
      exact ⟨b, rest, cs', rfl, hlow, hhigh, congrArg (· :: cs') (Option.some.inj hc), hrest.symm⟩

theorem exists_more_of_pending {p : Pending} {bytes : Bytes} {cs : List Char} (howed : 1 < p.owed)
    (h : piecesFrom (some p) bytes = cs.map some) :
    ∃ b rest, bytes = b :: rest ∧ p.low ≤ b.toNat ∧ b.toNat ≤ p.high ∧
      piecesFrom (some ⟨p.bits * 64 + (b.toNat - 0x80), p.owed - 1, 0x80, 0xBF⟩) rest =
        cs.map some := by
  have hwhole : none ∉ piecesFrom (some p) bytes := by simp [h]
  obtain ⟨b, rest, rfl, hlow, hhigh, hread⟩ := exists_cons_of_pending hwhole
  rw [if_neg (by omega), h] at hread
  exact ⟨b, rest, rfl, hlow, hhigh, hread.symm⟩

theorem encodeChar_two {n : Nat} (hlow : 0x80 ≤ n) (hhigh : n < 0x800) :
    encodeChar (Char.ofNat n) = [.ofNat (0xC0 + n / 64), .ofNat (0x80 + n % 64)] := by
  simp only [encodeChar, toNat_charOfNat (n := n) (by omega)]
  rw [if_neg (by omega), if_pos hhigh]

theorem encodeChar_three {n : Nat} (hlow : 0x800 ≤ n) (hhigh : n < 0x10000)
    (hsurrogate : n < 0xD800 ∨ 0xDFFF < n) :
    encodeChar (Char.ofNat n) =
      [.ofNat (0xE0 + n / 4096), .ofNat (0x80 + n / 64 % 64), .ofNat (0x80 + n % 64)] := by
  simp only [encodeChar, toNat_charOfNat (n := n) (by omega)]
  rw [if_neg (by omega), if_neg (by omega), if_pos hhigh]

theorem encodeChar_four {n : Nat} (hlow : 0x10000 ≤ n) (hhigh : n < 0x110000) :
    encodeChar (Char.ofNat n) =
      [.ofNat (0xF0 + n / 262144), .ofNat (0x80 + n / 4096 % 64), .ofNat (0x80 + n / 64 % 64),
        .ofNat (0x80 + n % 64)] := by
  simp only [encodeChar, toNat_charOfNat (n := n) (by omega)]
  rw [if_neg (by omega), if_neg (by omega), if_neg (by omega)]

/-- A character that begins with byte `b`, which promises `p`: its bytes are those that are read. -/
theorem exists_char_of_lead {b : UInt8} {p : Pending} (hlead : lead b.toNat = some p)
    {bytes : Bytes} {cs : List Char} (h : piecesFrom (some p) bytes = cs.map some) :
    ∃ c front rest cs', bytes = front ++ rest ∧ encodeChar c = b :: front ∧ cs = c :: cs' ∧
      pieces rest = cs'.map some := by
  rcases of_lead hlead with ⟨howed, hb, hmin, hmax, hlow, hhigh⟩ |
    ⟨howed, hb, hmax, hlow, hhigh⟩ | ⟨howed, hb, hmax, hlow, hhigh⟩
  · obtain ⟨k, rest, cs', rfl, hk, hk', rfl, hrest⟩ := exists_last_of_pending (by omega) h
    refine ⟨_, [k], rest, cs', rfl, ?_, rfl, hrest⟩
    generalize hn : p.bits * 64 + (k.toNat - 0x80) = n
    rw [encodeChar_two (by omega) (by omega), ofNat_eq_of_toNat (b := b) (by omega),
      ofNat_eq_of_toNat (b := k) (by omega)]
  · obtain ⟨j, rest, rfl, hj, hj', h⟩ := exists_more_of_pending (by omega) h
    obtain ⟨k, rest, cs', rfl, hk, hk', rfl, hrest⟩ := exists_last_of_pending (by simp [howed]) h
    refine ⟨_, [j, k], rest, cs', rfl, ?_, rfl, hrest⟩
    dsimp only at hk hk' ⊢
    have hlong : p.bits = 0 → 0xA0 ≤ j.toNat := fun hp => by rwa [hlow, if_pos hp] at hj
    have hshort : p.bits = 0xD → j.toNat ≤ 0x9F := fun hp => by rwa [hhigh, if_pos hp] at hj'
    have hbounds : 0x80 ≤ j.toNat ∧ j.toNat ≤ 0xBF := by
      rw [hlow] at hj
      rw [hhigh] at hj'
      constructor <;> split at hj <;> split at hj' <;> omega
    generalize hn : (p.bits * 64 + (j.toNat - 0x80)) * 64 + (k.toNat - 0x80) = n
    rw [encodeChar_three (by omega) (by omega) (by omega), ofNat_eq_of_toNat (b := b) (by omega),
      ofNat_eq_of_toNat (b := j) (by omega), ofNat_eq_of_toNat (b := k) (by omega)]
  · obtain ⟨i, rest, rfl, hi, hi', h⟩ := exists_more_of_pending (by omega) h
    obtain ⟨j, rest, rfl, hj, hj', h⟩ := exists_more_of_pending (by simp [howed]) h
    obtain ⟨k, rest, cs', rfl, hk, hk', rfl, hrest⟩ := exists_last_of_pending (by simp [howed]) h
    refine ⟨_, [i, j, k], rest, cs', rfl, ?_, rfl, hrest⟩
    dsimp only at hj hj' hk hk' ⊢
    have hlong : p.bits = 0 → 0x90 ≤ i.toNat := fun hp => by rwa [hlow, if_pos hp] at hi
    have hshort : p.bits = 4 → i.toNat ≤ 0x8F := fun hp => by rwa [hhigh, if_pos hp] at hi'
    have hbounds : 0x80 ≤ i.toNat ∧ i.toNat ≤ 0xBF := by
      rw [hlow] at hi
      rw [hhigh] at hi'
      constructor <;> split at hi <;> split at hi' <;> omega
    generalize hn : ((p.bits * 64 + (i.toNat - 0x80)) * 64 + (j.toNat - 0x80)) * 64 +
      (k.toNat - 0x80) = n
    rw [encodeChar_four (by omega) (by omega), ofNat_eq_of_toNat (b := b) (by omega),
      ofNat_eq_of_toNat (b := i) (by omega), ofNat_eq_of_toNat (b := j) (by omega),
      ofNat_eq_of_toNat (b := k) (by omega)]

/-- Bytes whose reading breaks nowhere are those of the characters that are read. -/
theorem encodeChars_of_pieces {bytes : Bytes} {cs : List Char} (h : pieces bytes = cs.map some) :
    encodeChars cs = bytes := by
  induction hn : bytes.length using Nat.strongRecOn generalizing bytes cs with
  | ind n ih =>
  cases bytes with
  | nil =>
      cases cs with
      | nil => rfl
      | cons c rest => cases h
  | cons b rest =>
      by_cases hb : b.toNat < 0x80
      · rw [pieces_of_ascii b rest hb] at h
        cases cs with
        | nil => cases h
        | cons c cs' =>
            obtain ⟨hc, hrest⟩ := List.cons.inj h
            have hmore := ih rest.length (by simp [← hn]) hrest rfl
            rw [encodeChars, List.flatMap_cons, ← encodeChars, hmore, ← Option.some.inj hc,
              encodeChar, toNat_charOfNat (by omega)]
            simp [hb]
      · cases hlead : lead b.toNat with
        | none =>
            have hbroken : none ∈ pieces (b :: rest) := by
              simp [pieces, piecesFrom, begin, hb, hlead]
            simp [h] at hbroken
        | some p =>
            have hpending : piecesFrom (some p) rest = cs.map some := by
              simpa [pieces, piecesFrom, begin, hb, hlead] using h
            obtain ⟨c, front, rest', cs', rfl, hc, rfl, hrest⟩ := exists_char_of_lead hlead hpending
            have hshort : rest'.length < n := by
              rw [← hn, List.length_cons, List.length_append]
              omega
            have hmore := ih rest'.length hshort hrest rfl
            rw [encodeChars, List.flatMap_cons, ← encodeChars, hmore, hc, List.cons_append]

theorem encode_of_decode? {bytes : Bytes} {s : String} (h : decode? bytes = some s) :
    encode s = bytes := by
  obtain ⟨cs, hcs, rfl⟩ := Option.map_eq_some_iff.mp h
  rw [encode, String.toList_ofList]
  exact encodeChars_of_pieces (decodeChars?_eq_some_iff.mp hcs)

end Utf8
end AssetPress
