import AssetPress.Path

/-!
# Names and locations

A *name* is what a directory entry can bear: between one and 255 bytes, neither `.` nor `..`, with
no slash and no zero byte.  A *location* is where an entry stands in a file tree: the names on
the way down from the root.  Both are ordered byte by byte; the order is total (`Location.lt_trans`,
`Location.lt_irrefl`, `Location.lt_of_not`), so a list of entries has one sorted form.
-/

namespace AssetPress

/-- The longest name, in bytes. -/
def Name.maxLength : Nat := 255

/-- Whether a directory entry can bear these bytes as its name. -/
def Name.Valid (bytes : Bytes) : Prop :=
  bytes ≠ [] ∧ bytes ≠ [dot] ∧ bytes ≠ [dot, dot] ∧ slash ∉ bytes ∧ 0 ∉ bytes ∧
    bytes.length ≤ Name.maxLength

instance (bytes : Bytes) : Decidable (Name.Valid bytes) := by
  unfold Name.Valid
  infer_instance

/-- The name of a directory entry. -/
structure Name where
  bytes : Bytes
  valid : Name.Valid bytes
  deriving DecidableEq, Repr

namespace Name

/-- The name with these bytes, if an entry can bear it. -/
def ofBytes? (bytes : Bytes) : Option Name :=
  if h : Valid bytes then some ⟨bytes, h⟩ else none

theorem ofBytes?_bytes (n : Name) : ofBytes? n.bytes = some n := by
  simp [ofBytes?, n.valid]

theorem bytes_of_ofBytes? {bytes : Bytes} {n : Name} (h : ofBytes? bytes = some n) :
    n.bytes = bytes := by
  unfold ofBytes? at h
  split at h
  · cases h; rfl
  · cases h

theorem ext {m n : Name} (h : m.bytes = n.bytes) : m = n := by
  cases m; cases n; cases h; rfl

/-- Names are ordered byte by byte. -/
instance : LT Name := ⟨fun m n => m.bytes < n.bytes⟩

instance : DecidableLT Name := fun m n => inferInstanceAs (Decidable (m.bytes < n.bytes))

theorem lt_irrefl (n : Name) : ¬ n < n := List.lt_irrefl n.bytes

theorem lt_trans {l m n : Name} (h₁ : l < m) (h₂ : m < n) : l < n :=
  (List.lt_trans h₁ h₂ : l.bytes < n.bytes)

theorem lt_asymm {m n : Name} (h : m < n) : ¬ n < m := fun h' => lt_irrefl m (lt_trans h h')

theorem lt_of_not {m n : Name} (h : ¬ m < n) (hne : m ≠ n) : n < m := by
  have hle : n.bytes ≤ m.bytes := List.not_lt.mp h
  rcases List.le_iff_lt_or_eq.mp hle with h' | h'
  · exact h'
  · exact absurd (ext h'.symm) hne

instance : Std.Irrefl (α := Name) (· < ·) := ⟨lt_irrefl⟩

instance : Std.Asymm (α := Name) (· < ·) := ⟨fun _ _ => lt_asymm⟩

instance : Std.Trichotomous (α := Name) (· < ·) :=
  ⟨fun _ _ h₁ h₂ => Decidable.byContradiction fun hne => h₂ (lt_of_not h₁ hne)⟩

instance : Trans (· < · : Name → Name → Prop) (· < ·) (· < ·) := ⟨lt_trans⟩

end Name

/-- Where an entry stands: the names on the way down from the root, the root's own location
being empty. -/
abbrev Location := List Name

namespace Location

/-- The location of the directory that holds this one; the root holds itself. -/
def parent (l : Location) : Location := l.dropLast

theorem lt_irrefl (l : Location) : ¬ l < l := List.lt_irrefl l

theorem lt_trans {k l m : Location} (h₁ : k < l) (h₂ : l < m) : k < m := List.lt_trans h₁ h₂

theorem lt_of_not {k l : Location} (h : ¬ k < l) (hne : k ≠ l) : l < k := by
  rcases List.le_iff_lt_or_eq.mp (List.not_lt.mp h) with h' | h'
  · exact h'
  · exact absurd h'.symm hne

theorem ne_append_name (l : Location) (n : Name) : l ≠ l ++ [n] := by
  intro h
  have := congrArg List.length h
  simp at this

theorem append_name_inj {d d' : Location} {m n : Name} (h : d ++ [m] = d' ++ [n]) :
    d = d' ∧ m = n := by
  obtain ⟨hd, hn⟩ := List.append_inj' h rfl
  exact ⟨hd, List.singleton_inj.mp hn⟩

end Location
end AssetPress
