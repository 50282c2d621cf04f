import AssetPress.Text.Fields
import AssetPress.Text.Utf8

/-!
# Paths

A path is a raw byte string; nothing is normalised when it is stored, joined or shown.  Two
readings of it are kept apart.  The *components* (`Path.components`) say when two paths are the
same (`Path.same`) and what a path's parent is (`Path.parent?`): empty components, a trailing
slash and every `.` but a leading one do not count.  The *steps* (`Path.steps`) say how a walk
through a file tree follows it.  Main statements: `join_bytes_of_relative` and
`joinPieces_split`.
-/

namespace AssetPress

/-- The byte that separates components. -/
def slash : UInt8 := 47

/-- The byte of which the components `.` and `..` are made. -/
def dot : UInt8 := 46

/-- A path, as the bytes it is written with. -/
structure Path where
  bytes : Bytes
  deriving DecidableEq, Repr

namespace Path

/-- The path a text spells. -/
def ofString (s : String) : Path := ⟨Utf8.encode s⟩

/-- The path as messages show it: broken parts become replacement characters. -/
def display (p : Path) : String := Utf8.lossy p.bytes

/-- Whether nothing is written. -/
def isEmpty (p : Path) : Bool := p.bytes.isEmpty

/-- Whether the path starts at the root. -/
def isAbsolute (p : Path) : Bool := p.bytes.head? == some slash

/-! ### Joining -/

/-- The path `right` seen from `left`: an absolute right side replaces the left one, otherwise one
slash stands between them unless the left side is empty or brings its own. -/
def join (left right : Path) : Path :=
  if right.isAbsolute then right
  else if left.bytes.isEmpty || left.bytes.getLast? == some slash then ⟨left.bytes ++ right.bytes⟩
  else ⟨left.bytes ++ slash :: right.bytes⟩

theorem join_bytes_of_relative {left right : Path} (h : right.isAbsolute = false) :
    ∃ sep, (sep = [] ∨ sep = [slash]) ∧
      (left.join right).bytes = left.bytes ++ sep ++ right.bytes := by
  unfold join
  rw [h]
  by_cases hl : (left.bytes.isEmpty || left.bytes.getLast? == some slash) = true
  · exact ⟨[], Or.inl rfl, by simp [hl]⟩
  · exact ⟨[slash], Or.inr rfl, by simp [hl]⟩

/-! ### Pieces between slashes -/

/-- The pieces between the slashes, empty ones included; there is always at least one. -/
def split (bytes : Bytes) : List Bytes := bytes.splitOn slash

/-- The bytes with the given pieces between slashes. -/
def joinPieces (pieces : List Bytes) : Bytes := [slash].intercalate pieces

theorem joinPieces_singleton (piece : Bytes) : joinPieces [piece] = piece :=
  List.intercalate_singleton

theorem split_ne_nil (bytes : Bytes) : split bytes ≠ [] := List.splitOn_ne_nil slash bytes

theorem joinPieces_split (bytes : Bytes) : joinPieces (split bytes) = bytes :=
  List.intercalate_splitOn slash

/-! ### Components -/

/-- What a path consists of when it is compared or climbed. -/
inductive Component where
  /-- The root, of an absolute path. -/
  | root
  /-- A leading `.` of a relative path. -/
  | here
  | up
  | name (bytes : Bytes)
  deriving DecidableEq, Repr

/-- The component a piece stands for, if it counts; `leading` holds of the first piece. -/
def Component.ofPiece? (leading : Bool) (piece : Bytes) : Option Component :=
  if piece = [] then none
  else if piece = [dot] then (if leading then some .here else none)
  else if piece = [dot, dot] then some .up
  else some (.name piece)

def components (p : Path) : List Component :=
  match split p.bytes with
  | [] => []
  | first :: more =>
      (if p.isAbsolute then [.root] else (Component.ofPiece? true first).toList) ++
        more.filterMap (Component.ofPiece? false)

def same (p q : Path) : Bool := p.components == q.components

/-- The beginnings of a path that end with a component that counts, longest first, from its
pieces in reverse order; each is cut right after its last component. -/
def stems : List Bytes → List Path
  | [] => []
  | [first] =>
      if (Component.ofPiece? true first).isSome then [⟨first⟩] else []
  | piece :: before =>
      if (Component.ofPiece? false piece).isSome then
        ⟨joinPieces (piece :: before).reverse⟩ :: stems before
      else stems before

/-- The stems of a path, the root included where it is absolute. -/
def allStems (p : Path) : List Path :=
  stems (split p.bytes).reverse ++ (if p.isAbsolute then [⟨[slash]⟩] else [])

/-- The path and everything above it, nearest first; a relative path does not reach above its
first component. -/
def lineage (p : Path) : List Path :=
  match p.allStems with
  | [] => []
  | _ :: above => p :: above

/-- The path with its last component taken off.  The root and the empty path have none. -/
def parent? (p : Path) : Option Path :=
  match p.allStems with
  | [] => none
  | [_] => if p.isAbsolute then none else some ⟨[]⟩
  | _ :: above :: _ => some above

end Path
end AssetPress
