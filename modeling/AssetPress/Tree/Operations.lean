import AssetPress.Tree.Walk

/-!
# Operations on file trees

What can be done to a tree through a path seen from a base directory: making a directory, testing
for one, reading and writing regular files, and listing.  Each operation resolves its path with
`Tree.resolve`; making and removing look only at the way to the last name, which they do not
follow.  Main statement: writing at a spot changes exactly that spot (`get?_writeSpot`).
-/

namespace AssetPress
namespace Tree

/-! ### Directories -/

/-- The directory in which the last name of a path stands, and that name. -/
def placeOf (t : Tree) (base : Location) (p : Path) : Except OsError (Location × Name) :=
  match p.refused? with
  | some why => .error why
  | none =>
      match t.walkToDir (p.start base) p.steps.dropLast with
      | .error why => .error why
      | .ok d =>
          match p.steps.getLast? with
          | some (.name n) => .ok (d, n)
          | some (.refused why) => .error why
          | _ => .error .alreadyExists

/-- Puts an entry where nothing stands yet. -/
def make (t : Tree) (base : Location) (p : Path) (e : Entry) : Except OsError Tree :=
  match t.placeOf base p with
  | .error why => .error why
  | .ok (d, n) => if (t.get? (d ++ [n])).isSome then .error .alreadyExists else .ok (t.insert d n e)

/-- Makes one directory.  Its place must be free, and the way there must exist; a slash behind
the name does not count. -/
def makeDir (t : Tree) (base : Location) (p : Path) : Except OsError Tree := t.make base p .dir

/-- Makes a link; nothing needs to stand at its target, and no slash may stand behind its name. -/
def makeLink (t : Tree) (base : Location) (p target : Path) : Except OsError Tree :=
  if p.endsWithSlash then .error .notFound else t.make base p (.link target)

/-- Removes an entry with everything below it.  A link is removed itself. -/
def remove (t : Tree) (base : Location) (p : Path) : Except OsError Tree :=
  match t.placeOf base p with
  | .error why => .error why
  | .ok (d, n) =>
      match t.get? (d ++ [n]) with
      | none => .error .notFound
      | some .dir => .ok (t.erase (d ++ [n]))
      | some _ => if p.endsWithSlash then .error .notDirectory else .ok (t.erase (d ++ [n]))

/-- Whether the path leads to a directory. -/
def isDir (t : Tree) (base : Location) (p : Path) : Bool :=
  match t.resolve base false p with
  | .ok (.dir _) => true
  | _ => false

/-! ### Files -/

/-- What reading gives at a spot. -/
def readSpot : Spot → Except OsError Bytes
  | .dir _ => .error .isDirectory
  | .file _ _ content => .ok content
  | .vacant _ _ => .error .notFound

/-- The tree after writing at a spot: a file there is replaced, a vacant spot is filled. -/
def writeSpot (t : Tree) (content : Bytes) : Spot → Except OsError Tree
  | .dir _ => .error .isDirectory
  | .file d n _ => .ok (t.insert d n (.file content))
  | .vacant d n => .ok (t.insert d n (.file content))

/-- The content of the regular file that the path leads to. -/
def read (t : Tree) (base : Location) (p : Path) : Except OsError Bytes :=
  t.resolve base false p >>= readSpot

/-- Writes a regular file where the path leads; its last name may be missing. -/
def write (t : Tree) (base : Location) (p : Path) (content : Bytes) : Except OsError Tree :=
  t.resolve base true p >>= t.writeSpot content

/-! ### Listing -/

/-- The entries of the directory that the path leads to; a regular file has none. -/
def list (t : Tree) (base : Location) (p : Path) : Except OsError (List (Name × Entry)) :=
  match t.resolve base false p with
  | .error why => .error why
  | .ok (.dir l) => .ok (t.children l)
  | .ok (.file _ _ _) => .ok []
  | .ok (.vacant _ _) => .error .notFound

/-- The path that leads from a directory to a location below it. -/
def pathBelow (names : Location) : Path := ⟨Path.joinPieces (names.map (·.bytes))⟩

/-- All entries below a directory with their paths from there, in the order of the paths. -/
def below (t : Tree) (base : Location) : List (Path × Entry) :=
  let found := t.entries.filterMap fun (l, e) =>
    if base.isPrefixOf l && l.length != base.length then some (pathBelow (l.drop base.length), e)
    else none
  found.mergeSort fun a b => decide (a.1.bytes ≤ b.1.bytes)

/-! ### Laws -/

theorem childless_of_not_dir {t : Tree} {l : Location} (h : t.get? l ≠ some .dir) :
    t.childless l = true := by
  refine childless_iff.mpr fun n => ?_
  cases hn : t.entries.lookup (l ++ [n]) with
  | none => rfl
  | some e =>
      refine absurd (get?_of_child (n := n) ?_) h
      rw [get?_of_ne_nil t (by simp), hn]
      rfl

theorem accepts_of_holds {t : Tree} {d : Location} {n : Name} {e : Entry}
    (hd : t.get? d = some .dir) (hn : t.get? (d ++ [n]) ≠ some .dir) : t.Accepts d n e :=
  ⟨hd, Or.inr (childless_of_not_dir hn)⟩

theorem get?_of_file {t : Tree} {d : Location} {n : Name} {content : Bytes}
    (h : (Spot.file d n content).Holds t) : t.get? d = some .dir :=
  get?_of_child (n := n) (by rw [show t.get? (d ++ [n]) = _ from h]; rfl)

/-- After writing at a spot exactly that spot differs, and it holds the content. -/
theorem get?_writeSpot {t u : Tree} {spot : Spot} {content : Bytes} (hs : spot.Holds t)
    (h : t.writeSpot content spot = .ok u) : ∃ d n,
      (spot = .vacant d n ∨ ∃ old, spot = .file d n old) ∧
        ∀ l, u.get? l = if l = d ++ [n] then some (.file content) else t.get? l := by
  cases spot with
  | dir l => cases h
  | file d n old =>
      cases h
      refine ⟨d, n, Or.inr ⟨old, rfl⟩, get?_insert (accepts_of_holds (get?_of_file hs) ?_)⟩
      rw [show t.get? (d ++ [n]) = _ from hs]
      simp
  | vacant d n =>
      cases h
      refine ⟨d, n, Or.inl rfl, get?_insert (accepts_of_holds hs.1 ?_)⟩
      rw [hs.2]
      simp

end Tree
end AssetPress
