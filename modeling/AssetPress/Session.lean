import AssetPress.Press
import AssetPress.Tree.Operations

/-!
# Working in a file tree

A workbench whose files are a tree in memory, as seen from a base directory, and whose log is a
list of events.  A session holds both; everything a press does is a step from session to session.
-/

namespace AssetPress

/-- A file tree and what has been logged so far. -/
structure Session where
  tree : Tree
  events : List Event

namespace Session

/-- The session in which nothing has been logged. -/
def ofTree (t : Tree) : Session := ⟨t, []⟩

/-- Changes the tree, unless the change is refused. -/
def change (f : Tree → Except OsError Tree) : ExceptT OsError (StateM Session) Unit :=
  fun s =>
    match f s.tree with
    | .error why => (.error why, s)
    | .ok t => (.ok (), { s with tree := t })

/-- Looks something up in the tree. -/
def look {α : Type} (f : Tree → Except OsError α) : ExceptT OsError (StateM Session) α :=
  fun s => (f s.tree, s)

/-- What a listing tells about an entry. -/
def listed : Name × Entry → Listed
  | (n, .file _) => ⟨n.bytes, true⟩
  | (n, _) => ⟨n.bytes, false⟩

/-- The files of a session's tree, as seen from directory `base`. -/
def disk (base : Location) : Disk (StateM Session) where
  makeDir p := change fun t => t.makeDir base p
  isDir p := fun s => (s.tree.isDir base p, s)
  read p := look fun t => t.read base p
  write p content := change fun t => t.write base p content
  list p := look fun t => return (← t.list base p).map listed

def log (e : Event) : StateM Session Unit := fun s => ((), { s with events := s.events ++ [e] })

/-- The workbench that is a session, as seen from directory `base`. -/
def workbench (base : Location) (minify : Minifier := .standard) : Workbench (StateM Session) :=
  ⟨disk base, log, minify⟩

end Session
end AssetPress
