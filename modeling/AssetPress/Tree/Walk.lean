import AssetPress.Tree.Basic

/-!
# Following a path through a tree

A path is walked step by step from the root or from a base directory.  A link on the way is
replaced by the steps of its target, at most `maxLinks` times in one walk; the last name may be
missing, in which case the walk ends at a vacant spot.  Main statements: a walk that meets no
link does not depend on how many links it may follow (`walk_eq_of_noLinks`), and every spot it
reaches is described truly (`Spot.Holds`, `holds_of_walk`).
-/

namespace AssetPress

/-- Why an operation on a path is refused. -/
inductive OsError where
  | notFound
  | alreadyExists
  | notDirectory
  | isDirectory
  | nameTooLong
  | tooManyLinks
  /-- The path holds a zero byte, so it cannot even be handed to the system. -/
  | zeroByte
  /-- A failure of the machine that no tree has, in its own words. -/
  | other (text : String)
  deriving DecidableEq, Repr

/-- The text for an error, with the system's number for it where it has one. -/
def OsError.message : OsError → String
  | notFound => "No such file or directory (os error 2)"
  | alreadyExists => "File exists (os error 17)"
  | notDirectory => "Not a directory (os error 20)"
  | isDirectory => "Is a directory (os error 21)"
  | nameTooLong => "File name too long (os error 36)"
  | tooManyLinks => "Too many levels of symbolic links (os error 40)"
  | zeroByte => "file name contained an unexpected NUL byte"
  | other text => text

/-! ### Steps -/

/-- One step of a walk. -/
inductive Step where
  | stay
  | up
  | name (n : Name)
  /-- A component that no entry can bear. -/
  | refused (why : OsError)
  deriving DecidableEq, Repr

/-- The step a piece between slashes stands for. -/
def Step.ofPiece (piece : Bytes) : Step :=
  if piece = [dot] then .stay
  else if piece = [dot, dot] then .up
  else
    match Name.ofBytes? piece with
    | some n => .name n
    | none => .refused (if 0 ∈ piece then .zeroByte else .nameTooLong)

namespace Path

/-- The steps of a path; nothing between two slashes is no step. -/
def steps (p : Path) : List Step :=
  ((split p.bytes).filter fun piece => !piece.isEmpty).map Step.ofPiece

/-- Whether the path ends in a slash, so that only a directory will do. -/
def endsWithSlash (p : Path) : Bool := p.bytes.getLast? == some slash

/-- The directory where a walk starts. -/
def start (p : Path) (base : Location) : Location := if p.isAbsolute then [] else base

/-- Paths of this many bytes and more are refused. -/
def maxLength : Nat := 4096

/-- Why a path cannot be walked whatever the tree holds. -/
def refused? (p : Path) : Option OsError :=
  if 0 ∈ p.bytes then some .zeroByte
  else if maxLength ≤ p.bytes.length then some .nameTooLong
  else if p.bytes = [] then some .notFound
  else none

end Path

namespace Tree

/-! ### Walking -/

/-- Where a walk ends. -/
inductive Spot where
  | dir (l : Location)
  /-- A regular file, as name `n` of directory `d`. -/
  | file (d : Location) (n : Name) (content : Bytes)
  /-- Nothing: directory `d` has no entry `n`. -/
  | vacant (d : Location) (n : Name)
  deriving DecidableEq, Repr

/-- The most links that one walk follows. -/
def maxLinks : Nat := 40

/-- A walk that hands every link to `follow`, with the directory of the link, its target, the
steps still to go and whether only a directory will do.  A walk that may create its last name
refuses a slash behind it. -/
def walkWith (t : Tree) (creating : Bool)
    (follow : Location → Path → List Step → Bool → Except OsError Spot) (strict : Bool) :
    Location → List Step → Except OsError Spot
  | d, [] => .ok (.dir d)
  | d, .stay :: rest => walkWith t creating follow strict d rest
  | d, .up :: rest => walkWith t creating follow strict d.parent rest
  | _, .refused why :: rest =>
      if creating && strict && rest.isEmpty then .error .isDirectory else .error why
  | d, .name n :: rest =>
      if creating && strict && rest.isEmpty then .error .isDirectory
      else
        match t.get? (d ++ [n]) with
        | none => if rest.isEmpty then .ok (.vacant d n) else .error .notFound
        | some .dir => walkWith t creating follow strict (d ++ [n]) rest
        | some (.file content) =>
            if rest.isEmpty && !strict then .ok (.file d n content) else .error .notDirectory
        | some (.link target) => follow d target rest strict

/-- A walk from directory `d` that follows at most `links` links. -/
def walk (t : Tree) (creating : Bool) : (links : Nat) → (strict : Bool) → Location → List Step →
    Except OsError Spot
  | 0 => walkWith t creating fun _ _ _ _ => .error .tooManyLinks
  | links + 1 => walkWith t creating fun d target rest strict =>
      walk t creating links (strict || rest.isEmpty && target.endsWithSlash) (target.start d)
        (target.steps ++ rest)

/-- Where path `p` leads, seen from directory `base`; links are followed to their ends. -/
def resolve (t : Tree) (base : Location) (creating : Bool) (p : Path) : Except OsError Spot :=
  match p.refused? with
  | some why => .error why
  | none => t.walk creating maxLinks p.endsWithSlash (p.start base) p.steps

/-- The directory that the given steps lead to. -/
def walkToDir (t : Tree) (d : Location) (steps : List Step) : Except OsError Location :=
  match t.walk false maxLinks true d steps with
  | .error why => .error why
  | .ok (.dir l) => .ok l
  | .ok (.file _ _ _) => .error .notDirectory
  | .ok (.vacant _ _) => .error .notFound

/-! ### What a walk finds -/

/-- What a spot says about a tree. -/
def Spot.Holds (t : Tree) : Spot → Prop
  | .dir l => t.get? l = some .dir
  | .file d n content => t.get? (d ++ [n]) = some (.file content)
  | .vacant d n => t.get? d = some .dir ∧ t.get? (d ++ [n]) = none

theorem get?_parent {t : Tree} {l : Location} (h : t.get? l = some .dir) :
    t.get? l.parent = some .dir := by
  unfold Location.parent
  by_cases hnil : l = []
  · subst hnil
    exact h
  · have hsplit := List.dropLast_concat_getLast hnil
    rw [← hsplit] at h
    exact get?_of_child (n := l.getLast hnil) (by rw [h]; rfl)

theorem holds_of_walkWith {t : Tree} {creating strict : Bool}
    {follow : Location → Path → List Step → Bool → Except OsError Spot}
    (hfollow : ∀ d target rest strict spot, t.get? d = some .dir →
      follow d target rest strict = .ok spot → spot.Holds t)
    {d : Location} {steps : List Step} {spot : Spot} (hd : t.get? d = some .dir)
    (h : t.walkWith creating follow strict d steps = .ok spot) : spot.Holds t := by
  induction steps generalizing d with
  | nil =>
      cases h
      exact hd
  | cons s rest ih =>
      cases s with
      | stay => exact ih hd h
      | up => exact ih (get?_parent hd) h
      | refused why =>
          unfold walkWith at h
          split at h <;> cases h
      | name n =>
          unfold walkWith at h
          split at h
          · cases h
          · split at h
            case _ hnone =>
              split at h
              · cases h
                exact ⟨hd, hnone⟩
              · cases h
            case _ hdir => exact ih hdir h
            case _ hfile =>
              split at h
              · cases h
                exact hfile
              · cases h
            case _ => exact hfollow _ _ _ _ _ hd h

theorem get?_start {t : Tree} {d : Location} (h : t.get? d = some .dir) (p : Path) :
    t.get? (p.start d) = some .dir := by
  unfold Path.start
  split
  · rfl
  · exact h

theorem holds_of_walk {t : Tree} {creating strict : Bool} {links : Nat} {d : Location}
    {steps : List Step} {spot : Spot} (hd : t.get? d = some .dir)
    (h : t.walk creating links strict d steps = .ok spot) : spot.Holds t := by
  induction links generalizing strict d steps spot with
  | zero =>
      refine holds_of_walkWith (fun _ _ _ _ _ _ hf => ?_) hd h
      cases hf
  | succ links ih =>
      exact holds_of_walkWith (fun _ target _ _ _ hd' hf => ih (get?_start hd' target) hf) hd h

/-- No entry of the tree is a link. -/
def NoLinks (t : Tree) : Prop := ∀ l target, t.get? l ≠ some (.link target)

theorem walkWith_eq_of_noLinks {t : Tree} (ht : t.NoLinks) {creating strict : Bool}
    (follow follow' : Location → Path → List Step → Bool → Except OsError Spot)
    (d : Location) (steps : List Step) :
    t.walkWith creating follow strict d steps = t.walkWith creating follow' strict d steps := by
  induction steps generalizing d with
  | nil => rfl
  | cons s rest ih =>
      cases s with
      | stay => exact ih d
      | up => exact ih d.parent
      | refused why => rfl
      | name n =>
          unfold walkWith
          cases hn : t.get? (d ++ [n]) with
          | none => rfl
          | some e =>
              cases e with
              | dir => simp only [ih]
              | file content => rfl
              | link target => exact absurd hn (ht _ _)

/-- Without links it does not matter how many may be followed. -/
theorem walk_eq_of_noLinks {t : Tree} (ht : t.NoLinks) {creating strict : Bool} (links : Nat)
    (d : Location) (steps : List Step) :
    t.walk creating links strict d steps = t.walk creating 0 strict d steps := by
  cases links with
  | zero => rfl
  | succ links => exact walkWith_eq_of_noLinks ht _ _ d steps

end Tree
end AssetPress
