import AssetPress.Path

/-!
# The order of script sources

Scripts are put together in a fixed order: a file may use what an earlier one defines, never what
a later one does.  Nothing is sorted or discovered; the list is the order.  Main statement:
`position?_eq_some_iff`.
-/

namespace AssetPress

/-- Names of script sources, each after everything it depends on. -/
structure SourceOrder where
  files : List String
  deriving DecidableEq, Repr

namespace SourceOrder

/-- The sources of the library. -/
def standard : SourceOrder :=
  ⟨["Pete.prototype.js", "Pete.js", "Pete.Element.js", "Pete.Composite.js", "Pete.Observer.js"]⟩

def size (o : SourceOrder) : Nat := o.files.length

def isEmpty (o : SourceOrder) : Bool := o.files.isEmpty

/-- Where a name stands first. -/
def position? (o : SourceOrder) (name : String) : Option Nat := o.files.idxOf? name

/-- The paths of the sources in a directory. -/
def pathsIn (o : SourceOrder) (dir : Path) : List Path :=
  o.files.map fun f => dir.join (.ofString f)

/-! ### Laws -/

theorem length_pathsIn (o : SourceOrder) (dir : Path) : (o.pathsIn dir).length = o.size := by
  simp [pathsIn, size]

/-- A position is that of the name itself, and the name does not stand before it. -/
theorem position?_eq_some_iff {o : SourceOrder} {name : String} {i : Nat} :
    o.position? name = some i ↔
      o.files[i]? = some name ∧ ∀ j < i, o.files[j]? ≠ some name := by
  unfold position?
  rw [ List.idxOf?, List.findIdx?_eq_some_iff_getElem]
  constructor
  · rintro ⟨hi, hname, hbefore⟩
    refine ⟨by rw [List.getElem?_eq_getElem hi, beq_iff_eq.mp hname], fun j hj heq => ?_⟩
    obtain ⟨hj', hjname⟩ := List.getElem?_eq_some_iff.mp heq
    exact hbefore j hj (beq_iff_eq.mpr hjname)
  · rintro ⟨hname, hbefore⟩
    obtain ⟨hi, hiname⟩ := List.getElem?_eq_some_iff.mp hname
    refine ⟨hi, beq_iff_eq.mpr hiname, fun j hj heq => hbefore j hj ?_⟩
    rw [List.getElem?_eq_getElem (Nat.lt_trans hj hi), beq_iff_eq.mp heq]

end SourceOrder
end AssetPress
