import AssetPress.Script.Syntax

/-!
# Places to assign to

An expression that has been read remembers where it stands, and what it is as the left side of an
assignment: a name and a member can be assigned to, and so can arrays and objects that hold nothing
but names, such arrays and objects, and assignments to them.  Main statement:
`Phrase.misfit?_eq_none_iff`, which says when an expression may stand in front of an assignment.
-/

namespace AssetPress
namespace Script

/-- A stretch of a script: how many characters stand in front of it, and up to its end.  They are
counted only where a message asks for them. -/
structure Stretch where
  start : Unit → Nat
  stop : Unit → Nat

def Stretch.cut (s : Stretch) (script : List Char) : List Char :=
  (script.drop (s.start ())).take (s.stop () - s.start ())

/-- The stretch from the beginning of one to the end of another. -/
def Stretch.to (s e : Stretch) : Stretch := ⟨s.start, e.stop⟩

/-- What an expression is as the left side of an assignment. -/
inductive Target where
  | name
  | member
  /-- An array or an object, or a field of one, with what is no target in it. -/
  | pattern (misfit : Option Stretch)
  /-- The items of a pattern that are left. -/
  | rest (misfit : Option Stretch)
  /-- An assignment, with what is no target inside a pattern. -/
  | assigned (misfit : Option Stretch)
  /-- Another operator between two expressions. -/
  | operation
  | value

/-- An expression that has been read, where it stands and what it is as a target. -/
structure Phrase where
  expr : Expr
  place : Stretch
  target : Target

namespace Phrase

/-- A value that is no target. -/
def ofValue (expr : Expr) (place : Stretch) : Phrase := ⟨expr, place, .value⟩

/-- What keeps an expression from being a part of the pattern that stands around it. -/
def misfitInside? (p : Phrase) (around : Stretch) : Option Stretch :=
  match p.target with
  | .name => none
  | .pattern misfit | .rest misfit | .assigned misfit => misfit
  | .operation => some around
  | .member | .value => some p.place

/-- Whether an expression stands for the items that are left. -/
def isRest (p : Phrase) : Bool :=
  match p.target with
  | .rest _ => true
  | _ => false

/-- What keeps parts from making a pattern; nothing follows the items that are left. -/
def misfitAmong? (around : Stretch) : List Phrase → Option Stretch
  | [] => none
  | p :: more =>
      ((p.misfitInside? around).or (if p.isRest && !more.isEmpty then some around else none)).or
        (misfitAmong? around more)

/-- What keeps an expression from being assigned to by an operator; only the plain one fills
patterns. -/
def misfit? (p : Phrase) (operator : Operator) : Option Stretch :=
  match p.target with
  | .name | .member => none
  | .pattern misfit => if operator = .assign then misfit else some p.place
  | _ => some p.place

/-- An operator between two expressions. -/
def binary (operator : Operator) (left right : Phrase) : Phrase :=
  let target :=
    if operator = .assign then .assigned (left.misfitInside? left.place) else .operation
  ⟨.binary false operator left.expr right.expr, left.place.to right.place, target⟩

/-- An expression in parentheses; an assignment there is no part of a pattern. -/
def enclose (p : Phrase) : Phrase :=
  let target := match p.target with
    | .assigned _ => .operation
    | target => target
  ⟨p.expr.enclose, p.place, target⟩

/-! ### Laws -/

/-- An expression may stand in front of an assignment if it is a name, a member or, in front of the
plain one, a pattern. -/
theorem misfit?_eq_none_iff {p : Phrase} {operator : Operator} :
    p.misfit? operator = none ↔ p.target = .name ∨ p.target = .member ∨
      (p.target = .pattern none ∧ operator = .assign) := by
  unfold misfit?
  cases p.target <;> simp
  split <;> simp_all

end Phrase
end Script
end AssetPress
