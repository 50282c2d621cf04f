import AssetPress.Script.Cursor

/-!
# Readings

A reading of a part of a script is a tree: it ends with a value or gives up, or it takes a step or
calls a routine and goes on with what that finds.  Routines are the parts of the grammar that
contain one another; a run is given a bound on how deeply they may be nested.  What holds of every
step holds of every reading, whatever the grammar.
-/

namespace AssetPress
namespace Script

/-- The parts of the grammar that contain one another, each with what it reads. -/
inductive Routine : Type → Type where
  /-- An expression whose operators bind at least as strongly as `low`. -/
  | expr (low : Nat) (ending : Ending) : Routine Phrase
  /-- What goes on behind `left`. -/
  | rest (low : Nat) (ending : Ending) (left : Phrase) : Routine Phrase
  /-- A value with the operators that precede it. -/
  | operand (ending : Ending) : Routine Phrase
  /-- Expressions between commas, up to a closing mark; arrays may have holes. -/
  | items (close : String) : Routine (List Phrase × Sight)
  /-- Expressions or parameters between commas, up to a closing parenthesis. -/
  | group (loose : Bool) : Routine (List Phrase × Sight)
  /-- Fields between commas, up to a closing brace. -/
  | fields : Routine (List Phrase × Sight)
  /-- The expressions in a template behind one of its parts, with the parts behind them, and the
  last part. -/
  | parts (t : Sight) : Routine (List (Expr × List Char) × Sight)
  /-- What parameters introduce, up to a closing parenthesis. -/
  | parameters : Routine (List Expr)
  /-- The name or the pattern that a declaration or a parameter introduces. -/
  | pattern : Routine Expr
  /-- The patterns in an array, up to its closing bracket. -/
  | itemPatterns : Routine (List Expr)
  /-- The patterns in an object, up to its closing brace. -/
  | fieldPatterns : Routine (List Expr)
  | statement : Routine Statement
  /-- The statements of a block, up to its closing brace. -/
  | body : Routine (List Statement × Sight)
  /-- What a declaration introduces, up to the end of the statement. -/
  | declarations : Routine (List Expr)
  /-- What a declaration at the start of a loop introduces. -/
  | loopNames : Routine (List Expr)
  /-- Branches, up to a closing brace. -/
  | branches : Routine (List Statement)
  /-- The statements of a branch, up to the next one. -/
  | branchBody : Routine (List Statement)

/-- A reading of a part of a script. -/
inductive Reading (α : Type) : Type 1 where
  | done (value : α)
  /-- Gives up at a stretch of the text. -/
  | fail (problem : Problem) (token : Option Kind) (place : Stretch)
  | step {β : Type} (s : Step β) (next : β → Reading α)
  | call {β : Type} (r : Routine β) (next : β → Reading α)

namespace Reading

/-- One reading after another. -/
def bind {α β : Type} : Reading α → (α → Reading β) → Reading β
  | done value, k => k value
  | fail problem token place, _ => fail problem token place
  | step s next, k => step s fun found => (next found).bind k
  | call r next, k => call r fun found => (next found).bind k

instance : Monad Reading where
  pure := done
  bind := bind

/-- The value of a reading and the place where it ends, with what routines make of their places. -/
def run {α : Type} (ends : Bool)
    (answer : {β : Type} → Routine β → Cursor → Except Fault (β × Cursor)) :
    Reading α → Cursor → Except Fault (α × Cursor)
  | done value, c => .ok (value, c)
  | fail problem token place, c => .error ⟨problem, token, place.cut c.script⟩
  | step s next, c => do
      let (found, c) ← s.run ends c
      (next found).run ends answer c
  | call r next, c => do
      let (found, c) ← answer r c
      (next found).run ends answer c

/-! ### Steps -/

def take {β : Type} (s : Step β) : Reading β := step s done

def look (problem : Problem) : Reading Sight := take (.look problem)

def skip : Reading Unit := take .skip

/-- Whether the next token is of a kind with which no statement begins. -/
def nextIs (kind : Kind) (link : kind.isLink = true := by decide) : Reading Bool :=
  take (.nextIs kind link)

def giveUp {α : Type} (t : Sight) (problem : Problem) : Reading α := fail problem t.kind t.place

def giveUpAt {α : Type} (place : Stretch) (problem : Problem) : Reading α :=
  fail problem none place

/-- Passes over the next token if it is of the given kind. -/
def accept (kind : Kind) (link : kind.isLink = true := by decide) : Reading Bool := do
  let found ← nextIs kind link
  if found then skip
  return found

/-- Passes over the next token, which must be of the given kind. -/
def require (kind : Kind) : Reading Sight := do
  let t ← look (.required kind)
  if t.kind = kind then
    skip
    return t
  else giveUp t (.required kind)

/-- Passes over the next token, which must be one of the given kinds. -/
def requireSome (fits : Kind → Bool) (what : Expectation) : Reading Sight := do
  let t ← look (.expected what)
  if fits t.kind then
    skip
    return t
  else giveUp t (.expected what)

end Reading
end Script
end AssetPress
