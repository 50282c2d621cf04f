import AssetPress.Script.Fault
import AssetPress.Script.Target

/-!
# Looking at tokens

What reads a part of a script moves from token to token, and sees of each of them what it is, how
it is written, whether a line ended before it and where it stands in the statement at hand.  It has
a fixed set of steps (`Step`): it looks at the next token or at the one behind that, passes over
one, and asks whether an expression goes on or a statement ends.  A step that comes to a place
where the text cannot be read on gives up there.

The end of the text is a token, too.  It ends an expression that could go on, as a line end does;
`ends` is false in a reading that asks whether a text relies on that.
-/

namespace AssetPress
namespace Script

/-! ### Sights -/

/-- What is seen of a token. -/
structure Sight where
  kind : Kind
  text : List Char
  afterLineEnd : Bool
  place : Stretch

/-- The expression that a token stands for by itself. -/
def Sight.value? (t : Sight) : Except Problem Expr :=
  match t.kind with
  | .number =>
      match readNumber? t.text with
      | some d => .ok (.literal (.number (printNumber d)))
      | none => .error .badNumber
  | .bigNumber => .ok (.literal (.number t.text))
  | .string =>
      match unescape? t.text.tail.dropLast with
      | some content => .ok (.literal (.string content))
      | none => .error .badEscape
  | .pattern => .ok (.literal (.pattern t.text))
  | .keyword "this" => .ok .this
  | .keyword "super" => .ok .super
  | .keyword "true" => .ok (.literal (.truth true))
  | .keyword "false" => .ok (.literal (.truth false))
  | .keyword "null" => .ok (.literal .null)
  | _ => .error (.expected .operand)

/-- Whether a word in front of a token of the kind is the name of a field itself, and tells nothing
of how the field behaves. -/
def Kind.endsKey (kind : Kind) : Bool :=
  match kind with
  | .mark m => [":", ",", "\x7d", "(", "=", ";"].contains m
  | _ => false

/-- How an expression goes on behind a value. -/
inductive Continuation where
  | call (optional : Bool)
  | index (optional : Bool)
  | member (optional : Bool)
  | choice
  /-- An operator behind its operand. -/
  | behind
  /-- A template, whose parts are handed to the value. -/
  | template
  | operation (operator : Operator)
  deriving DecidableEq, Repr

/-- How an expression goes on at a token, if it does. -/
def Sight.continuation? (t : Sight) : Option Continuation :=
  match t.kind with
  | .mark "(" => some (.call false)
  | .mark "?.(" => some (.call true)
  | .mark "[" => some (.index false)
  | .mark "?.[" => some (.index true)
  | .mark "." => some (.member false)
  | .mark "?." => some (.member true)
  | .mark "?" => some .choice
  | .mark "++" | .mark "--" => if t.afterLineEnd then none else some .behind
  | .templatePart _ => if t.afterLineEnd then none else some .template
  | kind => (Operator.ofKind? kind).map .operation

/-- Marks and words with which no statement begins. -/
def Kind.isLink : Kind → Bool
  | .mark m => [",", "*", "...", "=", ":", "=>", ")", "]", "\x7d"].contains m
  | .keyword word => ["else", "catch", "finally", "default"].contains word
  | _ => false

/-- Where an expression ends: at which marks, and whether it may end without one. -/
structure Ending where
  stops : List String
  loose : Bool

namespace Ending

/-- The end of an expression that is a statement. -/
def statement : Ending := ⟨[";"], true⟩

/-- The end of an expression in front of certain marks. -/
def before (marks : List String) : Ending := ⟨marks, false⟩

def stopsAt (ending : Ending) : Kind → Bool
  | .mark m => ending.stops.contains m
  | _ => false

end Ending

/-! ### Cursors -/

/-- A place in a script: the script from the beginning of the statement at hand on, the next token,
and whether a statement ends in front of that. -/
structure Cursor where
  script : List Char
  token : Token
  isOver : Bool
  deriving DecidableEq, Repr

namespace Cursor

/-- What is seen of a token from here. -/
def sightOf (c : Cursor) (t : Token) : Sight :=
  ⟨t.kind, t.text, t.afterLineEnd,
    ⟨fun _ => c.script.length - t.start.length, fun _ => c.script.length - t.stop.length⟩⟩

def sight (c : Cursor) : Sight :=
  { c.sightOf c.token with afterLineEnd := c.token.afterLineEnd || c.isOver }

def atEnd (c : Cursor) : Bool := c.token.kind == .endOfText

/-- Whether a statement may end here without a semicolon. -/
def endsStatement (c : Cursor) : Bool := c.isOver || c.token.endsStatement

/-- How an expression goes on here, if it does; it does not behind the end of a statement. -/
def continuation? (c : Cursor) : Option Continuation :=
  if c.isOver then none else c.sight.continuation?

/-- Whether an expression may end here without a mark; `ends` tells whether it may do so at the end
of the text. -/
def endsExpression (ends : Bool) (ending : Ending) (c : Cursor) : Bool :=
  ending.loose && c.endsStatement && (ends || !c.atEnd)

/-- How an expression goes on here, if it does not end. -/
def goOn (ends : Bool) (ending : Ending) (c : Cursor) :
    Except Fault (Option (Sight × Continuation)) :=
  if ending.stopsAt c.token.kind then .ok none
  else
    match c.continuation? with
    | some continuation => .ok (some (c.sight, continuation))
    | none =>
        if c.endsExpression ends ending then .ok none
        else .error (c.token.misfit (.expected .operator))

/-- Whether a statement ends in front of the next token or at a semicolon there; if a problem is
given, the end of the text will not do without a line end. -/
def statementEnds (atEnd : Option Problem) (c : Cursor) : Except Fault Bool :=
  if atEnd.isSome && c.atEnd && !c.sight.afterLineEnd then
    .error (c.token.misfit (atEnd.getD (.expected .operand)))
  else .ok (c.token.kind == .mark ";" || c.endsStatement)

/-- The end of a statement in front of the next token; if a problem is given, only a line end will
do. -/
def endHere (otherwise : Option Problem) (c : Cursor) : Except Fault Cursor :=
  if otherwise.isNone || c.sight.afterLineEnd then .ok { c with isOver := true }
  else .error (c.token.misfit (otherwise.getD (.expected .operator)))

def moveTo (c : Cursor) (t : Token) : Cursor := ⟨c.script, t, false⟩

/-- The place at the beginning of a statement. -/
def restart (c : Cursor) : Cursor :=
  ⟨c.token.start, { c.token with afterLineEnd := true }, true⟩

end Cursor

def Token.whole (t : Token) : Except Fault Token :=
  if t.kind.isBroken then .error (t.misfit (.expected .operand)) else .ok t

theorem Token.whole_eq_ok_iff {t t' : Token} :
    t.whole = .ok t' ↔ t.kind.isBroken = false ∧ t' = t := by
  unfold whole
  split
  case isTrue h => simp [h]
  case isFalse h => simp [Bool.eq_false_iff.mpr h, eq_comm]

def Cursor.ofText (text : List Char) : Except Fault Cursor := do
  let t ← (Token.next text).whole
  return ⟨t.start, t, true⟩

def Cursor.behind (c : Cursor) : Except Fault Token :=
  if c.atEnd then .error (c.token.misfit (.expected .operand))
  else (Token.next c.token.stop).whole

theorem Cursor.behind_eq_ok_iff {c : Cursor} {t : Token} :
    c.behind = .ok t ↔
      c.atEnd = false ∧ (Token.next c.token.stop).kind.isBroken = false ∧
        t = Token.next c.token.stop := by
  unfold behind
  split
  case isTrue h => simp [h]
  case isFalse h => simp [Bool.eq_false_iff.mpr h, Token.whole_eq_ok_iff]

theorem Cursor.endHere_eq_ok_iff {otherwise : Option Problem} {c c' : Cursor} :
    c.endHere otherwise = .ok c' ↔
      (otherwise.isNone || c.sight.afterLineEnd) = true ∧ c' = { c with isOver := true } := by
  unfold endHere
  split
  case isTrue h => simp [h, eq_comm]
  case isFalse h => simp [h]

/-! ### Steps -/

/-- A step of a reading, with what it finds. -/
inductive Step : Type → Type where
  /-- The next token, which must not be the end of the text. -/
  | look (problem : Problem) : Step Sight
  /-- The next token where an operand is expected, which must not be the end of the text. -/
  | lookOperand : Step Sight
  /-- Whether the next token is of a kind. -/
  | nextIs (kind : Kind) (link : kind.isLink = true) : Step Bool
  /-- The token behind the next one, which must not be the end of the text. -/
  | lookBehind (problem : Problem) : Step Sight
  /-- Whether the token behind the next one is of a kind. -/
  | behindIs (kind : Kind) (link : kind.isLink = true) : Step Bool
  /-- The token behind the next one, if it stands on the same line. -/
  | lookBeside : Step (Option Sight)
  /-- Passes over the next token. -/
  | skip : Step Unit
  /-- Passes over the brace behind an expression in a template, to the part behind it. -/
  | skipToPart : Step Unit
  /-- How an expression goes on, if it does not end. -/
  | goOn (ending : Ending) : Step (Option (Sight × Continuation))
  /-- Whether a statement ends in front of the next token or at a semicolon there. -/
  | statementEnds (atEnd : Option Problem) : Step Bool
  /-- Ends a statement, at a semicolon if there is one. -/
  | endStatement (otherwise : Option Problem) : Step Unit

/-- What a step finds and where it leads; `ends` tells whether the end of the text ends an
expression that could go on. -/
def Step.run (ends : Bool) {β : Type} : Step β → Cursor → Except Fault (β × Cursor)
  | .look problem, c =>
      if c.atEnd then .error (c.token.misfit problem) else .ok (c.sight, c)
  | .lookOperand, c =>
      if c.atEnd then .error (c.token.misfit (.expected .operand))
      else do
        let c := c.moveTo (← c.token.asOperand.whole)
        return (c.sight, c)
  | .nextIs kind _, c => .ok (c.token.kind == kind, c)
  | .lookBehind problem, c => do
      let t ← c.behind
      if t.kind = .endOfText then .error (t.misfit problem) else .ok (c.sightOf t, c)
  | .behindIs kind _, c => do
      let t ← c.behind
      return (t.kind == kind, c)
  | .lookBeside, c => do
      let t ← c.behind
      let isBeside := t.kind ≠ .endOfText ∧ t.afterLineEnd = false
      return (if isBeside then some (c.sightOf t) else none, c)
  | .skip, c => do return ((), c.moveTo (← c.behind))
  | .skipToPart, c =>
      if c.atEnd then .error (c.token.misfit (.expected .operand))
      else do return ((), c.moveTo (← (Token.nextPart c.token.stop).whole))
  | .goOn ending, c => do return (← c.goOn ends ending, c)
  | .statementEnds atEnd, c => do return (← c.statementEnds atEnd, c)
  | .endStatement otherwise, c =>
      if c.token.kind = .mark ";" then do
        return ((), { c.moveTo (← c.behind) with isOver := true })
      else do return ((), ← c.endHere otherwise)

end Script
end AssetPress
