import AssetPress.Script.Token

/-!
# Faults of scripts

What can be wrong with a script, and the message that tells of it: the problem, the kind of token
at which it shows, and the text there.
-/

namespace AssetPress
namespace Script

/-- What the grammar allows at a place where something else stands. -/
inductive Expectation where
  | operand
  | operator
  /-- The name or the pattern that a declaration or a parameter introduces. -/
  | binding
  /-- The name of a field of an object. -/
  | fieldName
  /-- What follows a computed name in a pattern. -/
  | fieldPattern
  /-- The name behind a dot. -/
  | memberName
  /-- The name of a function. -/
  | functionName
  /-- The place that a jump leads to. -/
  | jumpLabel
  /-- What follows the block of an attempt. -/
  | handler
  deriving DecidableEq, Repr

inductive Problem where
  | breakOff (why : Break)
  | expected (what : Expectation)
  | required (kind : Kind)
  /-- A number without the digits it needs. -/
  | badNumber
  /-- An escape in a string that stands for no character. -/
  | badEscape
  /-- Something that is no place to assign to. -/
  | badTarget
  /-- A line end in front of the arrow of a function. -/
  | lineEndBeforeArrow
  /-- A line end in front of what is thrown. -/
  | lineEndBehindThrow
  deriving DecidableEq, Repr

/-- What is wrong, at which token if the text could be read so far, and the text there. -/
structure Fault where
  problem : Problem
  token : Option Kind
  piece : List Char
  deriving DecidableEq, Repr

/-- What a message calls an expectation. -/
def Expectation.label : Expectation → String
  | operand => "expression operand"
  | operator => "expression operator"
  | binding => "pattern"
  | fieldName => "keyword or identifier"
  | fieldPattern => "object pattern property subpattern"
  | memberName => "member access property"
  | functionName => "identifier"
  | jumpLabel => "continue label"
  | handler => "catch or finally"

/-- What a message calls a text that something else was expected in place of. -/
def expectedLabel (what : String) : String := "ExpectedSyntax(\"" ++ what ++ "\")"

def Problem.label : Problem → String
  | breakOff .notFound => "ExpectedNotFound"
  | breakOff .lineEndInString => "LineTerminatorInString"
  | breakOff .lineEndInPattern => "LineTerminatorInRegex"
  | breakOff .unexpectedEnd => "UnexpectedEnd"
  | breakOff .namelessMember => expectedLabel "private member"
  | expected what => expectedLabel what.label
  | required kind => "RequiredTokenNotFound(" ++ kind.label ++ ")"
  | badNumber => "MalformedLiteralNumber"
  | badEscape => "InvalidCharacterEscape"
  | badTarget => "InvalidAssigmentTarget"
  | lineEndBeforeArrow => "LineTerminatorAfterArrowFunctionParameters"
  | lineEndBehindThrow => "LineTerminatorAfterThrow"

def Fault.message (f : Fault) : String :=
  let token := match f.token with
    | some kind => "Some(" ++ kind.label ++ ")"
    | none => "None"
  let fence := String.ofList (List.replicate 3 backQuote)
  f.problem.label ++ " [token=" ++ token ++ "] around " ++ fence ++ String.ofList f.piece ++ fence

/-- The fault of a token that does not fit: a broken one has its own. -/
def Token.misfit (t : Token) (problem : Problem) : Fault :=
  match t.kind with
  | .broken why => ⟨.breakOff why, none, t.text⟩
  | kind => ⟨problem, some kind, t.text⟩

end Script
end AssetPress
