import AssetPress.Script.Literal

/-!
# The structure of scripts

Operators, expressions and statements.  What a declaration, a parameter or the left side of an
assignment introduces is an expression as well, made of names, arrays and objects; a value that
stands in where none is given is written as an assignment to it.
-/

namespace AssetPress
namespace Script

/-! ### Operators -/

/-- An operator between two expressions: how strongly it binds, and how strongly the operators on
its right bind at least. -/
structure Operator where
  text : String
  level : Nat
  rightLevel : Nat
  deriving DecidableEq, Repr

namespace Operator

def left (level : Nat) (text : String) : Operator := ⟨text, level, level + 1⟩

def right (level : Nat) (text : String) : Operator := ⟨text, level, level⟩

def commaLevel : Nat := 1

def assignLevel : Nat := 2

def choiceLevel : Nat := 3

def prefixLevel : Nat := 15

def postfixLevel : Nat := 16

def newLevel : Nat := 17

def memberLevel : Nat := 18

/-- How strongly an operand binds that is in one piece. -/
def operandLevel : Nat := 19

def assign : Operator := right assignLevel "="

/-- The operator that keeps the last of two values. -/
def comma : Operator := left commaLevel ","

def assignments : List Operator :=
  assign ::
    ["+=", "-=", "*=", "/=", "%=", "**=", "<<=", ">>=", ">>>=", "&=", "|=", "^=", "&&=", "||=",
      "??="].map (right assignLevel)

def words : List Operator := ["in", "instanceof"].map (left 10)

def all : List Operator :=
  [comma] ++ assignments ++
    ["||", "??"].map (left 4) ++ [left 5 "&&", left 6 "|", left 7 "^", left 8 "&"] ++
    ["==", "!=", "===", "!=="].map (left 9) ++
    ["<", "<=", ">", ">="].map (left 10) ++ words ++
    ["<<", ">>", ">>>"].map (left 11) ++ ["+", "-"].map (left 12) ++
    ["*", "/", "%"].map (left 13) ++ [right 14 "**"]

def ofKind? : Kind → Option Operator
  | .mark text => all.find? fun o => o.text == text
  | .keyword text => words.find? fun o => o.text == text
  | _ => none

def new : String := "new"

def prefixes : List String :=
  ["!", "~", "+", "-", "++", "--", "typeof", "void", "delete", new]

/-- The operator before an operand that a token stands for. -/
def prefixOfKind? : Kind → Option String
  | .mark text => prefixes.find? (· == text)
  | .keyword text => prefixes.find? (· == text)
  | _ => none

def levelOfPrefix (operator : String) : Nat := if operator = new then newLevel else prefixLevel

end Operator

/-! ### Expressions and statements -/

/-- What sets a function or a method apart from plain ones. -/
inductive Manner where
  | plain
  | getter
  | setter
  /-- It waits for others. -/
  | waiting
  /-- It has many values. -/
  | manifold
  | waitingManifold
  deriving DecidableEq, Repr

mutual

/-- An expression.  Holes, spreads and fields occur only as parts of arrays, objects, calls and
parameters.  A flag tells of some operators whether they stood in parentheses. -/
inductive Expr where
  | literal (value : Literal)
  | name (name : List Char)
  | this
  /-- The object at hand as one of its class's parent. -/
  | super
  /-- A text with expressions in it, each with the text behind it; perhaps behind a function. -/
  | template (tag : Option Expr) (first : List Char) (rest : List (Expr × List Char))
  | array (items : List Expr)
  /-- The place of a missing item. -/
  | hole
  /-- The items of something. -/
  | spread (e : Expr)
  | object (fields : List Expr)
  | field (key : Key) (value : Expr)
  /-- A field with the value of the name it is called by. -/
  | shorthand (name : List Char)
  | method (manner : Manner) (key : Key) (parameters : List Expr) (body : List Statement)
  /-- A member; `optional` if its owner may be missing. -/
  | member (optional enclosed : Bool) (owner : Expr) (name : List Char)
  | index (optional : Bool) (owner key : Expr)
  | call (optional enclosed : Bool) (callee : Expr) (arguments : List Expr)
  /-- An operator before or behind its operand. -/
  | before (operator : String) (operand : Expr)
  | behind (operand : Expr) (operator : String)
  | binary (enclosed : Bool) (operator : Operator) (left right : Expr)
  /-- One of two values, by a third. -/
  | choice (enclosed : Bool) (test yes no : Expr)
  | function (manner : Manner) (name : Option (List Char)) (parameters : List Expr)
      (body : List Statement)

inductive Key where
  | plain (text : List Char)
  | computed (e : Expr)

inductive Statement where
  | empty
  /-- What is introduced, behind the word that introduces it. -/
  | declare (word : String) (items : List Expr)
  | evaluate (e : Expr)
  /-- The end of a function, with its value if it has one. -/
  | answer (e : Option Expr)
  | block (body : List Statement)
  | label (name : List Char) (body : Statement)
  | function (manner : Manner) (name : List Char) (parameters : List Expr) (body : List Statement)
  | choose (test : Expr) (yes : Statement) (no : Option Statement)
  /-- Again and again as long as a test, made before or behind, holds. -/
  | loop (test : Expr) (body : Statement)
  | loopBefore (body : Statement) (test : Expr)
  /-- A loop with what is done at its start, a test and what is done behind each round. -/
  | count (start : Option Statement) (test step : Option Expr) (body : Statement)
  /-- A loop over the items of something, told by a word. -/
  | each (item : Statement) (word : String) (items : Expr) (body : Statement)
  /-- Branches, of which one is taken by a value. -/
  | select (e : Expr) (branches : List Statement)
  /-- A branch for a value, or for all others. -/
  | branch (e : Option Expr) (body : List Statement)
  | throw (e : Expr)
  /-- A word that leads elsewhere, with the name of the place if it has one. -/
  | jump (word : String) (place : Option (List Char))
  /-- A block, what is done when it fails, and what is done in the end. -/
  | attempt (body : List Statement) (failure : Option Expr) (handler last : Option Statement)

end

def Statement.isEmpty : Statement → Bool
  | empty => true
  | _ => false

/-! ### Names -/

mutual

def Expr.bound : Expr → List (List Char)
  | .name word => [word]
  | .shorthand word => [word]
  | .spread e => e.bound
  | .field _ e => e.bound
  | .binary _ _ left _ => left.bound
  | .array items => boundItems items
  | .object fields => boundItems fields
  | _ => []

def Expr.boundItems : List Expr → List (List Char)
  | [] => []
  | e :: more => e.bound ++ boundItems more

end

mutual

/-- Whether an expression can be what a parameter or a loop introduces: a name or a pattern, perhaps
with what stands in for a missing value. -/
def Expr.isBinding : Expr → Bool
  | .name _ => true
  | .hole => true
  | .shorthand _ => true
  | .spread e => e.isBinding
  | .field _ e => e.isBinding
  | .binary false operator left _ => operator == .assign && left.isBinding
  | .array items => areBindings items
  | .object fields => areBindings fields
  | _ => false

def Expr.areBindings : List Expr → Bool
  | [] => true
  | e :: more => e.isBinding && areBindings more

end

/-! ### Parentheses -/

/-- The expression in parentheses, which its operators remember. -/
def Expr.enclose : Expr → Expr
  | .binary _ operator left right => .binary true operator left.enclose right.enclose
  | .choice _ test yes no => .choice true test.enclose yes no.enclose
  | .member optional _ owner word => .member optional true owner.enclose word
  | .index optional owner key => .index optional owner.enclose key
  | .call optional _ callee arguments => .call optional true callee.enclose arguments
  | .behind operand operator => .behind operand.enclose operator
  | .template (some tag) first rest => .template (some tag.enclose) first rest
  | e => e

/-- How strongly the outermost operator of an expression binds. -/
def Expr.level : Expr → Nat
  | binary _ operator _ _ => operator.level
  | choice _ _ _ _ => Operator.choiceLevel
  | before operator _ => Operator.levelOfPrefix operator
  | behind _ _ => Operator.postfixLevel
  | member _ _ _ _ => Operator.memberLevel
  | index _ _ _ => Operator.memberLevel
  | call _ _ _ _ => Operator.memberLevel
  | _ => Operator.operandLevel

/-- Whether the outermost operator of an expression stood in parentheses. -/
def Expr.isEnclosed : Expr → Bool
  | binary enclosed _ _ _ => enclosed
  | choice enclosed _ _ _ => enclosed
  | member _ enclosed _ _ => enclosed
  | call _ enclosed _ _ => enclosed
  | _ => false

end Script
end AssetPress
