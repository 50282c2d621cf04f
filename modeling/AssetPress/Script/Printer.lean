import AssetPress.Script.Reader
import AssetPress.Script.Scope

/-!
# Printing scripts

A short text for a script: no blanks but those that keep words and signs apart, no parentheses but
those that keep operators apart, strings between back-quotes, `!0` and `!1` for the truth values,
and functions as arrows whose parameters have short names.  A function whose first statement is its
value is printed as that value, and nothing behind the end of a function is printed at all.

The minifier that is imitated here knows the whole language.  Its answers are known, and are those
of this library, for scripts of `var` statements, assignments to names and members, and expressions
of whole numbers, strings without escapes, truth values, `null`, names, members, calls, arrays,
objects with plain names as keys, and functions of at most one parameter that return a value, ended
in any way and with comments anywhere, and for what is wrong with the likes of them.  Other
statements and expressions follow the same rules; classes, modules, `with` and markup are left out,
and refused.
-/

namespace AssetPress
namespace Script

/-! ### Pieces of text -/

/-- A text between parentheses if need be. -/
def enclosed (needed : Bool) (text : List Char) : List Char :=
  if needed then '(' :: text ++ [')'] else text

/-- Whether an operator stands in parentheses below another one: where it binds more weakly, or
equally and the script has them there. -/
def needsParentheses (outer level : Nat) (written : Bool) : Bool :=
  level < outer || (written && (level == outer || (outer == 0 && level == Operator.commaLevel)))

/-- Two texts, with a blank between them if they would otherwise run into each other. -/
def beside (a b : List Char) : List Char :=
  match a.getLast?, b with
  | some c, d :: _ => if c == d && (c == '+' || c == '-') then a ++ ' ' :: b else a ++ b
  | _, _ => a ++ b

/-- The text of an operator between two expressions: words have blanks on both sides, signs that
could run into a sign behind them have one there. -/
def Operator.between (operator : Operator) : List Char :=
  let text := operator.text.toList
  if text.all Char.isAlpha then ' ' :: text ++ [' ']
  else if operator.text = "+" ∨ operator.text = "-" then text ++ [' ']
  else text

/-- The text of an operator before an operand; words have a blank behind them. -/
def operatorBefore (operator : String) : List Char :=
  let text := operator.toList
  if text.all Char.isAlpha then text ++ [' '] else text

/-- The mark in front of a member, an item or a call whose owner may be missing. -/
def optionalMark (optional : Bool) : List Char := if optional then ['?', '.'] else []

/-- The words in front of a function's parameters or a method's name. -/
def Manner.print : Manner → List Char
  | plain => []
  | getter => "get ".toList
  | setter => "set ".toList
  | waiting => "async ".toList
  | manifold => "*".toList
  | waitingManifold => "async *".toList

/-- The words that introduce a function. -/
def Manner.printFunction (manner : Manner) : List Char :=
  let word := "function".toList
  match manner with
  | waiting => "async ".toList ++ word
  | manifold => word ++ ['*']
  | waitingManifold => "async ".toList ++ word ++ ['*']
  | _ => word

/-- Whether a function of the manner can be an arrow. -/
def Manner.isArrow : Manner → Bool
  | manifold => false
  | waitingManifold => false
  | _ => true

/-- The body of an arrow that is a single value; one that would be taken for a block or cut at a
comma is put in parentheses. -/
def arrowValue (e : Expr) (text : List Char) : List Char :=
  enclosed ((e.level == Operator.commaLevel && !e.isEnclosed) || text.head? == some '\x7b') text

/-- The text of a statement, and whether it needs no semicolon behind it; of one that ends a
function with a value, also the value's text as the body of an arrow. -/
structure Printed where
  text : List Char
  isClosed : Bool
  value : Option (List Char)

def Printed.loose (text : List Char) : Printed := ⟨text, false, none⟩

def Printed.behind (before : List Char) (s : Printed) : Printed :=
  ⟨before ++ s.text, s.isClosed, none⟩

/-- A word that introduces a statement; only a block needs no blank behind it. -/
def Printed.introduced (word : String) (s : Printed) : Printed :=
  s.behind (if s.text.head? = some '\x7b' then word.toList else word.toList ++ [' '])

/-- A statement in front of other text. -/
def Printed.separate (s : Printed) : List Char := if s.isClosed then s.text else s.text ++ [';']

def joined : List Printed → List Char
  | [] => []
  | [s] => s.text
  | s :: more => s.separate ++ joined more

/-- Whether statements need no semicolon behind them. -/
def isClosedBehind (body : List Printed) : Bool :=
  match body.getLast? with
  | some s => s.isClosed
  | none => true

def braced (body : List Printed) : List Char := '\x7b' :: joined body ++ ['\x7d']

/-- The body of an arrow: the value that its first statement ends it with, or a block. -/
def arrowBody (body : List Printed) : List Char :=
  (body.head?.bind Printed.value).getD (braced body)

/-- A function of parameters and a body, with a name or without. -/
def printFunction (manner : Manner) (name : Option (List Char)) (parameters : List Char)
    (body : List Printed) : List Char :=
  let called := match name with
    | some word => ' ' :: word
    | none => []
  manner.printFunction ++ called ++ '(' :: parameters ++ ')' :: braced body

/-- An arrow of parameters and a body; parentheses around a single name are left out. -/
def printArrow (manner : Manner) (single : Bool) (parameters : List Char) (body : List Printed) :
    List Char :=
  manner.print ++ enclosed (!single) parameters ++ '=' :: '>' :: arrowBody body

def isSingleName : List Expr → Bool
  | [.name _] => true
  | _ => false

/-- Whether a statement ends its function. -/
def Statement.isAnswer : Statement → Bool
  | answer _ => true
  | _ => false

/-! ### Expressions and statements -/

mutual

/-- The text of an expression below an operator that binds as strongly as `outer`, with some names
replaced. -/
def Expr.print (r : Renaming) (outer : Nat) : Expr → List Char
  | .literal value => value.print
  | .name word => r.apply word
  | .this => "this".toList
  | .super => "super".toList
  | .template tag first rest =>
      Expr.printPerhaps r Operator.memberLevel tag ++
        backQuote :: first.flatMap escapeQuoted ++ Expr.printParts r rest ++ [backQuote]
  | .array items => '[' :: Expr.printItems r items ++ [']']
  | .hole => []
  | .spread e => '.' :: '.' :: '.' :: e.print r 0
  | .object fields => '\x7b' :: Expr.printItems r fields ++ ['\x7d']
  | .field key value => key.print r ++ ':' :: value.print r 0
  | .shorthand word =>
      if r.apply word = word then word else word ++ ':' :: r.apply word
  | .method manner key parameters body =>
      let own := ownNames r none parameters body ++ r
      manner.print ++ key.print r ++ '(' :: Expr.printItems own parameters ++
        ')' :: braced (Statement.printReached own body)
  | .member optional written owner word =>
      enclosed (needsParentheses outer Operator.memberLevel written)
        (owner.print r Operator.memberLevel ++
          (if optional then ['?', '.'] else ['.']) ++ word)
  | .index optional owner key =>
      owner.print r Operator.memberLevel ++ optionalMark optional ++
        '[' :: key.print r 0 ++ [']']
  | .call optional written callee arguments =>
      enclosed (needsParentheses outer Operator.memberLevel written)
        (callee.print r Operator.memberLevel ++ optionalMark optional ++
          '(' :: Expr.printItems r arguments ++ [')'])
  | .before operator operand =>
      let level := Operator.levelOfPrefix operator
      enclosed (needsParentheses outer level false)
        (beside (operatorBefore operator) (operand.print r level))
  | .behind operand operator =>
      enclosed (needsParentheses outer Operator.postfixLevel false)
        (operand.print r Operator.postfixLevel ++ operator.toList)
  | .binary written operator left right =>
      enclosed (needsParentheses outer operator.level written)
        (left.print r operator.level ++ operator.between ++ right.print r operator.level)
  | .choice written test yes no =>
      enclosed (needsParentheses outer Operator.choiceLevel written)
        (test.print r Operator.choiceLevel ++ '?' :: yes.print r Operator.choiceLevel ++
          ':' :: no.print r Operator.choiceLevel)
  | .function manner name parameters body =>
      let own := ownNames r name parameters body ++ r
      let items := Expr.printItems own parameters
      let lines := Statement.printReached own body
      enclosed true
        (if name.isNone && manner.isArrow then
          printArrow manner (isSingleName parameters) items lines
        else printFunction manner (name.map own.apply) items lines)

def Key.print (r : Renaming) : Key → List Char
  | .plain text => text
  | .computed e => '[' :: e.print r 0 ++ [']']

def Expr.printItems (r : Renaming) : List Expr → List Char
  | [] => []
  | [e] => e.print r 0
  | e :: more => e.print r 0 ++ ',' :: Expr.printItems r more

/-- The texts of the expressions in a template and of what stands behind them. -/
def Expr.printParts (r : Renaming) : List (Expr × List Char) → List Char
  | [] => []
  | (e, text) :: more =>
      '$' :: '\x7b' :: e.print r 0 ++ '\x7d' :: text.flatMap escapeQuoted ++
        Expr.printParts r more

def Statement.print (r : Renaming) : Statement → Printed
  | .empty => ⟨[';'], true, none⟩
  | .declare word items => .loose (word.toList ++ ' ' :: Expr.printItems r items)
  | .evaluate e => .loose (e.print r 0)
  | .answer none => .loose "return".toList
  | .answer (some e) =>
      let text := e.print r 0
      ⟨"return ".toList ++ text, false, some (arrowValue e text)⟩
  | .block body => ⟨braced (Statement.printReached r body), true, none⟩
  | .label name body => (body.print r).behind (name ++ [':'])
  | .function manner name parameters body =>
      let own := ownNames r none parameters body ++ r
      ⟨printFunction manner (some (r.apply name)) (Expr.printItems own parameters)
        (Statement.printReached own body), true, none⟩
  | .choose test yes none => (yes.print r).behind ("if(".toList ++ test.print r 0 ++ [')'])
  | .choose test yes (some no) =>
      ((no.print r).introduced "else").behind
        ("if(".toList ++ test.print r 0 ++ ')' :: (yes.print r).separate)
  | .loop test body => (body.print r).behind ("while(".toList ++ test.print r 0 ++ [')'])
  | .loopBefore body test =>
      .loose (((body.print r).introduced "do").separate ++
        "while(".toList ++ test.print r 0 ++ [')'])
  | .count start test step body =>
      (body.print r).behind ("for(".toList ++ Statement.printPerhaps r [] start ++
        ';' :: Expr.printPerhaps r 0 test ++ ';' :: Expr.printPerhaps r 0 step ++ [')'])
  | .each item word items body =>
      (body.print r).behind ("for(".toList ++ (item.print r).text ++
        ' ' :: word.toList ++ ' ' :: items.print r 0 ++ [')'])
  | .select e branches =>
      let lines := Statement.printAll r branches
      ⟨"switch(".toList ++ e.print r 0 ++ ')' :: braced lines, true, none⟩
  | .branch e body =>
      let head := match e with
        | some e => "case ".toList ++ e.print r 0
        | none => "default".toList
      let lines := Statement.printReached r body
      ⟨head ++ ':' :: joined lines, isClosedBehind lines, none⟩
  | .throw e => .loose ("throw ".toList ++ e.print r 0)
  | .jump word none => .loose word.toList
  | .jump word (some place) => .loose (word.toList ++ ' ' :: place)
  | .attempt body failure handler last =>
      let caught := match failure with
        | some e => enclosed true (e.print r 0)
        | none => []
      ⟨"try".toList ++ braced (Statement.printReached r body) ++
        Statement.printPerhaps r ("catch".toList ++ caught) handler ++
        Statement.printPerhaps r "finally".toList last, true, none⟩

def Expr.printPerhaps (r : Renaming) (outer : Nat) : Option Expr → List Char
  | none => []
  | some e => e.print r outer

/-- The text of a statement behind other text, if there is one. -/
def Statement.printPerhaps (r : Renaming) (before : List Char) : Option Statement → List Char
  | none => []
  | some s => before ++ (s.print r).text

def Statement.printReached (r : Renaming) : List Statement → List Printed
  | [] => []
  | s :: more =>
      if s.isAnswer then [s.print r] else s.print r :: Statement.printReached r more

def Statement.printAll (r : Renaming) : List Statement → List Printed
  | [] => []
  | s :: more => s.print r :: Statement.printAll r more

end

def printScript (statements : List Statement) : List Char :=
  joined (Statement.printAll [] statements)

/-- A short text of a script, or what is wrong with it. -/
def minify (source : String) : Except Fault String := do
  let statements ← Statement.read source.toList
  return String.ofList (printScript statements)

end Script
end AssetPress
