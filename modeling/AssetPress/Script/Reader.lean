import AssetPress.Script.Reading

/-!
# Reading scripts

From a text to statements, one token after another.  A statement ends at a semicolon, or where a
line end, a closing brace or the end of the text stands in a place where no operator goes on; so a
line that begins with an operator, a parenthesis or a bracket continues the statement of the line
before.  A declared name without a value needs a semicolon or a line end behind it, and a line end
behind `return` leaves the function without a value.

No token is read twice.  What stands in parentheses, and what stands at the beginning of a loop, is
read as expressions, and taken for parameters or for what the loop introduces if an arrow or a word
behind it tells so; a shorthand with a value, which only patterns have, is refused there.  Classes
and modules are left out.
-/

namespace AssetPress
namespace Script

namespace Reading

/-! ### Routines -/

def expr (low : Nat) (ending : Ending) : Reading Phrase := call (.expr low ending) done

def rest (low : Nat) (ending : Ending) (left : Phrase) : Reading Phrase :=
  call (.rest low ending left) done

def operand (ending : Ending) : Reading Phrase := call (.operand ending) done

def pattern : Reading Expr := call .pattern done

def parameters : Reading (List Expr) := call .parameters done

def statement : Reading Statement := call .statement done

def block : Reading (List Statement × Sight) := do
  let _ ← require (.mark "\x7b")
  call .body done

/-! ### Values -/

/-- The content of a part of a template, without the marks around it. -/
def part (t : Sight) (opening : Bool) : Reading (List Char) :=
  let inner := if opening then t.text.tail else t.text
  let text := if t.kind = .templatePart true then inner.dropLast else inner.dropLast.dropLast
  match unescape? text with
  | some content => return content
  | none => giveUp t .badEscape

/-- A text with expressions in it, from its first part on. -/
def template (tag : Option Expr) (t : Sight) : Reading Phrase := do
  let first ← part t true
  let (rest, last) ← call (.parts t) done
  return .ofValue (.template tag first rest) (t.place.to last.place)

/-- What sets a method apart, told by the words in front of its name. -/
def manner : Reading Manner := do
  if ← accept (.mark "*") then return .manifold
  let t ← look (.expected .fieldName)
  if !(["async", "get", "set"].any fun w => t.kind == .keyword w) then return .plain
  if (← take (.lookBehind (.expected .fieldName))).kind.endsKey then return .plain
  skip
  if t.kind = .keyword "get" then return .getter
  if t.kind = .keyword "set" then return .setter
  if ← accept (.mark "*") then return .waitingManifold
  return .waiting

/-- The manner of a function, told by what stands behind the word that introduces it. -/
def star (waiting : Bool) : Reading Manner := do
  if ← accept (.mark "*") then return if waiting then .waitingManifold else .manifold
  return if waiting then .waiting else .plain

/-- Passes over the arrow of a function, which stands on the line of its parameters. -/
def passArrow : Reading Unit := do
  let arrow ← require (.mark "=>")
  if arrow.afterLineEnd then giveUp arrow .lineEndBeforeArrow

def arrow (ending : Ending) (t : Sight) (manner : Manner) (parameters : List Expr) :
    Reading Phrase := do
  passArrow
  if (← look (.expected .operand)).kind = .mark "\x7b" then
    let (body, close) ← block
    return .ofValue (.function manner none parameters body) (t.place.to close.place)
  else
    let e ← expr 0 ending
    return .ofValue (.function manner none parameters [.answer (some e.expr)])
      (t.place.to e.place)

/-- The name of a function, if it has one. -/
def functionName : Reading (Option (List Char)) := do
  let next ← look (.required (.mark "("))
  if next.kind.isName then
    skip
    return some next.text
  return none

def function (t : Sight) (waiting : Bool) : Reading Phrase := do
  let manner ← star waiting
  let name ← functionName
  let _ ← require (.mark "(")
  let parameters ← parameters
  let (body, close) ← block
  return .ofValue (.function manner name parameters body) (t.place.to close.place)

/-- A name, or a function whose only parameter it is. -/
def named (ending : Ending) (t : Sight) : Reading Phrase := do
  skip
  if ← nextIs (.mark "=>") then arrow ending t .plain [.name t.text]
  else return ⟨.name t.text, t.place, .name⟩

/-- What begins with the word that introduces waiting functions; a function stands on its line. -/
def waiting (ending : Ending) (t : Sight) : Reading Phrase := do
  let beside ← take .lookBeside
  match beside.map Sight.kind with
  | some (.keyword "function") =>
      skip
      skip
      function t true
  | some (.mark "(") =>
      skip
      skip
      arrow ending t .waiting (← parameters)
  | _ => named ending t

/-- An expression in parentheses, or a function with its parameters there. -/
def grouped (ending : Ending) (t : Sight) : Reading Phrase := do
  skip
  let (items, close) ← call (.group ending.loose) done
  if ← nextIs (.mark "=>") then
    match items.find? (!·.expr.isBinding) with
    | some item => giveUpAt item.place (.expected .binding)
    | none => arrow ending t .plain (items.map Phrase.expr)
  else
    match items.find? Phrase.isRest, items with
    | none, first :: more => return (more.foldl (Phrase.binary .comma) first).enclose
    | some item, _ => giveUpAt item.place (.expected .operand)
    | none, [] => giveUp close (.expected .operand)

/-- An expression, or the items of one behind three dots. -/
def item (ending : Ending) : Reading Phrase := do
  let t ← look (.expected .operand)
  if t.kind = .mark "..." then
    skip
    let e ← expr 0 ending
    return ⟨.spread e.expr, t.place.to e.place, .rest (e.misfitInside? e.place)⟩
  else expr 0 ending

/-- The name of a field, and where it ends. -/
def key : Reading (Key × Sight) := do
  let t ← look (.expected .fieldName)
  if t.kind = .mark "[" then
    skip
    let e ← expr 0 (.before ["]"])
    let close ← require (.mark "]")
    return (.computed e.expr, close)
  else
    let t ← requireSome
      (fun kind => kind.isWord || [.string, .number, .privateName].contains kind) .fieldName
    return (.plain t.text, t)

def method (t : Sight) (manner : Manner) (key : Key) : Reading Phrase := do
  let _ ← require (.mark "(")
  let parameters ← parameters
  let (body, close) ← block
  return .ofValue (.method manner key parameters body) (t.place.to close.place)

/-- A field with its value, a method, or a name that stands for both. -/
def field : Reading Phrase := do
  let t ← look (.expected .fieldName)
  let manner ← manner
  let word ← look (.expected .fieldName)
  let (key, keyEnd) ← key
  if manner ≠ .plain then method t manner key
  else
    let next ← look (.required (.mark ":"))
    if next.kind = .mark "(" then method t manner key
    else if next.kind = .mark "," ∨ next.kind = .mark "\x7d" then
      if word.kind.isName then return ⟨.shorthand word.text, word.place, .name⟩
      giveUpAt (word.place.to keyEnd.place) (.breakOff .notFound)
    else
      let _ ← require (.mark ":")
      let e ← expr 0 (.before [",", "\x7d"])
      let place := t.place.to e.place
      return ⟨.field key e.expr, place, .pattern (e.misfitInside? place)⟩

/-- A pattern, perhaps with what stands in for a missing value. -/
def binding (ending : Ending) : Reading Expr := do
  let target ← pattern
  if ← accept (.mark "=") then return .binary false .assign target (← expr 0 ending).expr
  else return target

/-- A field of a pattern, perhaps with what stands in for a missing value. -/
def fieldPattern : Reading Expr := do
  let word ← look (.breakOff .notFound)
  if !(word.kind.isWord || [.string, .number, .privateName, .mark "["].contains word.kind) then
    giveUp word (.breakOff .notFound)
  let (key, _) ← key
  if ← accept (.mark ":") then return .field key (← binding (.before [",", "\x7d"]))
  if word.kind = .mark "[" then
    return ← giveUp (← look (.expected .fieldPattern)) (.expected .fieldPattern)
  if ← accept (.mark "=") then
    return .binary false .assign (.shorthand word.text) (← expr 0 (.before [",", "\x7d"])).expr
  return .shorthand word.text

/-! ### Statements -/

/-- An expression up to the end of the statement. -/
def sentence : Reading Expr := do
  let e ← expr 0 .statement
  take (.endStatement none)
  return e.expr

def test : Reading Expr := do
  let _ ← require (.mark "(")
  let e ← expr 0 (.before [")"])
  let _ ← require (.mark ")")
  return e.expr

/-- An expression in front of a mark, if there is one, and the mark. -/
def perhaps (mark : String) : Reading (Option Expr) := do
  if (← look (.expected .operand)).kind = .mark mark then
    skip
    return none
  let e ← expr 0 (.before [mark])
  let _ ← require (.mark mark)
  return some e.expr

/-- What is done or introduced at the start of a loop, if anything is. -/
def loopStart (t : Sight) : Reading (Option Statement) := do
  match t.kind with
  | .mark ";" => return none
  | .keyword "var" | .keyword "let" | .keyword "const" =>
      skip
      return some (.declare (String.ofList t.text) (← call .loopNames done))
  | _ =>
      let ending := .before [";"]
      let e ← operand ending
      let word ← look (.expected .operator)
      if e.expr.isBinding ∧ (word.kind = .keyword "of" ∨ word.kind = .keyword "in") then
        return some (.evaluate e.expr)
      return some (.evaluate (← rest 0 ending e).expr)

/-- A loop behind its opening parenthesis: over the items of something if a word says so behind
what is introduced, with a test and a step between semicolons otherwise. -/
def loop : Reading Statement := do
  let start ← loopStart (← look (.expected .operand))
  let word ← look (.required (.mark ";"))
  match start, word.kind with
  | some item, .keyword "of" | some item, .keyword "in" =>
      skip
      let items ← expr 0 (.before [")"])
      let _ ← require (.mark ")")
      return .each item (String.ofList word.text) items.expr (← statement)
  | _, _ =>
      let _ ← require (.mark ";")
      let test ← perhaps ";"
      let step ← perhaps ")"
      return .count start test step (← statement)

def declaredFunction (waiting : Bool) : Reading Statement := do
  let manner ← star waiting
  let name ← requireSome Kind.isName .functionName
  let _ ← require (.mark "(")
  let parameters ← parameters
  let (body, _) ← block
  return .function manner name.text parameters body

/-- What a failure is called, between parentheses, if it is called something. -/
def failure : Reading (Option Expr) := do
  if (← look (.required (.mark "\x7b"))).kind = .mark "(" then
    skip
    let e ← pattern
    let _ ← require (.mark ")")
    return some e
  return none

/-- A block with what is done when it fails and in the end. -/
def attempt : Reading Statement := do
  let (body, _) ← block
  if ← accept (.keyword "catch") then
    let failure ← failure
    let (handler, _) ← block
    if ← accept (.keyword "finally") then
      return .attempt body failure (some (.block handler)) (some (.block (← block).1))
    return .attempt body failure (some (.block handler)) none
  if ← accept (.keyword "finally") then
    return .attempt body none none (some (.block (← block).1))
  giveUp (← look (.expected .handler)) (.expected .handler)

/-- Whether a token is a label, in front of a colon. -/
def isLabel (t : Sight) : Reading Bool :=
  if t.kind.isName then take (.behindIs (.mark ":") rfl) else return false

/-- A word that leads elsewhere, up to the end of the statement. -/
def jump (t : Sight) : Reading Statement := do
  skip
  if ← take (.statementEnds none) then
    take (.endStatement none)
    return .jump (String.ofList t.text) none
  let place ← requireSome Kind.isName .jumpLabel
  take (.endStatement none)
  return .jump (String.ofList t.text) (some place.text)

/-! ### The grammar -/

/-- Gives up at what an operator cannot assign to. -/
def checkTarget (left : Phrase) (operator : Operator) : Reading Unit :=
  match operator.level == Operator.assignLevel, left.misfit? operator with
  | true, some place => giveUpAt place .badTarget
  | _, _ => return ()

def operation (low : Nat) (ending : Ending) (left : Phrase) (operator : Operator) :
    Reading Phrase := do
  if operator.level < low then return left
  checkTarget left operator
  skip
  let right ← expr operator.rightLevel ending
  rest low ending (.binary operator left right)

def continued (low : Nat) (ending : Ending) (left : Phrase) (t : Sight) :
    Continuation → Reading Phrase
  | .call optional => do
      skip
      let (arguments, close) ← call (.items ")") done
      rest low ending
        (.ofValue (.call optional false left.expr (arguments.map Phrase.expr))
          (left.place.to close.place))
  | .index optional => do
      skip
      let key ← expr 0 (.before ["]"])
      let close ← require (.mark "]")
      rest low ending
        ⟨.index optional left.expr key.expr, left.place.to close.place,
          if optional then .value else .member⟩
  | .member optional => do
      skip
      let name ← requireSome (fun kind => kind.isWord || kind == .privateName) .memberName
      rest low ending
        ⟨.member optional false left.expr name.text, left.place.to name.place,
          if optional then .value else .member⟩
  | .choice => do
      if Operator.choiceLevel < low then return left
      skip
      let yes ← expr 0 (.before [":"])
      let _ ← require (.mark ":")
      let no ← expr Operator.choiceLevel ending
      rest low ending
        (.ofValue (.choice false left.expr yes.expr no.expr) (left.place.to no.place))
  | .behind => do
      if Operator.postfixLevel < low then return left
      skip
      rest low ending
        (.ofValue (.behind left.expr (String.ofList t.text)) (left.place.to t.place))
  | .template => do
      let e ← template (some left.expr) t
      rest low ending (.ofValue e.expr (left.place.to e.place))
  | .operation operator => operation low ending left operator

/-- A value with the operators that precede it, from a token on. -/
def operandAt (ending : Ending) (t : Sight) : Reading Phrase := do
  match t.kind with
  | .mark "[" =>
      skip
      let (items, close) ← call (.items "]") done
      let place := t.place.to close.place
      return ⟨.array (items.map Phrase.expr), place, .pattern (Phrase.misfitAmong? place items)⟩
  | .mark "\x7b" =>
      skip
      let (fields, close) ← call .fields done
      let place := t.place.to close.place
      return ⟨.object (fields.map Phrase.expr), place, .pattern (Phrase.misfitAmong? place fields)⟩
  | .mark "(" => grouped ending t
  | .templatePart _ => template none t
  | .keyword "function" =>
      skip
      function t false
  | .keyword "async" => waiting ending t
  | kind =>
      match Operator.prefixOfKind? kind with
      | some operator =>
          skip
          let e ← expr (Operator.levelOfPrefix operator) ending
          return .ofValue (.before operator e.expr) (t.place.to e.place)
      | none =>
          if kind.isName then named ending t
          else
            match t.value? with
            | .ok e =>
                skip
                return .ofValue e t.place
            | .error problem => giveUp t problem

def statementAt (t : Sight) : Reading Statement := do
  match t.kind with
  | .mark ";" =>
      skip
      return .empty
  | .mark "\x7b" => return .block (← block).1
  | .keyword "var" | .keyword "let" | .keyword "const" =>
      skip
      return .declare (String.ofList t.text) (← call .declarations done)
  | .keyword "return" =>
      skip
      if ← take (.statementEnds (some (.expected .operand))) then
        take (.endStatement none)
        return .answer none
      return .answer (some (← sentence))
  | .keyword "throw" =>
      skip
      if (← look (.expected .operand)).afterLineEnd then giveUp t .lineEndBehindThrow
      return .throw (← sentence)
  | .keyword "async" =>
      skip
      let _ ← require (.keyword "function")
      declaredFunction true
  | .keyword "function" =>
      skip
      declaredFunction false
  | .keyword "if" =>
      skip
      let test ← test
      let yes ← statement
      if ← accept (.keyword "else") then return .choose test yes (some (← statement))
      return .choose test yes none
  | .keyword "while" =>
      skip
      let test ← test
      return .loop test (← statement)
  | .keyword "do" =>
      skip
      let body ← statement
      let _ ← require (.keyword "while")
      let test ← test
      take (.endStatement none)
      return .loopBefore body test
  | .keyword "for" =>
      skip
      let _ ← require (.mark "(")
      loop
  | .keyword "switch" =>
      skip
      let e ← test
      let _ ← require (.mark "\x7b")
      return .select e (← call .branches done)
  | .keyword "try" =>
      skip
      attempt
  | .keyword "break" | .keyword "continue" => jump t
  | .keyword "debugger" =>
      skip
      take (.endStatement none)
      return .jump "debugger" none
  | _ =>
      if ← isLabel t then
        skip
        skip
        return .label t.text (← statement)
      return .evaluate (← sentence)

/-- How a part of the grammar is read. -/
def ofRoutine : {β : Type} → Routine β → Reading β
  | _, .expr low ending => do
      let left ← operand ending
      rest low ending left
  | _, .rest low ending left => do
      match ← take (.goOn ending) with
      | some (t, continuation) => continued low ending left t continuation
      | none => return left
  | _, .operand ending => do operandAt ending (← take .lookOperand)
  | _, .items close => do
      let t ← look (.expected .operand)
      if t.kind = .mark close then
        skip
        return ([], t)
      else if t.kind = .mark "," ∧ close = "]" then
        skip
        let (more, last) ← call (.items close) done
        return (⟨.hole, t.place, .name⟩ :: more, last)
      else
        let item ← item (.before [",", close])
        if ← accept (.mark ",") then
          let (more, last) ← call (.items close) done
          return (item :: more, last)
        let last ← require (.mark close)
        return ([item], last)
  | _, .group loose => do
      let t ← look (.expected .operand)
      if t.kind = .mark ")" then
        skip
        if ← nextIs (.mark "=>") then return ([], t) else giveUp t (.expected .operand)
      else
        let item ← item ⟨[",", ")"], loose⟩
        if ← accept (.mark ",") then
          let (more, last) ← call (.group loose) done
          return (item :: more, last)
        let last ← require (.mark ")")
        return ([item], last)
  | _, .fields => do
      let t ← look (.expected .fieldName)
      if ← accept (.mark "\x7d") then return ([], t)
      let field ← if t.kind = .mark "..." then item (.before [",", "\x7d"]) else field
      if ← accept (.mark ",") then
        let (more, last) ← call .fields done
        return (field :: more, last)
      let last ← require (.mark "\x7d")
      return ([field], last)
  | _, .parts t => do
      skip
      if t.kind = .templatePart true then return ([], t)
      let e ← expr 0 (.before ["\x7d"])
      let brace ← look (.required (.mark "\x7d"))
      if brace.kind ≠ .mark "\x7d" then giveUp brace (.required (.mark "\x7d"))
      take .skipToPart
      let next ← look (.expected .operand)
      let text ← part next false
      let (more, last) ← call (.parts next) done
      return ((e.expr, text) :: more, last)
  | _, .parameters => do
      if ← accept (.mark ")") then return []
      let spread ← accept (.mark "...")
      let e ← binding (.before [",", ")"])
      let parameter := if spread then .spread e else e
      if ← accept (.mark ",") then return parameter :: (← parameters)
      let _ ← require (.mark ")")
      return [parameter]
  | _, .pattern => do
      let t ← look (.expected .binding)
      match t.kind with
      | .mark "[" =>
          skip
          return .array (← call .itemPatterns done)
      | .mark "\x7b" =>
          skip
          return .object (← call .fieldPatterns done)
      | _ => return .name (← requireSome Kind.isName .binding).text
  | _, .itemPatterns => do
      if ← accept (.mark "]") then return []
      if ← accept (.mark ",") then return .hole :: (← call .itemPatterns done)
      if ← accept (.mark "...") then
        let e ← pattern
        let _ ← require (.mark "]")
        return [.spread e]
      let e ← binding (.before [",", "]"])
      if ← accept (.mark ",") then return e :: (← call .itemPatterns done)
      let _ ← require (.mark "]")
      return [e]
  | _, .fieldPatterns => do
      if ← accept (.mark "\x7d") then return []
      if ← accept (.mark "...") then
        let name ← requireSome Kind.isName .binding
        let _ ← require (.mark "\x7d")
        return [.spread (.name name.text)]
      let field ← fieldPattern
      if ← accept (.mark ",") then return field :: (← call .fieldPatterns done)
      let _ ← require (.mark "\x7d")
      return [field]
  | _, .statement => do statementAt (← look (.expected .operand))
  | _, .body => do
      let t ← look (.expected .operand)
      if ← accept (.mark "\x7d") then return ([], t)
      let statement ← statement
      let (more, close) ← call .body done
      return (if statement.isEmpty then more else statement :: more, close)
  | _, .declarations => do
      let target ← pattern
      if ← accept (.mark "=") then
        let value ← expr 0 ⟨[";", ","], true⟩
        let item := .binary false .assign target value.expr
        if ← accept (.mark ",") then return item :: (← call .declarations done)
        take (.endStatement none)
        return [item]
      else
        if ← accept (.mark ",") then return target :: (← call .declarations done)
        take (.endStatement (some (.required (.mark ","))))
        return [target]
  | _, .loopNames => do
      let e ← binding (.before [";", ","])
      if ← accept (.mark ",") then return e :: (← call .loopNames done)
      return [e]
  | _, .branches => do
      if ← accept (.mark "\x7d") then return []
      let value ←
        if ← accept (.keyword "default") then
          let _ ← require (.mark ":")
          pure none
        else
          let _ ← require (.keyword "case")
          let e ← expr 0 (.before [":"])
          let _ ← require (.mark ":")
          pure (some e.expr)
      let body ← call .branchBody done
      return .branch value body :: (← call .branches done)
  | _, .branchBody => do
      let t ← look (.expected .operand)
      if [.keyword "case", .keyword "default", .mark "\x7d"].contains t.kind then return []
      let statement ← statement
      let more ← call .branchBody done
      return if statement.isEmpty then more else statement :: more

end Reading

/-! ### Scripts -/

/-- What a script that is nested too deeply for its length would be refused with. -/
def Fault.tooDeep : Fault := (Token.next []).misfit (.expected .operand)

/-- What a part of the grammar is read as from a place on, with routines nested less deeply than
`fuel` tells. -/
def Routine.run (ends : Bool) : (fuel : Nat) → {β : Type} → Routine β → Cursor →
    Except Fault (β × Cursor)
  | 0, _, _, _ => .error Fault.tooDeep
  | fuel + 1, _, r, c => (Reading.ofRoutine r).run ends (run ends fuel) c

/-- The statements up to the end of the text, fewer than `count` of them. -/
def readStatements (ends : Bool) (fuel : Nat) :
    (count : Nat) → Cursor → Except Fault (List Statement)
  | 0, _ => .error Fault.tooDeep
  | count + 1, c => do
      if c.atEnd then return []
      let (statement, c) ← Routine.statement.run ends fuel c.restart
      let more ← readStatements ends fuel count c
      return if statement.isEmpty then more else statement :: more

/-- The statements of a text.  No part of it nests deeper than eight times its length and a bit. -/
def Statement.readWith (ends : Bool) (text : List Char) : Except Fault (List Statement) := do
  readStatements ends (8 * text.length + 64) (text.length + 1) (← Cursor.ofText text)

/-- The statements of a text, of which the last one may end with it. -/
def Statement.read (text : List Char) : Except Fault (List Statement) := readWith true text

end Script
end AssetPress
