import AssetPress.Style.Piece

/-!
# Selectors

A selector tells which elements a rule is for: compounds of simple selectors with combinators
between them.  Within the block of a rule a selector is about elements inside those of the rule,
which `&` stands for; one that does not mention them begins with them.  Main statement:
`mentionsNesting_within` (so every selector within a block mentions them).
-/

namespace AssetPress
namespace Style

/-! ### Selectors -/

/-- What an element is asked for. -/
inductive Simple where
  /-- To be one of the elements of the rule around. -/
  | nesting
  /-- Nothing, in any namespace or in a certain one. -/
  | any
  | type (name : List Char)
  /-- Any namespace at all, or none. -/
  | space (any : Bool)
  | «class» (name : List Char)
  | id (name : List Char)
  /-- An attribute, perhaps with a way to compare it with a value and a letter behind that. -/
  | having (name : List Char) (test : Option (List Char × List Char)) (letter : Option Char)
  /-- A state. -/
  | state (name : List Char)
  | stateOf (name : List Char) (inside : List Piece)
  /-- A part of an element. -/
  | part (name : List Char)
  | partOf (name : List Char) (inside : List Piece)

/-- How an element stands to the one before it. -/
inductive Combinator where
  | descendant
  | child
  | next
  | later
  deriving DecidableEq, Repr

/-- What an element is asked for, with the elements that follow it up to the one that is chosen. -/
structure Selector where
  first : List Simple
  more : List (Combinator × List Simple)

namespace Selector

def simples (s : Selector) : List Simple := s.first ++ s.more.flatMap Prod.snd

/-- The selector behind elements of the rule around. -/
def behindNesting (combinator : Combinator) (s : Selector) : Selector :=
  ⟨[.nesting], (combinator, s.first) :: s.more⟩

/-- Whether the elements of the rule around are mentioned. -/
def mentionsNesting (s : Selector) : Bool :=
  s.simples.any fun simple => match simple with
    | .nesting => true
    | _ => false

/-- The selector as it stands within a block, behind a combinator if there is one. -/
def within (combinator : Option Combinator) (s : Selector) : Selector :=
  match combinator with
  | some combinator => s.behindNesting combinator
  | none => if s.mentionsNesting then s else s.behindNesting .descendant

theorem mentionsNesting_behindNesting (combinator : Combinator) (s : Selector) :
    (s.behindNesting combinator).mentionsNesting = true := rfl

theorem mentionsNesting_within (combinator : Option Combinator) (s : Selector) :
    (s.within combinator).mentionsNesting = true := by
  unfold within
  split
  · rfl
  · split
    · assumption
    · rfl

end Selector

/-! ### Names of states and parts -/

/-- The states that are known, which are printed in lower case. -/
def stateNames : List String :=
  ["active", "active-view-transition", "any-link", "autofill", "blank", "buffering", "checked",
    "closed", "corner-present", "current", "decrement", "default", "defined", "disabled",
    "double-button", "empty", "enabled", "end", "first", "first-child", "first-of-type", "focus",
    "focus-visible", "focus-within", "fullscreen", "future", "horizontal", "host", "hover",
    "in-range", "increment", "indeterminate", "invalid", "last-child", "last-of-type", "left",
    "link", "local-link", "modal", "muted", "no-button", "only-child", "only-of-type", "open",
    "optional", "out-of-range", "past", "paused", "picture-in-picture", "placeholder-shown",
    "playing", "popover-open", "read-only", "read-write", "required", "right", "root", "scope",
    "seeking", "single-button", "stalled", "start", "target", "target-within", "user-invalid",
    "user-valid", "valid", "vertical", "visited", "volume-locked", "window-inactive"]

/-- The parts that may stand behind a single colon. -/
def oldParts : List String := ["after", "before", "first-letter", "first-line"]

/-- The parts that are known, which are printed in lower case. -/
def partNames : List String :=
  oldParts ++
    ["backdrop", "cue", "cue-region", "details-content", "file-selector-button", "grammar-error",
      "marker", "placeholder", "selection", "spelling-error", "target-text", "view-transition"]

/-- A name in lower case if it is one of the given ones. -/
def known (names : List String) (name : List Char) : List Char :=
  let lower := name.map Char.toLower
  if names.contains (String.ofList lower) then lower else name

/-! ### Reading -/

/-- What has been read of a selector: the compounds before the last with the combinators behind
them, the last first, the parts of the last one, the last first, whether a part of an element has
been among them, and what is left. -/
structure Begun where
  before : List (List Simple × Combinator)
  simples : List Simple
  behindPart : Bool
  rest : Stretch

namespace Begun

def start (s : Stretch) : Begun := ⟨[], [], false, s⟩

/-- The compounds with the combinators before them, the last first, that follow `later`. -/
def chain (later : List (Combinator × List Simple)) :
    List (List Simple × Combinator) → List Simple → Selector
  | [], first => ⟨first, later⟩
  | (compound, combinator) :: before, last => chain ((combinator, last) :: later) before compound

def selector (b : Begun) : Selector := chain [] b.before b.simples.reverse

def add (b : Begun) (simple : Simple) (rest : Stretch) : Begun :=
  { b with simples := simple :: b.simples, rest := rest }

/-- The end of a compound; `rest` is behind the combinator. -/
def combine (b : Begun) (combinator : Combinator) (rest : Stretch) : Begun :=
  { b with
    before := (b.simples.reverse, combinator) :: b.before
    simples := []
    rest := rest }

end Begun

/-- The first node behind comments, with what is behind it. -/
def Stretch.next? (s : Stretch) : Option (Node × Stretch) :=
  match s.skipComments.nodes with
  | [] => none
  | n :: rest => some (n, ⟨rest, s.finish⟩)

/-- A fault where a stretch begins, behind comments. -/
def Stretch.fault {α : Type} (s : Stretch) (problem : Problem) : Except Fault α :=
  .error ⟨problem, s.place⟩

/-- A name or star behind the mark of a namespace; without one there is no compound at all. -/
def readQualified (b : Begun) : Except Fault Begun :=
  match b.rest.next? with
  | none => .ok { b with simples := [], rest := { b.rest with nodes := [] } }
  | some (n, rest) =>
      match n.kind with
      | .name name => .ok (b.add (.type name) rest)
      | .mark '*' => .ok (b.add .any rest)
      | kind => b.rest.fault (.qualified kind)

/-- The type of an element, at the beginning of a compound: a name or a star, perhaps in a
namespace. -/
def readType (b : Begun) : Except Fault Begun :=
  match b.rest.next? with
  | none => .ok b
  | some (n, rest) =>
      let isBar : Bool := rest.next?.any fun (bar, _) => bar.kind == .mark '|'
      match n.kind with
      | .name name =>
          if isBar then rest.fault (.foreign name) else .ok (b.add (.type name) rest)
      | .mark '*' =>
          if isBar then
            readQualified (b.add (.space true) ((rest.next?.map Prod.snd).getD rest))
          else .ok (b.add .any rest)
      | .mark '|' => readQualified (b.add (.space false) rest)
      | _ => .ok b

/-- The name of an attribute, perhaps behind the mark of a namespace. -/
def readAttributeName (s : Stretch) : Except Fault (List Char × Stretch) :=
  let qualified (s : Stretch) : Except Fault (List Char × Stretch) :=
    match s.next? with
    | some (n, rest) =>
        match n.kind with
        | .name name => .ok (name, rest)
        | kind => s.fault (.attributeQualified kind)
    | none => .error ⟨.endOfInput, s.finish⟩
  match s.next? with
  | none => .error ⟨.endOfInput, s.finish⟩
  | some (n, rest) =>
      match n.kind with
      | .name name =>
          if rest.next?.any fun (bar, _) => bar.kind == .mark '|' then rest.fault (.foreign name)
          else .ok (name, rest)
      | .mark '|' => qualified rest
      | .mark '*' =>
          match rest.next? with
          | some (bar, behind) =>
              if bar.kind = .mark '|' then qualified behind
              else rest.fault (.attributeBar bar.kind)
          | none => .error ⟨.endOfInput, rest.finish⟩
      | kind => s.fault (.attributeName kind)

def comparison? : Kind → Option (List Char)
  | .mark '=' => some ['=']
  | .comparison c => some [c, '=']
  | _ => none

/-- The letter behind the value of an attribute. -/
def readLetter (s : Stretch) : Except Fault (Option Char) :=
  match s.skipGaps.nodes with
  | [] => .ok none
  | n :: rest =>
      match n.kind with
      | .name letter =>
          let lower := letter.map Char.toLower
          if lower = ['i'] ∨ lower = ['s'] then
            match (Stretch.skipGaps ⟨rest, s.finish⟩).nodes with
            | [] => .ok lower.head?
            | more :: _ => (Stretch.mk rest s.finish).fault (.unexpected more.kind)
          else s.fault (.unexpected n.kind)
      | kind => s.fault (.unexpected kind)

def readAttribute (s : Stretch) : Except Fault Simple := do
  let (name, rest) ← readAttributeName s.skipGaps
  match rest.skipGaps.nodes with
  | [] => return .having name none none
  | n :: behind =>
      match comparison? n.kind with
      | none => rest.fault (.attributeMark n.kind)
      | some test =>
          let behind : Stretch := ⟨behind, rest.finish⟩
          match behind.skipGaps.nodes with
          | [] => .error ⟨.endOfInput, behind.finish⟩
          | v :: more =>
              match v.kind with
              | .name value | .quoted value =>
                  return .having name (some (test, value)) (← readLetter ⟨more, s.finish⟩)
              | kind => behind.fault (.attributeValue kind)

def Node.arguments (n : Node) : Except Fault (Option (List Piece)) :=
  match n with
  | .block ⟨.function _, _⟩ inside finish => (Piece.read ⟨inside, finish⟩).map some
  | _ => .ok none

/-- The name of a state or a part, with its arguments if it has any. -/
def readPseudo (n : Node) (rest : Stretch) :
    Except Fault (List Char × Option (List Piece) × Stretch) :=
  match n.kind with
  | .name name => .ok (name, none, rest)
  | .function name => do return (name, ← n.arguments, rest)
  | kind =>
      match n with
      | .leaf _ => rest.fault (.pseudoName kind)
      | .block t _ _ => .error ⟨.pseudoName kind, t.place.after '(' []⟩

/-- A state, behind a colon, or a part, behind two. -/
def readColon (b : Begun) (s : Stretch) : Except Fault Begun :=
  match s.next? with
  | none => .error ⟨.endOfInput, s.finish⟩
  | some (n, rest) => do
      let isPart := n.kind == .mark ':'
      let (n, rest) ←
        if isPart then
          match rest.next? with
          | none => throw ⟨.endOfInput, s.finish⟩
          | some found => pure found
        else pure (n, rest)
      let (name, inside, rest) ← readPseudo n rest
      if isPart || oldParts.contains (String.ofList (name.map Char.toLower)) then
        let simple := match inside with
          | some inside => Simple.partOf name inside
          | none => .part (known partNames name)
        return { b.add simple rest with behindPart := true }
      else
        let simple := match inside with
          | some inside => Simple.stateOf name inside
          | none => .state (known stateNames name)
        return b.add simple rest

/-- The next simple selector of a compound, behind its type, if there is one. -/
def readSimple (b : Begun) : Except Fault (Option Begun) :=
  match b.rest.next? with
  | none => .ok none
  | some (n, rest) =>
      let unlessPart (result : Except Fault Begun) : Except Fault (Option Begun) :=
        if b.behindPart then b.rest.fault (.behindPart n.kind) else result.map some
      match n.kind with
      | .hash name true => unlessPart (.ok (b.add (.id name) rest))
      | .mark '.' =>
          unlessPart <|
            match rest.next? with
            | none => .error ⟨.endOfInput, rest.finish⟩
            | some (c, behind) =>
                match c.kind with
                | .name name => .ok (b.add (.class name) behind)
                | kind => rest.fault (.className kind)
      | .opening .square =>
          unlessPart <|
            match n with
            | .block _ inside finish => (readAttribute ⟨inside, finish⟩).map (b.add · rest)
            | .leaf _ => .ok b
      | .mark ':' => (readColon b rest).map some
      | .mark '&' => .ok (some (b.add .nesting rest))
      | _ => .ok none

/-- The simple selectors of a compound, behind its type. -/
def readSimples : (fuel : Nat) → Begun → Except Fault Begun
  | 0, b => .ok b
  | fuel + 1, b => do
      match ← readSimple b with
      | some b => readSimples fuel b
      | none => return b

def readCompound (fuel : Nat) (b : Begun) : Except Fault Begun := do
  let b := { b with rest := b.rest.skipGaps }
  let b := match b.rest.nodes with
    | n :: rest =>
        if n.kind = .mark '&' then b.add .nesting { b.rest with nodes := rest } else b
    | [] => b
  readSimples fuel (← readType b)

def combinator? : Kind → Option Combinator
  | .mark '>' => some .child
  | .mark '+' => some .next
  | .mark '~' => some .later
  | _ => none

/-- What follows a compound: a combinator, with what is behind it, or none. -/
def readCombinator (s : Stretch) : Option (Combinator × Stretch) :=
  let behind := s.skipGaps
  let isApart := s.skipComments.nodes.head?.any fun n => Stretch.isGap n.kind
  match behind.nodes with
  | [] => none
  | n :: rest =>
      match combinator? n.kind with
      | some combinator => some (combinator, { s with nodes := rest })
      | none => if isApart then some (.descendant, behind) else none

def readCompounds : (fuel : Nat) → Begun → Except Fault Begun
  | 0, b => .ok b
  | fuel + 1, b => do
      let b ← readCompound (fuel + 1) b
      if b.simples.isEmpty then
        b.rest.fault (if b.before.isEmpty then .emptySelector else .danglingCombinator)
      else
        match readCombinator b.rest with
        | none => return b
        | some (combinator, rest) =>
            if b.behindPart then rest.fault .state
            else readCompounds fuel (b.combine combinator rest)

/-- A selector, with all that is left of it. -/
def readSelector (nested : Bool) (s : Stretch) : Except Fault Selector := do
  let fuel := s.nodes.length + 1
  let (combinator, s) ←
    if nested then
      let inner := s.skipGaps
      match inner.nodes with
      | [] => inner.fault .endOfInput
      | n :: rest =>
          match combinator? n.kind with
          | some combinator => pure (some combinator, { s with nodes := rest })
          | none => pure (none, inner)
    else pure (none, s)
  let b ← readCompounds fuel (.start s)
  match b.rest.skipGaps.nodes with
  | n :: _ => b.rest.fault (.unexpected n.kind)
  | [] => return if nested then b.selector.within combinator else b.selector

def readSelectors (nested : Bool) : (fuel : Nat) → Stretch → Except Fault (List Selector)
  | 0, _ => .ok []
  | fuel + 1, s => do
      let (first, behind) := s.cut fun kind => kind = .mark ','
      let selector ← readSelector nested first
      match behind.nodes with
      | [] => return [selector]
      | _ :: rest => return selector :: (← readSelectors nested fuel { behind with nodes := rest })

/-! ### Printing -/

def Simple.print : Simple → List Char
  | nesting => ['&']
  | any => ['*']
  | type name => spellName name
  | space true => ['*', '|']
  | space false => ['|']
  | «class» name => '.' :: spellName name
  | id name => '#' :: spellName name
  | having name test letter =>
      let value := match test with
        | none => []
        | some (test, value) =>
            let word := spellName value
            let quoted := spellString value
            test ++ if 0 < word.length ∧ word.length < quoted.length then word else quoted
      let letter := match letter with
        | some c => [' ', c]
        | none => []
      '[' :: spellName name ++ value ++ letter ++ [']']
  | state name => ':' :: spellName name
  | stateOf name inside => ':' :: spellName name ++ '(' :: Piece.print inside ++ [')']
  | part name =>
      (if oldParts.contains (String.ofList name) then [':'] else [':', ':']) ++ spellName name
  | partOf name inside => ':' :: ':' :: spellName name ++ '(' :: Piece.print inside ++ [')']

/-- Whether a simple selector asks for nothing. -/
def Simple.isAny : Simple → Bool
  | any => true
  | _ => false

/-- The text of a compound: one that asks for nothing is printed only if it stands alone. -/
def printCompound (simples : List Simple) : List Char :=
  match simples with
  | [.nesting, .any] => ['&', '*']
  | [.any] => ['*']
  | .space _ :: _ => simples.flatMap Simple.print
  | _ => (simples.filter fun s => !s.isAny).flatMap Simple.print

def Combinator.mark : Combinator → Char
  | descendant => ' '
  | child => '>'
  | next => '+'
  | later => '~'

def Selector.print (s : Selector) : List Char :=
  printCompound s.first ++
    s.more.flatMap fun (combinator, simples) => combinator.mark :: printCompound simples

end Style
end AssetPress
