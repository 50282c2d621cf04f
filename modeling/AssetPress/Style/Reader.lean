import AssetPress.Style.Syntax

/-!
# Reading stylesheets

From the tree of tokens to rules.  A block is read part by part: what begins with a name is taken
for a declaration that ends at a semicolon, and if it is none, for a rule; all else is a rule.  That
a rule has a block is checked before its selectors are.  The first fault is the fault of the whole
stylesheet.
-/

namespace AssetPress
namespace Style

def isSemicolon (kind : Kind) : Bool := kind == .mark ';'

def opensBlock (kind : Kind) : Bool := kind == .opening .curly

/-! ### Declarations -/

/-- Whether a declaration is pressing, and what is left behind that. -/
def readImportant (s : Stretch) : Bool × Stretch :=
  match s.skipGaps.nodes with
  | [] => (false, s)
  | n :: rest =>
      if n.kind = .mark '!' then
        match (Stretch.skipGaps ⟨rest, s.finish⟩).nodes with
        | [] => (false, s)
        | word :: rest =>
            if Value.name? word.kind = some "important" then (true, { s with nodes := rest })
            else (false, s)
      else (false, s)

def readDeclaration (name : List Char) (s : Stretch) : Except Fault Declaration :=
  match s.skipGaps.nodes with
  | [] => .error ⟨.endOfInput, s.finish⟩
  | n :: rest =>
      if n.kind = .mark ':' then do
        let property := propertyName name
        let (value, rest) := Stretch.cut
          (fun kind => kind == .mark '!' || (opensBlock kind && !isCustom name))
          ⟨rest, s.finish⟩
        let value ← Value.read property value
        let (important, rest) := readImportant rest
        match rest.skipGaps.nodes with
        | [] => return ⟨property, value, important⟩
        | n :: _ => rest.fault (.unexpected n.kind)
      else s.fault (.unexpected n.kind)

/-! ### Rules -/

/-- What has been read of a block: the declarations before all rules, the rules, and the
declarations behind the last of them, each with the last first. -/
structure Body where
  declarations : List Declaration
  rules : List Rule
  behind : List Declaration

namespace Body

/-- A block of which nothing has been read. -/
def empty : Body := ⟨[], [], []⟩

/-- The rules, together with the declarations behind the last of them. -/
def allRules (b : Body) : List Rule :=
  if b.behind.isEmpty then b.rules else .behind b.behind.reverse :: b.rules

def declare (b : Body) (d : Declaration) : Body :=
  if b.rules.isEmpty then { b with declarations := d :: b.declarations }
  else { b with behind := d :: b.behind }

def add (b : Body) (r : Rule) : Body := { b with rules := r :: b.allRules, behind := [] }

/-- The rule with the given selectors and this block. -/
def toRule (selectors : List Selector) (b : Body) : Rule :=
  .style selectors b.declarations.reverse b.allRules.reverse

end Body

/-- Whether a name is that of the rule that tells how a text is encoded, which is passed over. -/
def isEncodingName (name : List Char) : Bool := name.map Char.toLower = "charset".toList

/-- A rule of another kind, behind its name. -/
def readOther (name : List Char) (s : Stretch) : Except Fault (Option Rule × Stretch) := do
  let (before, rest) := s.cut fun kind => isSemicolon kind || opensBlock kind
  let pieces ← Piece.read before
  let block ← match rest.nodes with
    | .block _ inside finish :: _ => (Piece.read ⟨inside, finish⟩).map some
    | _ => pure none
  let rule := if isEncodingName name then none else some (.other name pieces block)
  return (rule, { rest with nodes := rest.nodes.tail })

mutual

/-- A rule with its block; within a block it must begin before the next semicolon. -/
def readRule (fuel : Nat) (nested : Bool) (s : Stretch) : Except Fault (Rule × Stretch) :=
  match fuel with
  | 0 => .error ⟨.depth, s.place⟩
  | fuel + 1 => do
      let (before, rest) := s.cut fun kind => opensBlock kind || (nested && isSemicolon kind)
      match rest.nodes with
      | .block _ inside finish :: behind =>
          let selectors ← readSelectors nested (before.nodes.length + 1) before
          let body ← readBody fuel .empty ⟨inside, finish⟩
          return (body.toRule selectors, ⟨behind, s.finish⟩)
      | [] => .error ⟨.endOfInput, s.finish⟩
      | .leaf t :: _ => rest.fault (.unexpected t.kind)

/-- The parts of a block, behind those in `b`. -/
def readBody (fuel : Nat) (b : Body) (s : Stretch) : Except Fault Body :=
  match fuel with
  | 0 => .error ⟨.depth, s.place⟩
  | fuel + 1 => do
      let s := s.skipGaps
      match s.nodes with
      | [] => return b
      | n :: rest =>
          let behind : Stretch := ⟨rest, s.finish⟩
          if isSemicolon n.kind then readBody fuel b behind
          else
            match n.kind with
            | .atName name =>
                let (rule, rest) ← readOther name behind
                readBody fuel ((rule.map b.add).getD b) rest
            | .name name =>
                let (declaration, rest) := behind.cut isSemicolon
                match readDeclaration name declaration with
                | .ok d => readBody fuel (b.declare d) { rest with nodes := rest.nodes.tail }
                | .error fault =>
                    match readRule fuel true s with
                    | .ok (rule, rest) => readBody fuel (b.add rule) rest
                    | .error _ => .error fault
            | _ =>
                let (rule, rest) ← readRule fuel true s
                readBody fuel (b.add rule) rest

end

/-! ### Sheets -/

/-- Whether a token may stand between rules. -/
def isBetweenRules (kind : Kind) : Bool :=
  Stretch.isGap kind || kind == .documentOpen || kind == .documentClose

/-- The rules of a stretch, behind those in `read`, the last first. -/
def readRules (depth : Nat) : (fuel : Nat) → (read : List Rule) → Stretch → Except Fault (List Rule)
  | 0, read, _ => .ok read.reverse
  | fuel + 1, read, s => do
      let s := { s with nodes := s.nodes.dropWhile fun n => isBetweenRules n.kind }
      match s.nodes with
      | [] => return read.reverse
      | n :: rest =>
          match n.kind with
          | .atName name =>
              let (rule, rest) ← readOther name ⟨rest, s.finish⟩
              readRules depth fuel (rule.toList ++ read) rest
          | _ =>
              let (rule, rest) ← readRule depth false s
              readRules depth fuel (rule :: read) rest

/-- The comments that are kept: those at the beginning, up to the first that asks for nothing. -/
def keptComments : List Node → List (List Char)
  | .leaf ⟨.blank _, _⟩ :: rest => keptComments rest
  | .leaf ⟨.comment ('!' :: text), _⟩ :: rest => ('!' :: text) :: keptComments rest
  | _ => []

def Sheet.read (text : List Char) : Except Fault Sheet := do
  let s := Stretch.ofText text
  let fuel := text.length + 1
  return ⟨keptComments s.nodes, ← readRules fuel fuel [] s⟩

end Style
end AssetPress
