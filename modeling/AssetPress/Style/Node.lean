import AssetPress.Style.Token

/-!
# Blocks of stylesheets

Tokens between brackets belong together: a stylesheet is a tree whose inner nodes are the blocks.  A
closing bracket ends the block that began last if it fits it, and is a token like others if not; at
the end of the text all blocks end.  Main statement: `nodes_cut` (cutting a stretch in two loses
nothing).
-/

namespace AssetPress
namespace Style

/-- A token, or an opening token with what it encloses and the place where that ends. -/
inductive Node where
  | leaf (token : Token)
  | block (opening : Token) (inside : List Node) (finish : Place)

namespace Node

def front : Node → Token
  | leaf token => token
  | block opening _ _ => opening

def place (n : Node) : Place := n.front.place

def kind (n : Node) : Kind := n.front.kind

/-- A block that has begun, and the nodes before it, the last first. -/
abbrev Begun := List (Token × List Node)

/-- Ends all blocks at the end of the text; `read` are the nodes of the innermost one, the last
first. -/
def closeAll (finish : Place) (read : List Node) : Begun → List Node
  | [] => read.reverse
  | (opening, before) :: outer =>
      closeAll finish (block opening read.reverse finish :: before) outer

/-- The nodes that tokens make, behind the nodes in `read` and within the blocks that have
begun. -/
def buildFrom (finish : Place) (begun : Begun) (read : List Node) : List Token → List Node
  | [] => closeAll finish read begun
  | t :: rest =>
      match t.kind, begun with
      | .closing b, (opening, before) :: outer =>
          if opening.kind.opened? = some b then
            buildFrom finish outer (block opening read.reverse t.place :: before) rest
          else buildFrom finish begun (leaf t :: read) rest
      | kind, _ =>
          if kind.opened?.isSome then buildFrom finish ((t, read) :: begun) [] rest
          else buildFrom finish begun (leaf t :: read) rest

end Node

/-- Some nodes, and the place where they end. -/
structure Stretch where
  nodes : List Node
  finish : Place

namespace Stretch

/-- The tree of a text. -/
def ofText (text : List Char) : Stretch :=
  let (tokens, finish) := Token.scan text
  ⟨Node.buildFrom finish [] [] tokens, finish⟩

def place (s : Stretch) : Place := (s.nodes.head?.map Node.place).getD s.finish

def isComment : Kind → Bool
  | .comment _ => true
  | _ => false

/-- Whether a token is a blank or a comment. -/
def isGap : Kind → Bool
  | .blank _ => true
  | .comment _ => true
  | _ => false

def skipComments (s : Stretch) : Stretch :=
  { s with nodes := s.nodes.dropWhile fun n => isComment n.kind }

def skipGaps (s : Stretch) : Stretch :=
  { s with nodes := s.nodes.dropWhile fun n => isGap n.kind }

def solid (s : Stretch) : List Node := s.nodes.filter fun n => !isGap n.kind

/-- What stands before the first node of some kinds, and what begins with it. -/
def cut (stops : Kind → Bool) (s : Stretch) : Stretch × Stretch :=
  let behind : Stretch := ⟨s.nodes.dropWhile fun n => !stops n.kind, s.finish⟩
  (⟨s.nodes.takeWhile fun n => !stops n.kind, behind.place⟩, behind)

/-- The nodes before the first node of some kinds and those from it on are all the nodes. -/
theorem nodes_cut (stops : Kind → Bool) (s : Stretch) :
    (s.cut stops).1.nodes ++ (s.cut stops).2.nodes = s.nodes :=
  List.takeWhile_append_dropWhile

theorem solid_skipGaps (s : Stretch) : s.skipGaps.solid = s.solid := by
  unfold solid skipGaps
  induction s.nodes with
  | nil => rfl
  | cons n rest ih =>
      by_cases h : isGap n.kind = true
      · simpa [List.filter_cons, h] using ih
      · simp [h]

end Stretch
end Style
end AssetPress
