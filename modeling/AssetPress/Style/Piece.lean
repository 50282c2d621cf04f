import AssetPress.Style.Color
import AssetPress.Style.Fault
import AssetPress.Style.Length
import AssetPress.Style.Node

/-!
# Values by their tokens

A value whose meaning is not known is a row of pieces: its tokens, with one blank for each blank or
comment between them, and none behind a mark or a block.  Colors and numbers are recognized
nevertheless and printed in their shortest form.  Main statement: `length_trimmed_le` (a row is only
ever shortened at its ends).
-/

namespace AssetPress
namespace Style

inductive Piece where
  | gap
  | color (c : Color)
  | token (kind : Kind)
  /-- A function with what is between its parentheses. -/
  | function (name : List Char) (inside : List Piece)

namespace Piece

/-- How many blocks may be within each other. -/
def depthLimit : Nat := 500

def isGap : Piece → Bool
  | gap => true
  | _ => false

/-- Whether a token breaks a value. -/
def isBroken : Kind → Bool
  | .brokenQuote _ => true
  | .closing _ => true
  | _ => false

/-- Whether no blank is needed behind a token. -/
def isMark : Kind → Bool
  | .mark ':' => false
  | .mark ';' => false
  | .mark _ => true
  | _ => false

def ofKind (kind : Kind) : Piece :=
  match kind with
  | .hash digits _ => ((Color.ofDigits? digits).map color).getD (token kind)
  | .dimension n unit => token (.dimension n ((Length.unit? unit).getD unit))
  | _ => token kind

/-- A row without a blank at its beginning. -/
def withoutFirst (pieces : List Piece) : List Piece :=
  if pieces.head?.any isGap then pieces.tail else pieces

/-- A row without a blank at its end. -/
def withoutLast (pieces : List Piece) : List Piece :=
  if pieces.getLast?.any isGap then pieces.dropLast else pieces

/-- A row without a blank at its beginning and one at its end, unless it is all there is. -/
def trimmed (pieces : List Piece) : List Piece :=
  if pieces.length ≤ 1 then pieces else withoutLast (withoutFirst pieces)

theorem length_withoutFirst_le (pieces : List Piece) :
    (withoutFirst pieces).length ≤ pieces.length := by
  unfold withoutFirst
  split
  · rw [List.length_tail]
    exact Nat.sub_le _ _
  · exact Nat.le_refl _

theorem length_withoutLast_le (pieces : List Piece) :
    (withoutLast pieces).length ≤ pieces.length := by
  unfold withoutLast
  split
  · rw [List.length_dropLast]
    exact Nat.sub_le _ _
  · exact Nat.le_refl _

theorem length_trimmed_le (pieces : List Piece) : (trimmed pieces).length ≤ pieces.length := by
  unfold trimmed
  split
  · exact Nat.le_refl _
  · exact Nat.le_trans (length_withoutLast_le _) (length_withoutFirst_le _)

/-- The pieces of some nodes, behind the pieces in `read`, the last first; `marked` says that no
blank is needed in front. -/
def readFrom (depth : Nat) (marked : Bool) (read : List Piece) :
    List Node → Except Fault (List Piece)
  | [] => .ok read
  | .leaf t :: rest =>
      if Stretch.isGap t.kind then
        readFrom depth marked (if marked then read else gap :: read) rest
      else if isBroken t.kind then .error ⟨.unexpected t.kind, t.place⟩
      else if isMark t.kind then
        let before := if read.head?.any isGap then read.tail else read
        readFrom depth true (token t.kind :: before) rest
      else readFrom depth false (ofKind t.kind :: read) rest
  | .block t inside _ :: rest =>
      if depthLimit ≤ depth then
        .error ⟨.depth, (inside.head?.map Node.place).getD t.place⟩
      else
        match t.kind with
        | .function name =>
            match readFrom (depth + 1) false [] inside with
            | .ok inside =>
                readFrom depth true (function name (trimmed inside.reverse) :: read) rest
            | .error fault => .error fault
        | kind =>
            match readFrom (depth + 1) false (token kind :: read) inside with
            | .ok inside =>
                let close := (kind.opened?.map fun b => token (.closing b)).toList
                readFrom depth true (close ++ inside) rest
            | .error fault => .error fault

def read (s : Stretch) : Except Fault (List Piece) :=
  (readFrom 0 false [] s.nodes).map fun pieces => trimmed pieces.reverse

/-! ### Printing -/

/-- The text of a mark; the marks of sums are set apart. -/
def printMark (c : Char) : List Char := if c = '+' ∨ c = '-' then [' ', c, ' '] else [c]

/-- The text of a percentage: as it is written, if it is a whole number. -/
def printPercentage (n : Numeral) : List Char :=
  let shown := n.amount.hundredfold
  let sign := if shown.negative then ['-'] else if n.signed then ['+'] else []
  let size :=
    match n.whole with
    | some whole => digitsOf whole.natAbs
    | none =>
        if shown.isZero then ['0', '.', '0']
        else if shown.isWhole then Brief.print shown.size ++ ['.', '0']
        else Brief.print shown.size
  sign ++ size ++ ['%']

def printKind : Kind → List Char
  | .name text => spellName text
  | .atName text => '@' :: spellName text
  | .hash text named => '#' :: (if named then spellName text else text.flatMap spellPart)
  | .quoted text => spellString text
  | .brokenQuote text => spellString text
  | .address text => "url(".toList ++ text ++ [')']
  | .number n => n.amount.print
  | .percentage n => printPercentage n
  | .dimension n unit => n.amount.printWith (spellUnit unit)
  | .blank _ => [' ']
  | .comment _ => [' ']
  | .mark c => printMark c
  | .comparison c => [c, '=']
  | .documentOpen => "<!--".toList
  | .documentClose => "-->".toList
  | .opening .round => ['(']
  | .opening .square => ['[']
  | .opening .curly => ['\x7b']
  | .function name => spellName name ++ ['(']
  | .closing .round => [')']
  | .closing .square => [']']
  | .closing .curly => ['\x7d']

def print : List Piece → List Char
  | [] => []
  | gap :: rest => ' ' :: print rest
  | color c :: rest => c.print ++ print rest
  | token kind :: rest => printKind kind ++ print rest
  | function name inside :: rest => spellName name ++ '(' :: print inside ++ ')' :: print rest

end Piece
end Style
end AssetPress
