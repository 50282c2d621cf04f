import AssetPress.Style.Spelling

/-!
# How elements are displayed

A display is told by a word of its own, or by how the element stands among others, how its inside is
laid out, and whether it is an item of a list.  What goes without saying is left out.  Main
statement: `print_flow` (of a laid-out inside that is no list item only its stand is printed).
-/

namespace AssetPress
namespace Style

inductive Display where
  /-- A word that says all. -/
  | whole (word : String)
  /-- How the element stands, how its inside is laid out, and whether it is an item of a list. -/
  | pair (stand layout : String) (isItem : Bool)
  deriving DecidableEq, Repr

namespace Display

/-- The ways to stand among others. -/
def stands : List String := ["block", "inline", "run-in"]

/-- The ways to lay out an inside. -/
def layouts : List String :=
  ["flow", "flow-root", "table", "flex", "-webkit-flex", "-ms-flexbox", "-webkit-box", "-moz-box",
    "grid", "ruby"]

def pairs : List (String × String) :=
  [("inline-block", "flow-root"), ("inline-table", "table"), ("inline-flex", "flex"),
    ("-webkit-inline-flex", "-webkit-flex"), ("-ms-inline-flexbox", "-ms-flexbox"),
    ("-webkit-inline-box", "-webkit-box"), ("-moz-inline-box", "-moz-box"),
    ("inline-grid", "grid")]

/-- The words that say all. -/
def wholes : List String :=
  ["none", "contents", "table-row-group", "table-header-group", "table-footer-group", "table-row",
    "table-cell", "table-column-group", "table-column", "table-caption", "ruby-base", "ruby-text",
    "ruby-base-container", "ruby-text-container"]

/-- How an element with a layout stands if nothing else is said. -/
def usualStand (layout : String) : String := if layout = "ruby" then "inline" else "block"

/-- What has been read of a pair. -/
structure Parts where
  stand : Option String
  layout : Option String
  isItem : Bool
  deriving DecidableEq, Repr

def Parts.add? (parts : Parts) (word : String) : Option Parts :=
  if word = "list-item" then some { parts with isItem := true }
  else if parts.stand.isNone && stands.contains word then some { parts with stand := some word }
  else if parts.layout.isNone && layouts.contains word then some { parts with layout := some word }
  else none

/-- The pair that has been read; only flowing text makes items of a list. -/
def Parts.pair? (parts : Parts) : Option Display :=
  let layout := parts.layout.getD "flow"
  if parts.isItem && !(["flow", "flow-root"].contains layout) then none
  else some (.pair (parts.stand.getD (usualStand layout)) layout parts.isItem)

/-- Reads a display from its words, in lower case. -/
def read? (words : List String) : Option Display :=
  match words with
  | [] => none
  | [word] =>
      if wholes.contains word then some (.whole word)
      else
        match pairs.lookup word with
        | some layout => some (.pair "inline" layout false)
        | none => ((Parts.mk none none false).add? word).bind Parts.pair?
  | _ => (words.foldlM Parts.add? ⟨none, none, false⟩).bind Parts.pair?

/-- The words of a pair that has no word of its own. -/
def pairWords (stand layout : String) (isItem : Bool) : List String :=
  (if stand ≠ usualStand layout ∨ (layout = "flow" ∧ isItem = false) then [stand] else []) ++
    (if layout ≠ "flow" then [layout] else []) ++ if isItem then ["list-item"] else []

def print : Display → String
  | whole word => word
  | pair stand layout isItem =>
      let own := if stand = "inline" && !isItem then pairs.find? fun p => p.2 == layout else none
      match own with
      | some (word, _) => word
      | none => " ".intercalate (pairWords stand layout isItem)

/-- Of an element whose inside flows and that is no item of a list only its stand is printed. -/
theorem print_flow (stand : String) : print (.pair stand "flow" false) = stand := by
  have hpairs : (pairs.find? fun p => p.2 == "flow") = none := by decide
  have hwords : pairWords stand "flow" false = [stand] := by
    unfold pairWords
    rw [if_pos (Or.inr ⟨rfl, rfl⟩)]
    rfl
  unfold print
  dsimp only
  rw [hpairs, ite_self, hwords]
  rfl

end Display
end Style
end AssetPress
