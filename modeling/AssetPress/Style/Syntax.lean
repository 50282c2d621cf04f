import AssetPress.Style.Selector
import AssetPress.Style.Value

/-!
# The structure of stylesheets

A stylesheet is a row of rules.  A rule has selectors and a block of declarations, in which other
rules may stand; declarations behind those keep their place.  Main statement: `mem_ordered` (putting
the pressing declarations last neither drops nor adds one).
-/

namespace AssetPress
namespace Style

/-- A property and what it is set to, perhaps pressingly. -/
structure Declaration where
  property : List Char
  value : Value
  important : Bool

/-- A part of a stylesheet. -/
inductive Rule where
  /-- Declarations for the elements that some selectors choose, and rules within the block. -/
  | style (selectors : List Selector) (declarations : List Declaration) (rules : List Rule)
  /-- Declarations behind rules within a block. -/
  | behind (declarations : List Declaration)
  /-- A rule of another kind, known by its name alone. -/
  | other (name : List Char) (prelude : List Piece) (block : Option (List Piece))

/-- A stylesheet, with the comments at its beginning that are kept. -/
structure Sheet where
  notices : List (List Char)
  rules : List Rule

namespace Declaration

def ordered (declarations : List Declaration) : List Declaration :=
  declarations.filter (fun d => !d.important) ++ declarations.filter fun d => d.important

theorem mem_ordered {declarations : List Declaration} {d : Declaration} :
    d ∈ ordered declarations ↔ d ∈ declarations := by
  unfold ordered
  rw [List.mem_append, List.mem_filter, List.mem_filter, ← and_or_left]
  refine ⟨And.left, fun h => ⟨h, ?_⟩⟩
  cases d.important
  · exact Or.inl rfl
  · exact Or.inr rfl

end Declaration

/-! ### Properties -/

/-- The properties that are known, whose names are printed in lower case. -/
def propertyNames : List String :=
  ["align-content", "align-items", "align-self", "all", "animation", "animation-delay",
    "animation-direction", "animation-duration", "animation-fill-mode",
    "animation-iteration-count", "animation-name", "animation-play-state",
    "animation-timing-function", "appearance", "aspect-ratio", "backdrop-filter",
    "backface-visibility", "background", "background-attachment", "background-blend-mode",
    "background-clip", "background-color", "background-image", "background-origin",
    "background-position", "background-position-x", "background-position-y",
    "background-repeat", "background-size", "block-size", "border", "border-block",
    "border-bottom", "border-bottom-color", "border-bottom-left-radius",
    "border-bottom-right-radius", "border-bottom-style", "border-bottom-width",
    "border-collapse", "border-color", "border-image", "border-inline", "border-left",
    "border-left-color", "border-left-style", "border-left-width", "border-radius",
    "border-right", "border-right-color", "border-right-style", "border-right-width",
    "border-spacing", "border-style", "border-top", "border-top-color",
    "border-top-left-radius", "border-top-right-radius", "border-top-style",
    "border-top-width", "border-width", "bottom", "box-shadow", "box-sizing", "caret-color",
    "clip-path", "color", "color-scheme", "column-gap", "container", "content", "cursor",
    "direction", "display", "fill", "filter", "flex", "flex-basis", "flex-direction",
    "flex-flow", "flex-grow", "flex-shrink", "flex-wrap", "float", "font", "font-family",
    "font-size", "font-stretch", "font-style", "font-variant-caps", "font-weight", "gap",
    "grid", "grid-area", "grid-auto-columns", "grid-auto-flow", "grid-auto-rows",
    "grid-column", "grid-row", "grid-template", "grid-template-areas",
    "grid-template-columns", "grid-template-rows", "height", "inline-size", "inset",
    "justify-content", "justify-items", "justify-self", "left", "letter-spacing",
    "line-height", "list-style", "list-style-image", "list-style-position",
    "list-style-type", "margin", "margin-block", "margin-bottom", "margin-inline",
    "margin-left", "margin-right", "margin-top", "mask", "max-height", "max-width",
    "min-height", "min-width", "opacity", "order", "outline", "outline-color",
    "outline-style", "outline-width", "overflow", "overflow-wrap", "overflow-x",
    "overflow-y", "padding", "padding-block", "padding-bottom", "padding-inline",
    "padding-left", "padding-right", "padding-top", "perspective", "place-content",
    "place-items", "place-self", "position", "resize", "right", "rotate", "row-gap",
    "scale", "scroll-margin", "scroll-padding", "stroke", "tab-size", "text-align",
    "text-decoration", "text-decoration-color", "text-decoration-line", "text-indent",
    "text-overflow", "text-shadow", "text-transform", "top", "transform",
    "transform-origin", "transform-style", "transition", "transition-delay",
    "transition-duration", "transition-property", "transition-timing-function",
    "translate", "unicode-bidi", "user-select", "vertical-align", "visibility",
    "white-space", "width", "word-break", "word-spacing", "word-wrap", "z-index",
    "zoom"]

/-- The name of a property as it is printed. -/
def propertyName (name : List Char) : List Char := known propertyNames name

/-- Whether a property is one that the author has made up. -/
def isCustom (name : List Char) : Bool := name.take 2 = ['-', '-']

end Style
end AssetPress
