import AssetPress.Style.Display
import AssetPress.Style.Piece

/-!
# Values of stylesheets

Values and their shortest texts: a color, an extent, the four sides of a box by as few extents as
tell them, a display, or pieces whose meaning is not known.  Main statements: `sides_shorten` (the
sides can be told from the fewer extents) and `length_shorten_le`.
-/

namespace AssetPress
namespace Style

/-! ### Boxes -/

variable {α β : Type}

/-- The four sides that one to four extents tell: top, right, bottom and left. -/
def sides : List α → Option (α × α × α × α)
  | [t] => some (t, t, t, t)
  | [t, r] => some (t, r, t, r)
  | [t, r, b] => some (t, r, b, r)
  | [t, r, b, l] => some (t, r, b, l)
  | _ => none

variable [DecidableEq β]

/-- The fewest extents that tell the given sides, extents with the same key being alike. -/
def shorten (key : α → β) (t r b l : α) : List α :=
  if key l = key r then
    if key b = key t then
      if key r = key t then [t] else [t, r]
    else [t, r, b]
  else [t, r, b, l]

theorem sides_shorten (key : α → β) (t r b l : α) :
    sides ((shorten key t r b l).map key) = some (key t, key r, key b, key l) := by
  unfold shorten
  split
  · split
    · split <;> simp_all [sides]
    · simp_all [sides]
  · rfl

/-- No list of extents that tells the same sides is shorter. -/
theorem length_shorten_le {key : α → β} {ls : List α} {t r b l : α}
    (h : sides (ls.map key) = some (key t, key r, key b, key l)) :
    (shorten key t r b l).length ≤ ls.length := by
  have hlength : (ls.map key).length = ls.length := List.length_map key
  rw [← hlength]
  unfold sides at h
  split at h <;> simp only [Option.some.injEq, Prod.mk.injEq, reduceCtorEq] at h
  all_goals
    rename_i heq
    rw [heq]
    unfold shorten
    grind

/-! ### Extents -/

/-- How far something reaches: as far as is needed, or a length. -/
inductive Extent where
  | auto
  | length (l : Length)
  deriving DecidableEq, Repr

namespace Extent

def read? (kind : Kind) : Option Extent :=
  match kind with
  | .name text => if String.ofList (text.map Char.toLower) = "auto" then some .auto else none
  | _ => (Length.read? kind).map .length

/-- What tells extents apart. -/
def key : Extent → Extent
  | auto => auto
  | length l => length l.key

def print : Extent → List Char
  | auto => "auto".toList
  | length l => l.print

end Extent

/-! ### Values -/

/-- What a property is set to. -/
inductive Value where
  | color (c : Color)
  /-- A word with a meaning of its own. -/
  | word (text : String)
  | extent (e : Extent)
  | box (top right bottom left : Extent)
  | display (d : Display)
  | pieces (pieces : List Piece)

namespace Value

/-- Names of extents that depend on what is inside. -/
def contentNames : List String :=
  ["min-content", "-webkit-min-content", "-moz-min-content", "max-content",
    "-webkit-max-content", "-moz-max-content", "stretch", "-webkit-fill-available",
    "-moz-available", "fit-content", "-webkit-fit-content", "-moz-fit-content", "contain"]

/-- Names of colors that the surroundings choose. -/
def systemColors : List String :=
  ["accentcolor", "accentcolortext", "activetext", "buttonborder", "buttonface", "buttontext",
    "canvas", "canvastext", "field", "fieldtext", "graytext", "highlight", "highlighttext",
    "linktext", "mark", "marktext", "selecteditem", "selecteditemtext", "visitedtext",
    "activeborder", "activecaption", "appworkspace", "background", "buttonhighlight",
    "buttonshadow", "captiontext", "inactiveborder", "inactivecaption", "inactivecaptiontext",
    "infobackground", "infotext", "menu", "menutext", "scrollbar", "threeddarkshadow",
    "threedface", "threedhighlight", "threedlightshadow", "threedshadow", "window",
    "windowframe", "windowtext"]

/-- The name that a token is, in lower case. -/
def name? (kind : Kind) : Option String :=
  match kind with
  | .name text => some (String.ofList (text.map Char.toLower))
  | _ => none

/-- A token that is one of the given names, in whatever case. -/
def oneOf? (names : List String) (kind : Kind) : Option Value :=
  (name? kind).bind fun name => if names.contains name then some (.word name) else none

/-- A color, or one that the text or the surroundings choose. -/
def color? (kind : Kind) : Option Value :=
  match kind with
  | .hash digits _ => (Color.ofDigits? digits).map .color
  | .name text =>
      let name := String.ofList (text.map Char.toLower)
      if name = "currentcolor" then some (.word "currentColor")
      else ((Color.ofName? name).map .color).or (oneOf? systemColors kind)
  | _ => none

def extent? (kind : Kind) : Option Value :=
  ((Extent.read? kind).map .extent).or (oneOf? contentNames kind)

/-- The box that tokens tell, if all of them are extents. -/
def box? (kinds : List Kind) : Option Value := do
  let (t, r, b, l) ← sides (← kinds.mapM Extent.read?)
  some (.box t r b l)

/-- The display that tokens tell, if all of them are names. -/
def display? (kinds : List Kind) : Option Value := do
  return .display (← Display.read? (← kinds.mapM name?))

/-- What a property whose values are known is set to by the tokens, if it is one of them. -/
def known? (property : String) (kinds : List Kind) : Option Value :=
  match property, kinds with
  | "color", [kind] => color? kind
  | "width", [kind] => extent? kind
  | "height", [kind] => extent? kind
  | "display", _ => display? kinds
  | "margin", _ => box? kinds
  | "padding", _ => box? kinds
  | _, _ => none

def read (property : List Char) (s : Stretch) : Except Fault Value :=
  match known? (String.ofList property) (s.solid.map Node.kind) with
  | some value => .ok value
  | none => (Piece.read s).map pieces

def print : Value → List Char
  | color c => c.print
  | word text => text.toList
  | extent e => e.print
  | box t r b l => [' '].intercalate ((shorten Extent.key t r b l).map Extent.print)
  | display d => d.print.toList
  | pieces ps => Piece.print ps

end Value
end Style
end AssetPress
