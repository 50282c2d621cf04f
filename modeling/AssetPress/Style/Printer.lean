import AssetPress.Style.Reader

/-!
# Printing stylesheets

The shortest text for a stylesheet: no blanks but those that stand for a combinator or keep values
apart, a semicolon between declarations and none behind the last, unless rules follow in the block.
Rules are neither merged nor reordered, and empty ones stay.

The minifier that is imitated here knows the whole language.  Its answers are known, and are those
of this library, for rules with types, classes and ids as selectors, compounds, descendants,
children and lists of them, and with colors, `display`, `margin`, `padding`, `width` and `height` as
declarations, and for what is wrong with the likes of them.  Other selectors and rules follow the
same grammar; of other properties and of functions in values no shorter spelling is looked for.
-/

namespace AssetPress
namespace Style

def Declaration.print (d : Declaration) : List Char :=
  spellName d.property ++ ':' :: d.value.print ++ if d.important then "!important".toList else []

def printDeclarations (declarations : List Declaration) : List Char :=
  [';'].intercalate ((Declaration.ordered declarations).map Declaration.print)

/-- A semicolon, if something stands on both of its sides. -/
def semicolonBetween (before behind : Bool) : List Char := if before && behind then [';'] else []

mutual

def Rule.print (last : Bool) : Rule → List Char
  | .style selectors declarations rules =>
      [','].intercalate (selectors.map Selector.print) ++
        '\x7b' :: printDeclarations declarations ++
          semicolonBetween (!declarations.isEmpty) (!rules.isEmpty) ++
            Rule.printAll rules ++ ['\x7d']
  | .behind declarations =>
      printDeclarations declarations ++ semicolonBetween true (!last)
  | .other name prelude block =>
      '@' :: name ++ (if prelude.isEmpty then [] else ' ' :: Piece.print prelude) ++
        match block with
        | some pieces => '\x7b' :: Piece.print pieces ++ ['\x7d']
        | none => [';']

def Rule.printAll : List Rule → List Char
  | [] => []
  | [r] => r.print true
  | r :: more => r.print false ++ Rule.printAll more

end

def printNotice (text : List Char) : List Char := "/*".toList ++ text ++ "*/\n".toList

def Sheet.print (s : Sheet) : List Char :=
  s.notices.flatMap printNotice ++ s.rules.flatMap (Rule.print true)

/-- The shortest text of a stylesheet, or what is wrong with it. -/
def minify (source : String) : Except Fault String := do
  let sheet ← Sheet.read source.toList
  return String.ofList sheet.print

end Style
end AssetPress
