import AssetPress.Script.Name
import AssetPress.Script.Syntax

/-!
# Names in use

The names that a function introduces, as parameters or inside its body, and the names that it uses
from outside.  A function's own names may be called otherwise, as long as none of them is called
like a name that it uses from outside.  Main statement: `ownNames_not_mem`, so that renaming
captures nothing.
-/

namespace AssetPress
namespace Script

/-! ### Names introduced -/

mutual

/-- The names that a statement introduces in the function around it. -/
def Statement.introduced : Statement → List (List Char)
  | .declare _ items => Expr.boundItems items
  | .block body => Statement.introducedIn body
  | .label _ body => body.introduced
  | .function _ name _ _ => [name]
  | .choose _ yes no => yes.introduced ++ Statement.introducedPerhaps no
  | .loop _ body => body.introduced
  | .loopBefore body _ => body.introduced
  | .count start _ _ body => Statement.introducedPerhaps start ++ body.introduced
  | .each item _ _ body => item.introduced ++ body.introduced
  | .select _ branches => Statement.introducedIn branches
  | .branch _ body => Statement.introducedIn body
  | .attempt body failure handler last =>
      Statement.introducedIn body ++ (failure.map Expr.bound).getD [] ++
        Statement.introducedPerhaps handler ++ Statement.introducedPerhaps last
  | _ => []

/-- The names that some statements introduce in the function around them. -/
def Statement.introducedIn : List Statement → List (List Char)
  | [] => []
  | s :: more => s.introduced ++ Statement.introducedIn more

/-- The names that a statement introduces, if there is one. -/
def Statement.introducedPerhaps : Option Statement → List (List Char)
  | none => []
  | some s => s.introduced

end

/-! ### Names used -/

mutual

/-- The names that an expression uses without introducing them. -/
def Expr.free : Expr → List (List Char)
  | .literal _ => []
  | .name word => [word]
  | .this => []
  | .super => []
  | .template tag _ rest => Expr.freePerhaps tag ++ Expr.freeParts rest
  | .array items => Expr.freeItems items
  | .hole => []
  | .spread e => e.free
  | .object fields => Expr.freeItems fields
  | .field key value => key.free ++ value.free
  | .shorthand word => [word]
  | .method _ key parameters body =>
      let own := Expr.boundItems parameters ++ Statement.introducedIn body
      let used := Expr.freeItems parameters ++ Expr.freeBody body
      key.free ++ used.filter fun word => !own.contains word
  | .member _ _ owner _ => owner.free
  | .index _ owner key => owner.free ++ key.free
  | .call _ _ callee arguments => callee.free ++ Expr.freeItems arguments
  | .before _ operand => operand.free
  | .behind operand _ => operand.free
  | .binary _ _ left right => left.free ++ right.free
  | .choice _ test yes no => test.free ++ yes.free ++ no.free
  | .function _ name parameters body =>
      let own := name.toList ++ Expr.boundItems parameters ++ Statement.introducedIn body
      (Expr.freeItems parameters ++ Expr.freeBody body).filter fun word => !own.contains word

/-- The names that the name of a field uses. -/
def Key.free : Key → List (List Char)
  | .plain _ => []
  | .computed e => e.free

def Expr.freeItems : List Expr → List (List Char)
  | [] => []
  | e :: more => e.free ++ Expr.freeItems more

/-- The names that an expression uses, if there is one. -/
def Expr.freePerhaps : Option Expr → List (List Char)
  | none => []
  | some e => e.free

/-- The names that some parts of a template use. -/
def Expr.freeParts : List (Expr × List Char) → List (List Char)
  | [] => []
  | (e, _) :: more => e.free ++ Expr.freeParts more

def Statement.free : Statement → List (List Char)
  | .empty => []
  | .declare _ items => Expr.freeItems items
  | .evaluate e => e.free
  | .answer e => Expr.freePerhaps e
  | .block body => Expr.freeBody body
  | .label _ body => body.free
  | .function _ _ parameters body =>
      let own := Expr.boundItems parameters ++ Statement.introducedIn body
      (Expr.freeItems parameters ++ Expr.freeBody body).filter fun word => !own.contains word
  | .choose test yes no => test.free ++ yes.free ++ Statement.freePerhaps no
  | .loop test body => test.free ++ body.free
  | .loopBefore body test => body.free ++ test.free
  | .count start test step body =>
      Statement.freePerhaps start ++ Expr.freePerhaps test ++ Expr.freePerhaps step ++ body.free
  | .each item _ items body => item.free ++ items.free ++ body.free
  | .select e branches => e.free ++ Expr.freeBody branches
  | .branch e body => Expr.freePerhaps e ++ Expr.freeBody body
  | .throw e => e.free
  | .jump _ _ => []
  | .attempt body _ handler last =>
      Expr.freeBody body ++ Statement.freePerhaps handler ++ Statement.freePerhaps last

/-- The names that a statement uses, if there is one. -/
def Statement.freePerhaps : Option Statement → List (List Char)
  | none => []
  | some s => s.free

def Expr.freeBody : List Statement → List (List Char)
  | [] => []
  | s :: more => s.free ++ Expr.freeBody more

end

/-! ### Renaming -/

/-- What a function's own names are called, in the light of what others are called: short, and like
no name that the function uses from outside. -/
def ownNames (r : Renaming) (name : Option (List Char)) (parameters : List Expr)
    (body : List Statement) : Renaming :=
  let own := (name.toList ++ Expr.boundItems parameters ++ Statement.introducedIn body).eraseDups
  let inside := Expr.freeItems parameters ++ Expr.freeBody body
  let used := (inside.filter fun word => !own.contains word).map r.apply
  Renaming.fresh used own

/-- No name of a function's own is called like one that it uses from outside. -/
theorem ownNames_not_mem {r : Renaming} {name : Option (List Char)} {parameters : List Expr}
    {body : List Statement} {word short used : List Char}
    (h : (word, short) ∈ ownNames r name parameters body)
    (hused : used ∈ Expr.freeItems parameters ++ Expr.freeBody body)
    (hout : used ∉ name.toList ++ Expr.boundItems parameters ++ Statement.introducedIn body) :
    r.apply used ≠ short := by
  intro heq
  refine Renaming.not_mem_of_mem_fresh h ?_
  refine heq ▸ List.mem_map_of_mem (List.mem_filter.mpr ⟨hused, ?_⟩)
  simpa [List.mem_eraseDups] using hout

end Script
end AssetPress
