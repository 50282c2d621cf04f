import AssetPress.Text.Utf8

/-!
# Bundles

Sources are put together in their order, each on lines of its own: a source that does not end in a
line end gets one.  Main statement: `toList_bundle_append`, by which a bundle of more sources is
the bundle of the first ones and that of the others.
-/

namespace AssetPress

/-- A source with a line end at its end. -/
def terminated (text : String) : String :=
  if text.toList.getLast? = some '\n' then text else text ++ "\n"

/-- The sources put together. -/
def bundle (texts : List String) : String := String.join (texts.map terminated)

/-- How many bytes the sources have, added line ends not counted. -/
def sourceSize : List String → Nat
  | [] => 0
  | text :: more => (Utf8.encode text).length + sourceSize more

theorem terminated_terminated (text : String) :
    terminated (terminated text) = terminated text := by
  unfold terminated
  split
  · simp [*]
  · simp

theorem toList_bundle (texts : List String) :
    (bundle texts).toList = texts.flatMap fun t => (terminated t).toList := by
  unfold bundle
  rw [String.toList_join, List.flatMap_map]

theorem toList_bundle_append (as bs : List String) :
    (bundle (as ++ bs)).toList = (bundle as).toList ++ (bundle bs).toList := by
  simp [toList_bundle]

end AssetPress
