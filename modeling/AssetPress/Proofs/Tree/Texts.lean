import AssetPress.Proofs.Results
import AssetPress.Proofs.Session.Inputs
import AssetPress.Proofs.Text.Utf8

/-!
# Sources that are texts

A path leads to a text if it leads to a regular file whose bytes are those of a text
(`Tree.IsText`).  A list of sources is read up to the first path that does not
(`Tree.FirstUnread`): reading fails exactly if there is one, and names it
(`mapM_readText_eq_error_iff`, `exists_firstUnread_iff`), and otherwise it gives all texts
(`mapM_readText_eq_ok_iff`).
-/

namespace AssetPress

/-! ### Paths to texts -/

namespace Tree

/-- The path leads to a regular file that holds a text. -/
def IsText (t : Tree) (base : Location) (p : Path) : Prop :=
  ∃ text : String, t.read base p = .ok (Utf8.encode text)

/-- The paths lead to regular files that hold the texts. -/
def Reads (t : Tree) (base : Location) (ps : List Path) (texts : List String) : Prop :=
  ps.map (t.read base) = (texts.map Utf8.encode).map .ok

/-- The path is the first in the list that does not lead to a text, for the given reason. -/
def FirstUnread (t : Tree) (base : Location) (ps : List Path) (p : Path) (why : FileError) :
    Prop :=
  ∃ before after, ps = before ++ p :: after ∧ (∀ q ∈ before, t.IsText base q) ∧
    ¬ t.IsText base p ∧ t.readText base p = .error why

variable {t u : Tree} {base : Location} {p : Path} {ps : List Path} {why : FileError}

theorem read_of_readText {p : Path} {text : String} (h : t.readText base p = .ok text) :
    t.read base p = .ok (Utf8.encode text) := by
  obtain ⟨d, n, content, hres, htext⟩ := readText_eq_ok_iff.mp h
  rw [read, hres, Utf8.encode_of_decode? htext]
  rfl

theorem readText_of_read {text : String} (h : t.read base p = .ok (Utf8.encode text)) :
    t.readText base p = .ok text := by
  rw [readText, h]
  simp only [Utf8.decode?_encode]

theorem isText_iff : t.IsText base p ↔ ∃ text, t.readText base p = .ok text := by
  constructor
  · rintro ⟨text, h⟩
    exact ⟨text, readText_of_read h⟩
  · rintro ⟨text, h⟩
    exact ⟨text, read_of_readText h⟩

theorem not_isText_iff : ¬ t.IsText base p ↔ ∃ why, t.readText base p = .error why := by
  rw [isText_iff]
  cases t.readText base p <;> simp

theorem mapError_readText_eq_ok_iff {text : String} :
    (t.readText base p).mapError (CompressError.readSource p) = .ok text ↔
      t.read base p = .ok (Utf8.encode text) := by
  constructor
  · intro h
    refine read_of_readText ?_
    cases hread : t.readText base p with
    | error why =>
        rw [hread] at h
        cases h
    | ok found =>
        rw [hread] at h
        cases h
        rfl
  · intro h
    rw [readText_of_read h]
    rfl

theorem mapM_readText_eq_ok_iff {texts : List String} :
    (ps.mapM fun p => (t.readText base p).mapError (CompressError.readSource p)) = .ok texts ↔
      t.Reads base ps texts := by
  constructor
  · intro h
    refine (map_eq_map_of_mapM_ok (k := fun text => .ok (Utf8.encode text)) ?_ h).trans ?_
    · intro p text hp
      exact mapError_readText_eq_ok_iff.mp hp
    · rw [List.map_map]
      rfl
  · exact mapM_ok_of_map_eq fun p text => mapError_readText_eq_ok_iff.mpr

/-- Reading sources fails at the first that is no text, and names it. -/
theorem mapM_readText_eq_error_iff {e : CompressError} :
    (ps.mapM fun p => (t.readText base p).mapError (CompressError.readSource p)) = .error e ↔
      ∃ p why, t.FirstUnread base ps p why ∧ e = .readSource p why := by
  rw [mapM_eq_error_iff]
  constructor
  · rintro ⟨before, p, after, hsplit, hbefore, hp⟩
    cases hread : t.readText base p with
    | ok text =>
        rw [hread] at hp
        cases hp
    | error why =>
        rw [hread] at hp
        refine ⟨p, why, ⟨before, after, hsplit, ?_, not_isText_iff.mpr ⟨why, hread⟩, hread⟩,
          (Except.error.inj hp).symm⟩
        intro q hq
        obtain ⟨text, htext⟩ := hbefore q hq
        exact ⟨text, mapError_readText_eq_ok_iff.mp htext⟩
  · rintro ⟨p, why, ⟨before, after, hsplit, hbefore, -, hread⟩, rfl⟩
    refine ⟨before, p, after, hsplit, fun q hq => ?_, by rw [hread]; rfl⟩
    obtain ⟨text, htext⟩ := hbefore q hq
    exact ⟨text, mapError_readText_eq_ok_iff.mpr htext⟩

theorem exists_firstUnread_iff :
    (∃ p why, t.FirstUnread base ps p why) ↔ ∃ p ∈ ps, ¬ t.IsText base p := by
  constructor
  · rintro ⟨p, why, before, after, rfl, -, hp, -⟩
    exact ⟨p, by simp, hp⟩
  · intro h
    cases hread : ps.mapM fun p => (t.readText base p).mapError (CompressError.readSource p) with
    | error e =>
        obtain ⟨p, why, hfirst, -⟩ := mapM_readText_eq_error_iff.mp hread
        exact ⟨p, why, hfirst⟩
    | ok texts =>
        obtain ⟨p, hp, hnot⟩ := h
        have hreads : t.Reads base ps texts := mapM_readText_eq_ok_iff.mp hread
        have hmem : t.read base p ∈ (texts.map Utf8.encode).map .ok :=
          hreads ▸ List.mem_map_of_mem hp
        obtain ⟨_, hbytes, heq⟩ := List.mem_map.mp hmem
        obtain ⟨text, -, rfl⟩ := List.mem_map.mp hbytes
        exact absurd ⟨text, heq.symm⟩ hnot

end Tree
end AssetPress
