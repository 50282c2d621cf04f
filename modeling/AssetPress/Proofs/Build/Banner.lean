import AssetPress.Proofs.Build.Course
import AssetPress.Proofs.Session.Contents

/-!
# Banners as comments

The banner of an artifact is meant to be one comment.  A reader that passes over a comment goes to
its first end (`behindComment`), and the version, which may be any text, stands before the end that
the banner has in mind.  So what such a reader is left with is the code alone exactly if the version
holds no end of a comment, and otherwise the rest of the version and of the banner comes before the
code (`skipComment_content`).
-/

namespace AssetPress

def star : UInt8 := 42

def commentStart : Bytes := Utf8.encode "/*"

def commentEnd : Bytes := Utf8.encode "*/"

/-- What stands behind the first end of a comment. -/
def behindComment : Bytes → Option Bytes
  | [] => none
  | b :: rest => if commentEnd <+: b :: rest then some (rest.drop 1) else behindComment rest

/-- What stands behind a line end at the beginning. -/
def skipLineEnd : Bytes → Bytes
  | [] => []
  | b :: rest => if b = lineEnd then rest else b :: rest

/-- What is left of a text for a reader that skips a comment at its beginning and a line end. -/
def skipComment (bytes : Bytes) : Option Bytes :=
  if commentStart <+: bytes then (behindComment (bytes.drop commentStart.length)).map skipLineEnd
  else none

/-! ### The first end of a comment -/

theorem commentEnd_eq : commentEnd = [star, slash] := by decide

theorem commentEnd_prefix_cons_iff {b : UInt8} {rest : Bytes} :
    commentEnd <+: b :: rest ↔ b = star ∧ rest.head? = some slash := by
  rw [commentEnd_eq, List.cons_prefix_cons]
  cases rest <;> simp [eq_comm, List.cons_prefix_cons]

theorem not_infix_of_not_mem {bytes : Bytes} (h : star ∉ bytes) : ¬ commentEnd <:+: bytes := by
  intro hends
  exact h (hends.subset (by rw [commentEnd_eq]; exact List.mem_cons_self))

/-- Bytes without an end of a comment are passed over, unless their last one and the next are such
an end together. -/
theorem behindComment_append {bytes more : Bytes} (h : ¬ commentEnd <:+: bytes)
    (hjoin : bytes.getLast? = some star → more.head? ≠ some slash) :
    behindComment (bytes ++ more) = behindComment more := by
  induction bytes with
  | nil => rfl
  | cons b rest ih =>
      obtain ⟨hb, hrest⟩ := not_or.mp (mt List.infix_cons_iff.mpr h)
      have hnot : ¬ commentEnd <+: b :: (rest ++ more) := by
        rw [commentEnd_prefix_cons_iff] at hb ⊢
        rintro ⟨rfl, hhead⟩
        cases rest with
        | nil => exact hjoin rfl hhead
        | cons c rest => exact hb ⟨rfl, hhead⟩
      rw [List.cons_append, behindComment, if_neg hnot]
      refine ih hrest fun hlast => hjoin ?_
      rw [List.getLast?_cons, hlast]
      rfl

theorem behindComment_commentEnd (after : Bytes) :
    behindComment (commentEnd ++ after) = some after := by
  rw [commentEnd_eq]
  exact if_pos (by rw [commentEnd_eq]; exact List.prefix_append [star, slash] after)

theorem behindComment_eq_none_iff {bytes : Bytes} :
    behindComment bytes = none ↔ ¬ commentEnd <:+: bytes := by
  induction bytes with
  | nil => exact iff_of_true rfl (not_infix_of_not_mem List.not_mem_nil)
  | cons b rest ih =>
      rw [behindComment, List.infix_cons_iff]
      split
      case isTrue h => simp [h]
      case isFalse h => simp [h, ih]

/-- The first end of a comment is the one that has none before it. -/
theorem behindComment_eq_some_iff {bytes after : Bytes} :
    behindComment bytes = some after ↔
      ∃ before, bytes = before ++ (commentEnd ++ after) ∧ ¬ commentEnd <:+: before := by
  constructor
  · intro h
    induction bytes with
    | nil => cases h
    | cons b rest ih =>
        rw [behindComment] at h
        split at h
        case isTrue hstart =>
          obtain ⟨tail, htail⟩ := hstart
          obtain ⟨rfl, rfl⟩ := List.cons.inj (commentEnd_eq ▸ htail)
          cases h
          exact ⟨[], htail.symm, not_infix_of_not_mem List.not_mem_nil⟩
        case isFalse hstart =>
          obtain ⟨before, rfl, hbefore⟩ := ih h
          refine ⟨b :: before, rfl, ?_⟩
          rw [List.infix_cons_iff]
          rintro (hstarts | hends)
          · exact hstart (hstarts.trans (List.prefix_append (b :: before) _))
          · exact hbefore hends
  · rintro ⟨before, rfl, hbefore⟩
    rw [behindComment_append hbefore fun _ => by simp [commentEnd_eq, star, slash],
      behindComment_commentEnd]

/-! ### What is read behind a banner -/

/-- The bytes of a banner behind its version. -/
def bannerEnd : Bytes := Utf8.encode " */\n"

namespace Workbench

variable (version code : String)

/-- What stands behind the first end of a comment in an artifact. -/
def behindBanner : Bytes :=
  match behindComment (Utf8.encode version) with
  | none => lineEnd :: Utf8.encode code
  | some after => after ++ (bannerEnd ++ Utf8.encode code)

theorem content_eq : content version code =
    Utf8.encode "/*! PeteJS " ++ (Utf8.encode version ++ (bannerEnd ++ Utf8.encode code)) := by
  simp only [content, banner, bannerEnd, Utf8.encode_append, List.append_assoc]

/-- The version decides where the first end of a comment stands. -/
theorem behindComment_version {lead : Bytes} (hlead : star ∉ lead) :
    behindComment (lead ++ (Utf8.encode version ++ (bannerEnd ++ Utf8.encode code))) =
      some (behindBanner version code) := by
  have hlast : lead.getLast? ≠ some star := fun h => hlead (List.mem_of_getLast? h)
  rw [behindComment_append (not_infix_of_not_mem hlead) fun h => absurd h hlast, behindBanner]
  cases hversion : behindComment (Utf8.encode version) with
  | some after =>
      obtain ⟨before, hsplit, hbefore⟩ := behindComment_eq_some_iff.mp hversion
      refine behindComment_eq_some_iff.mpr ⟨before, ?_, hbefore⟩
      simp only [hsplit, List.append_assoc]
  | none =>
      have hnone := behindComment_eq_none_iff.mp hversion
      have hend : bannerEnd = [32] ++ (commentEnd ++ [lineEnd]) := by decide
      rw [behindComment_append hnone fun _ => by simp [hend, slash], hend, List.append_assoc,
        behindComment_append (not_infix_of_not_mem (by decide)) fun h => absurd h (by decide),
        List.append_assoc, behindComment_commentEnd]
      rfl

/-- A reader that skips the comment at the beginning of an artifact and a line end is left with what
stands behind the first end of a comment. -/
theorem skipComment_content_eq :
    skipComment (content version code) = some (skipLineEnd (behindBanner version code)) := by
  have hsplit : Utf8.encode "/*! PeteJS " = commentStart ++ Utf8.encode "! PeteJS " := by decide
  rw [skipComment, content_eq, hsplit, List.append_assoc, if_pos (List.prefix_append _ _),
    List.drop_left, behindComment_version version code (by decide)]
  rfl

variable {version code}

theorem behindBanner_of_not_ended (h : ¬ commentEnd <:+: Utf8.encode version) :
    behindBanner version code = lineEnd :: Utf8.encode code := by
  rw [behindBanner, behindComment_eq_none_iff.mpr h]

/-- What a version with the end of a comment leaves over is longer than a line end and the code. -/
theorem length_behindBanner_of_ended (code : String) (h : commentEnd <:+: Utf8.encode version) :
    (Utf8.encode code).length + 4 ≤ (behindBanner version code).length := by
  rw [behindBanner]
  cases hversion : behindComment (Utf8.encode version) with
  | none => exact absurd h (behindComment_eq_none_iff.mp hversion)
  | some after =>
      have hend : bannerEnd.length = 4 := by decide
      simp only [List.length_append]
      omega

theorem length_le_skipLineEnd (bytes : Bytes) : bytes.length ≤ (skipLineEnd bytes).length + 1 := by
  cases bytes with
  | nil => simp
  | cons b rest =>
      rw [skipLineEnd]
      split
      · exact Nat.le_refl _
      · simp

/-- The banner of an artifact is one comment, and a reader that skips it is left with the code
alone, exactly if the version holds no end of a comment. -/
theorem skipComment_content (version code : String) :
    (behindComment ((content version code).drop 3) = some (lineEnd :: Utf8.encode code) ↔
      ¬ commentEnd <:+: Utf8.encode version) ∧
    (skipComment (content version code) = some (Utf8.encode code) ↔
      ¬ commentEnd <:+: Utf8.encode version) := by
  have hdrop : behindComment ((content version code).drop 3) =
      some (behindBanner version code) := by
    have hsplit : Utf8.encode "/*! PeteJS " =
        Utf8.encode "/*!" ++ Utf8.encode " PeteJS " := by decide
    have hlength : (Utf8.encode "/*!").length = 3 := by decide
    rw [content_eq, hsplit, List.append_assoc, ← hlength, List.drop_left,
      behindComment_version version code (by decide)]
  rw [hdrop, skipComment_content_eq, Option.some.injEq, Option.some.injEq]
  constructor
  · constructor
    · intro heq hends
      have hlong := length_behindBanner_of_ended code hends
      rw [heq, List.length_cons] at hlong
      omega
    · exact behindBanner_of_not_ended
  · constructor
    · intro heq hends
      have hlong := length_behindBanner_of_ended code hends
      have hskipped := length_le_skipLineEnd (behindBanner version code)
      rw [heq] at hskipped
      omega
    · intro hnot
      rw [behindBanner_of_not_ended hnot]
      rfl

/-- A version that ends the comment early and begins another: what stands between becomes part of
the script that the build writes. -/
theorem skipComment_content_early_end :
    let r : Request := .ofScripts "*/alert()/*" (.ofString "/")
    r.validate = .ok () ∧
      (r.Yields [] .workplace fun report u => report.artifacts.length = 1 ∧
        ∀ a ∈ report.artifacts, u.read [] a.path = .ok (content r.version "1;1;1;1;1")) ∧
      skipComment (content r.version "1;1;1;1;1") =
        some (Utf8.encode "alert()/* */\n1;1;1;1;1") := by
  decide +kernel

end Workbench
end AssetPress
