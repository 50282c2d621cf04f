import AssetPress.Proofs.Json.RoundTrip
import AssetPress.Proofs.Text.Utf8
import AssetPress.Report.Json

/-!
# Reading a report

Another program that reads the JSON text of a report, with whatever reader of JSON it has, gets the
report: `Json.Value.toReport?` takes an object with exactly the fields of a report, in any order,
and `toReport?_value` says that it undoes `Report.toJson?`.  So a report has a JSON text exactly if
its paths are text, and the text tells everything (`json?_spec`).
-/

namespace AssetPress

/-! ### Which reports are text -/

theorem isSome_mapM_iff {α β : Type} {f : α → Option β} {xs : List α} :
    (xs.mapM f).isSome ↔ ∀ x ∈ xs, (f x).isSome := by
  induction xs with
  | nil => simp
  | cons x rest ih =>
      rw [List.mapM_cons, List.forall_mem_cons, ← ih]
      cases f x with
      | none => simp
      | some b => cases rest.mapM f <;> simp

theorem Report.isSome_json?_iff {r : Report} :
    r.json?.isSome ↔ (Utf8.decode? r.buildDir.bytes).isSome ∧
      ∀ a ∈ r.artifacts, (Utf8.decode? a.path.bytes).isSome := by
  have hartifacts : (∀ a ∈ r.artifacts, (Utf8.decode? a.path.bytes).isSome) ↔
      (r.artifacts.mapM Artifact.toJson?).isSome := by
    rw [isSome_mapM_iff]
    exact forall₂_congr fun a _ => Artifact.toJson?_isSome_iff.symm
  rw [json?, Option.isSome_map, hartifacts, ← Path.toJson?_isSome_iff, toJson?]
  cases r.buildDir.toJson? with
  | none => simp
  | some dir => cases r.artifacts.mapM Artifact.toJson? <;> simp

/-! ### Decoding -/

def AssetKind.ofName? (name : String) : Option AssetKind :=
  [script, stylesheet].find? fun kind => kind.name == name

namespace Json.Value

/-- The fields of an object that has exactly the given names. -/
def fields? (names : List String) : Value → Option (List (String × Value))
  | object fields => if (fields.map Prod.fst).isPerm names then some fields else none
  | _ => none

def text? : Value → Option String
  | string text => some text
  | _ => none

/-- A number that counts something. -/
def count? : Value → Option Nat
  | number false n 0 => some n
  | _ => none

def items? : Value → Option (List Value)
  | list items => some items
  | _ => none

def toArtifact? (v : Value) : Option Artifact := do
  let fields ← v.fields?
    ["kind", "name", "path", "source_files", "original_size", "minified_size", "sha256"]
  let kind ← (← fields.lookup "kind").text? >>= AssetKind.ofName?
  let name ← (← fields.lookup "name").text?
  let path ← (← fields.lookup "path").text?
  let sourceFiles ← (← fields.lookup "source_files").count?
  let sourceSize ← (← fields.lookup "original_size").count?
  let minifiedSize ← (← fields.lookup "minified_size").count?
  let sha256 ← (← fields.lookup "sha256").text?
  return ⟨kind, name, .ofString path, sourceFiles, sourceSize, minifiedSize, sha256⟩

def toReport? (v : Value) : Option Report := do
  let fields ← v.fields? ["version", "build_dir", "artifacts"]
  let version ← (← fields.lookup "version").text?
  let buildDir ← (← fields.lookup "build_dir").text?
  let artifacts ← (← fields.lookup "artifacts").items? >>= List.mapM toArtifact?
  return ⟨version, .ofString buildDir, artifacts⟩

/-! ### Decoding what has been encoded -/

theorem of_path_toJson? {p : Path} {v : Json} (h : p.toJson? = some v) :
    ∃ text, v = .string text ∧ Path.ofString text = p := by
  obtain ⟨text, htext, rfl⟩ := Option.map_eq_some_iff.mp h
  exact ⟨text, rfl, congrArg Path.mk (Utf8.encode_of_decode? htext)⟩

theorem toArtifact?_value {a : Artifact} {v : Json} (h : a.toJson? = some v) :
    v.value.toArtifact? = some a := by
  unfold Artifact.toJson? at h
  obtain ⟨path, hpath, hv⟩ := Option.bind_eq_some_iff.mp h
  obtain ⟨text, rfl, htext⟩ := of_path_toJson? hpath
  obtain rfl := Option.some.inj hv
  cases a
  rename_i kind name path sourceFiles sourceSize minifiedSize sha256
  subst htext
  cases kind <;> rfl

theorem mapM_toArtifact?_values {as : List Artifact} {vs : List Json}
    (h : as.mapM Artifact.toJson? = some vs) : (values vs).mapM toArtifact? = some as := by
  induction as generalizing vs with
  | nil =>
      obtain rfl := Option.some.inj h
      rfl
  | cons a more ih =>
      rw [List.mapM_cons] at h
      obtain ⟨v, hv, hrest⟩ := Option.bind_eq_some_iff.mp h
      obtain ⟨vs, hvs, hall⟩ := Option.bind_eq_some_iff.mp hrest
      obtain rfl := Option.some.inj hall
      rw [values, List.mapM_cons, toArtifact?_value hv, ih hvs]
      rfl

theorem toReport?_value {r : Report} {v : Json} (h : r.toJson? = some v) :
    v.value.toReport? = some r := by
  unfold Report.toJson? at h
  obtain ⟨dir, hdir, hrest⟩ := Option.bind_eq_some_iff.mp h
  obtain ⟨artifacts, hartifacts, hv⟩ := Option.bind_eq_some_iff.mp hrest
  obtain ⟨text, rfl, htext⟩ := of_path_toJson? hdir
  obtain rfl := Option.some.inj hv
  have hdecoded := mapM_toArtifact?_values hartifacts
  obtain ⟨version, buildDir, as⟩ := r
  subst htext
  show ((values artifacts).mapM toArtifact? >>= fun as =>
    some (⟨version, .ofString text, as⟩ : Report)) = _
  rw [hdecoded]
  rfl

end Json.Value

namespace Report

/-- The report that a JSON text holds, for any reader of JSON. -/
def ofJson? (text : String) : Option Report := Json.read? text >>= Json.Value.toReport?

theorem ofJson?_eq_some {r : Report} {text : String} (h : r.json? = some text) :
    ofJson? text = some r := by
  obtain ⟨v, hv, rfl⟩ := Option.map_eq_some_iff.mp h
  rw [ofJson?, Json.read?_print]
  exact Json.Value.toReport?_value hv

/-- A report has no JSON text exactly if its build directory or the path of an artifact is no text.
Otherwise its text is one JSON value, an object with the fields of a report and no others, in which
every field is read as it is in the report, and no other report has the same text. -/
theorem json?_spec (r : Report) :
    (r.json? = none ↔ Utf8.decode? r.buildDir.bytes = none ∨
      ∃ a ∈ r.artifacts, Utf8.decode? a.path.bytes = none) ∧
    ∀ text, r.json? = some text →
      ofJson? text = some r ∧ ∀ r' : Report, r'.json? = some text → r' = r := by
  refine ⟨?_, fun text htext => ⟨ofJson?_eq_some htext, fun r' htext' => ?_⟩⟩
  · have hnone : r.json? = none ↔ ¬ r.json?.isSome := by simp
    rw [hnone, isSome_json?_iff, Decidable.not_and_iff_or_not]
    simp
  · have hsame := (ofJson?_eq_some htext').symm.trans (ofJson?_eq_some htext)
    exact Option.some.inj hsame

/-- Texts full of what has to be escaped, and the largest size that fits into a machine word. -/
theorem json?_spec_escaped :
    let r : Report := ⟨"\"\\\n\x01é", .ofString "a/\t",
      [⟨.stylesheet, "\x7b\"kind\"", .ofString "b", 3, 18446744073709551615, 0, "\u2028"⟩]⟩
    ∃ text, r.json? = some text ∧ ofJson? text = some r ∧
      ∀ r' : Report, r'.json? = some text → r' = r := by
  intro r
  obtain ⟨hnone, hread⟩ := json?_spec r
  have htexts : ¬ (Utf8.decode? r.buildDir.bytes = none ∨
      ∃ a ∈ r.artifacts, Utf8.decode? a.path.bytes = none) := by decide
  obtain ⟨text, htext⟩ := Option.ne_none_iff_exists'.mp fun h => htexts (hnone.mp h)
  exact ⟨text, htext, hread text htext⟩

end Report
end AssetPress
