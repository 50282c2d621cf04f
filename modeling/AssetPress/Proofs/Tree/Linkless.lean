import AssetPress.Proofs.Path.Steps
import AssetPress.Proofs.Tree.Following

/-!
# Paths in trees without links

Where there are no links a path leads where its text says: every name goes down, every `..` goes
up (`Location.follow`), and a walk that ends at a file ends with that file's name
(`location_of_resolve`).  Two paths that part at one name and go on alike meet again exactly if
what follows climbs back over that name (`follow_eq_iff`).
-/

namespace AssetPress

/-! ### Following steps by their text -/

namespace Location

def step (d : Location) : Step → Location
  | .stay => d
  | .up => d.parent
  | .name n => d ++ [n]
  | .refused _ => d

/-- The location some steps on, if no link is in the way. -/
def follow (d : Location) (steps : List Step) : Location := steps.foldl step d

theorem follow_append (d : Location) (xs ys : List Step) :
    d.follow (xs ++ ys) = (d.follow xs).follow ys := by
  simp [follow]

end Location

/-- Whether steps climb over the name before them, which stands `depth` names up. -/
def Step.climbs : (depth : Nat) → List Step → Bool
  | _, [] => false
  | 0, .up :: _ => true
  | depth + 1, .up :: rest => climbs depth rest
  | depth, .name _ :: rest => climbs (depth + 1) rest
  | depth, .stay :: rest => climbs depth rest
  | depth, .refused _ :: rest => climbs depth rest

/-- Two ways that part at a name meet again exactly if they climb back over it. -/
theorem Location.follow_eq_iff {x y : Name} (hxy : x ≠ y) (d : Location) (below : Location)
    (steps : List Step) : follow (d ++ x :: below) steps = follow (d ++ y :: below) steps ↔
      Step.climbs below.length steps = true := by
  induction steps generalizing below with
  | nil => simp [follow, Step.climbs, hxy]
  | cons s rest ih =>
      cases s with
      | stay => simpa [follow, step, Step.climbs] using ih below
      | refused why => simpa [follow, step, Step.climbs] using ih below
      | name n =>
          have hdown := ih (below ++ [n])
          simpa [follow, step, Step.climbs] using hdown
      | up =>
          rcases List.eq_nil_or_concat below with rfl | ⟨above, z, rfl⟩
          · simp [follow, step, Step.climbs, parent]
          · have hup := ih above
            have hparent : ∀ w : Name, parent (d ++ w :: (above ++ [z])) = d ++ w :: above := by
              intro w
              rw [parent, ← List.cons_append, ← List.append_assoc, List.dropLast_concat]
            rw [follow, follow, List.foldl_cons, List.foldl_cons, step, step,
              List.concat_eq_append, hparent, hparent]
            simpa [follow, Step.climbs] using hup

/-! ### Walks -/

namespace Tree

def Spot.location : Spot → Location
  | .dir l => l
  | .file d n _ => d ++ [n]
  | .vacant d n => d ++ [n]

variable {t : Tree} {creating : Bool}

/-- A walk without links ends where its steps lead by their text, and has taken all of them. -/
theorem location_of_walkWith (ht : t.NoLinks)
    {follow : Location → Path → List Step → Bool → Except OsError Spot} {strict : Bool}
    {d : Location} {steps : List Step} {spot : Spot}
    (h : t.walkWith creating follow strict d steps = .ok spot) :
    spot.location = d.follow steps ∧ (∀ why, .refused why ∉ steps) ∧
      ∀ d' n content, spot = .file d' n content → [.name n] <:+ steps := by
  induction steps generalizing d with
  | nil =>
      cases h
      exact ⟨rfl, by simp, by simp⟩
  | cons s rest ih =>
      cases s with
      | stay =>
          obtain ⟨hl, hr, hf⟩ := ih h
          refine ⟨hl, by simpa using hr, fun d' n c heq => ?_⟩
          exact (hf d' n c heq).trans (List.suffix_cons _ _)
      | up =>
          obtain ⟨hl, hr, hf⟩ := ih h
          refine ⟨hl, by simpa using hr, fun d' n c heq => ?_⟩
          exact (hf d' n c heq).trans (List.suffix_cons _ _)
      | refused why =>
          unfold walkWith at h
          split at h <;> cases h
      | name n =>
          unfold walkWith at h
          split at h
          case isTrue => cases h
          case isFalse =>
            cases hn : t.get? (d ++ [n]) with
            | none =>
                simp only [hn] at h
                split at h
                case isTrue hrest =>
                  cases h
                  rw [List.isEmpty_iff.mp hrest]
                  exact ⟨rfl, by simp, by simp⟩
                case isFalse => cases h
            | some e =>
                cases e with
                | dir =>
                    simp only [hn] at h
                    obtain ⟨hl, hr, hf⟩ := ih h
                    exact ⟨hl, by simpa using hr,
                      fun d' m c heq => (hf d' m c heq).trans (List.suffix_cons _ _)⟩
                | file content =>
                    simp only [hn] at h
                    split at h
                    case isTrue hend =>
                      cases h
                      rw [List.isEmpty_iff.mp (Bool.and_eq_true_iff.mp hend).1]
                      refine ⟨rfl, by simp, fun d' m _ heq => ?_⟩
                      cases heq
                      exact List.suffix_rfl
                    case isFalse => cases h
                | link target => exact absurd hn (ht _ _)

theorem location_of_resolve (ht : t.NoLinks) {base : Location} {p : Path} {spot : Spot}
    (h : t.resolve base creating p = .ok spot) :
    spot.location = (p.start base).follow p.steps ∧ (∀ why, .refused why ∉ p.steps) ∧
      ∀ d n content, spot = .file d n content → [.name n] <:+ p.steps := by
  unfold resolve at h
  cases hp : p.refused? with
  | some why =>
      rw [hp] at h
      cases h
  | none =>
      rw [hp] at h
      simp only at h
      rw [walk_eq_of_noLinks ht] at h
      exact location_of_walkWith ht h

/-- In a tree without links a file that is reached by a path ending in `ending`, with no slash in
it, has a name that ends so. -/
theorem name_of_resolve (ht : t.NoLinks) {base : Location} {p : Path} {d : Location} {n : Name}
    {content front ending : Bytes} (h : t.resolve base creating p = .ok (.file d n content))
    (hp : p.bytes = front ++ ending) (hne : ending ≠ []) (hslash : slash ∉ ending) :
    ending <:+ n.bytes := by
  obtain ⟨-, -, hlast⟩ := location_of_resolve ht h
  have hname := hlast d n content rfl
  obtain ⟨pieces, last, hfront⟩ : ∃ pieces last, front.splitOn slash = pieces ++ [last] :=
    ⟨_, _, (List.dropLast_concat_getLast (List.splitOn_ne_nil slash front)).symm⟩
  have hpiece : last ++ ending ≠ [] := by simp [hne]
  rw [Path.steps_eq, hp, Path.split, splitOn_append hfront (List.splitOn_eq_singleton hslash),
    Path.stepsOf_append, Path.stepsOf_singleton hpiece] at hname
  have hstep : .name n = Step.ofPiece (last ++ ending) := by
    simpa [List.suffix_iff_eq_append] using hname
  rw [Step.bytes_of_ofPiece hstep.symm]
  exact List.suffix_append last ending

end Tree
end AssetPress
