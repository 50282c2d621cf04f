import AssetPress.Proofs.Path.Steps
import AssetPress.Proofs.Session.Again

/-!
# Files directly inside a directory

A path behind a path that leads to a directory leads into that directory, also where links are
followed on the way (`walk_behind`).  So what is read by the path of a directory and a name in it
is what the file of that name holds, unless the path is refused for its length
(`readText_join`).  What a listing names can therefore be read without looking at anything but the
files that are listed (`SameFiles.readText_eq`).
-/

namespace AssetPress
namespace Tree

variable {t u : Tree} {l d : Location} {n : Name} {content : Bytes}

/-! ### Walks -/

/-- A walk that ends in a directory goes on to a file there, if every link does. -/
theorem walkWith_behind {strict : Bool}
    {follow follow' : Location → Path → List Step → Bool → Except OsError Spot} {xs : List Step}
    (hn : t.get? (l ++ [n]) = some (.file content))
    (hfollow : ∀ d target rest, follow d target rest strict = .ok (.dir l) →
      follow' d target (rest ++ [.name n]) false = .ok (.file l n content))
    (h : t.walkWith false follow strict d xs = .ok (.dir l)) :
    t.walkWith false follow' false d (xs ++ [.name n]) = .ok (.file l n content) := by
  induction xs generalizing d with
  | nil =>
      cases h
      simp [walkWith, hn]
  | cons s rest ih =>
      cases s with
      | stay => exact ih h
      | up => exact ih h
      | refused why => cases h
      | name m =>
          have hmore : (rest ++ [Step.name n]).isEmpty = false := by simp
          rw [walkWith] at h
          rw [List.cons_append, walkWith, hmore]
          cases hm : t.get? (d ++ [m]) with
          | none =>
              simp only [hm, Bool.false_and, Bool.false_eq_true, if_false] at h
              split at h <;> cases h
          | some e =>
              cases e with
              | dir =>
                  simp only [hm, Bool.false_and, Bool.false_eq_true, if_false] at h ⊢
                  exact ih h
              | file old =>
                  simp only [hm, Bool.false_and, Bool.false_eq_true, if_false] at h
                  split at h <;> cases h
              | link target =>
                  simp only [hm, Bool.false_and, Bool.false_eq_true, if_false] at h ⊢
                  exact hfollow d target rest h

theorem walk_behind {links : Nat} {strict : Bool} {xs : List Step}
    (hn : t.get? (l ++ [n]) = some (.file content))
    (h : t.walk false links strict d xs = .ok (.dir l)) :
    t.walk false links false d (xs ++ [.name n]) = .ok (.file l n content) := by
  induction links generalizing strict d xs with
  | zero =>
      refine walkWith_behind hn (fun _ _ _ hf => ?_) h
      cases hf
  | succ links ih =>
      refine walkWith_behind hn (fun d target rest hf => ?_) h
      have hrest : (rest ++ [Step.name n]).isEmpty = false := by simp
      simp only [hrest, Bool.or_false, Bool.false_and]
      rw [← List.append_assoc]
      exact ih hf

/-! ### Paths -/

variable {base : Location} {dir : Path}

theorem isAbsolute_name (n : Name) : (⟨n.bytes⟩ : Path).isAbsolute = false := by
  obtain ⟨-, -, -, hslash, -, -⟩ := n.valid
  rw [Path.isAbsolute, beq_eq_false_iff_ne]
  exact fun h => hslash (List.mem_of_head? h)

theorem steps_name (n : Name) : (⟨n.bytes⟩ : Path).steps = [.name n] := by
  obtain ⟨hne, hdot, hup, hslash, -, -⟩ := n.valid
  rw [Path.steps_eq, Path.split, List.splitOn_eq_singleton hslash, Path.stepsOf_singleton hne,
    Step.ofPiece, if_neg hdot, if_neg hup, Name.ofBytes?_bytes]

theorem endsWithSlash_join_name (dir : Path) (n : Name) :
    (dir.join ⟨n.bytes⟩).endsWithSlash = false := by
  obtain ⟨hne, -, -, hslash, -, -⟩ := n.valid
  obtain ⟨sep, -, hbytes⟩ : ∃ sep, _ ∧ (dir.join ⟨n.bytes⟩).bytes = dir.bytes ++ sep ++ n.bytes :=
    Path.join_bytes_of_relative (isAbsolute_name n)
  rw [Path.endsWithSlash, hbytes, List.getLast?_append, List.getLast?_eq_some_getLast hne,
    Option.some_or, beq_eq_false_iff_ne]
  intro h
  exact hslash (Option.some.inj h ▸ List.getLast_mem hne)

theorem resolve_join (hdir : t.resolve base false dir = .ok (.dir d))
    (hn : t.get? (d ++ [n]) = some (.file content))
    (hp : (dir.join ⟨n.bytes⟩).refused? = none) :
    t.resolve base false (dir.join ⟨n.bytes⟩) = .ok (.file d n content) := by
  rw [resolve_of_refused?_eq_none (refused?_of_resolve hdir)] at hdir
  rw [resolve_of_refused?_eq_none hp, endsWithSlash_join_name, Path.start_join (isAbsolute_name n),
    Path.steps_join (isAbsolute_name n), steps_name]
  exact walk_behind hn hdir

/-- What is read by the path of a directory and a name: the text of the file of that name there,
unless the path is refused. -/
theorem readText_join (hdir : t.resolve base false dir = .ok (.dir d))
    (hn : t.get? (d ++ [n]) = some (.file content)) :
    t.readText base (dir.join ⟨n.bytes⟩) =
      match (dir.join ⟨n.bytes⟩).refused? with
      | some why => .error ⟨.read, dir.join ⟨n.bytes⟩, why.message⟩
      | none =>
          match Utf8.decode? content with
          | some text => .ok text
          | none => .error ⟨.read, dir.join ⟨n.bytes⟩, notText⟩ := by
  cases hp : (dir.join ⟨n.bytes⟩).refused? with
  | some why => simp [readText, read, resolve, hp, bind, Except.bind]
  | none =>
      have hread : t.read base (dir.join ⟨n.bytes⟩) = .ok content := by
        rw [read, resolve_join hdir hn hp]
        rfl
      rewrite [readText, hread]
      rfl

/-! ### The same files in two directories -/

/-- Directory `d` of `t` and directory `d'` of `u` have regular files of the same names and contents
among those with the extension. -/
def SameFiles (extension : Bytes) (t : Tree) (d : Location) (u : Tree) (d' : Location) : Prop :=
  ∀ (n : Name) (content : Bytes), extension? n.bytes = some extension →
    (t.get? (d ++ [n]) = some (.file content) ↔ u.get? (d' ++ [n]) = some (.file content))

variable {d' : Location} {extension : Bytes}

theorem SameFiles.namesIn_eq (h : SameFiles extension t d u d') :
    t.namesIn d extension = u.namesIn d' extension :=
  Tree.namesIn_eq fun n hext =>
    ⟨fun ⟨content, hget⟩ => ⟨content, (h n content hext).mp hget⟩,
      fun ⟨content, hget⟩ => ⟨content, (h n content hext).mpr hget⟩⟩

theorem SameFiles.pathsIn_eq (h : SameFiles extension t d u d')
    (hdir : t.resolve base false dir = .ok (.dir d))
    (hdir' : u.resolve base false dir = .ok (.dir d')) :
    t.pathsIn base dir extension = u.pathsIn base dir extension := by
  rw [pathsIn_of_dir hdir, pathsIn_of_dir hdir', h.namesIn_eq]

theorem SameFiles.readText_eq (h : SameFiles extension t d u d')
    (hdir : t.resolve base false dir = .ok (.dir d))
    (hdir' : u.resolve base false dir = .ok (.dir d')) {paths : List Path}
    (hpaths : t.pathsIn base dir extension = .ok paths) {p : Path} (hp : p ∈ paths) :
    t.readText base p = u.readText base p := by
  rw [pathsIn_of_dir hdir] at hpaths
  cases hpaths
  obtain ⟨name, hname, rfl⟩ := List.mem_map.mp hp
  obtain ⟨n, content, rfl, hget, hext⟩ := mem_namesIn_iff.mp hname
  rw [readText_join hdir hget, readText_join hdir' ((h n content hext).mp hget)]

end Tree
end AssetPress
