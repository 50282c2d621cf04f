import AssetPress.Proofs.Tree.Growth
import AssetPress.Session

/-!
# What a listing shows

The entries of a directory come in the order of their names, each once (`sorted_children`), and are
those that stand there (`mem_children_iff`).  So the names of the files with some extension are in
order already when they are sorted, and two trees that have the same such files in a directory
list the same names (`namesIn_eq`).  A path is listed by its directory and its name (`pathsIn`).
-/

namespace AssetPress

namespace Entries

theorem lookup_eq_some_iff_mem {es : Entries} (h : es.Sorted) {l : Location} {e : Entry} :
    es.lookup l = some e ↔ (l, e) ∈ es := by
  induction es with
  | nil => simp
  | cons p rest ih =>
      obtain ⟨hp, hrest⟩ := List.pairwise_cons.mp h
      rw [lookup_cons, List.mem_cons]
      by_cases hl : l = p.1
      · rw [if_pos hl, Option.some.injEq]
        have hnot : (l, e) ∉ rest := fun hmem => Location.lt_irrefl l (by
          have hlt := hp _ hmem
          rwa [← hl] at hlt)
        exact ⟨fun he => Or.inl (Prod.ext hl he.symm),
          fun hmem => (hmem.resolve_right hnot ▸ rfl)⟩
      · rw [if_neg hl, ih hrest]
        exact ⟨Or.inr, fun hmem => hmem.resolve_left fun heq => hl (heq ▸ rfl)⟩

end Entries

theorem Location.append_lt_append_iff {d : Location} {m n : Name} :
    d ++ [m] < d ++ [n] ↔ m < n := by
  constructor
  · intro h
    refine Decidable.byContradiction fun hnot => ?_
    by_cases heq : m = n
    · rw [heq] at h
      exact lt_irrefl _ h
    · have hback : d ++ [n] < d ++ [m] :=
        List.append_left_lt (List.cons_lt_cons_iff.mpr (Or.inl (Name.lt_of_not hnot heq)))
      exact lt_irrefl _ (lt_trans h hback)
  · intro h
    exact List.append_left_lt (List.cons_lt_cons_iff.mpr (Or.inl h))

namespace Tree

variable {t u : Tree} {d : Location}

/-! ### The entries of a directory -/

/-- What an entry of the tree contributes to the listing of `d`. -/
theorem child_eq_some_iff {p : Location × Entry} {n : Name} {e : Entry} :
    (match p.1.getLast? with
      | some n => if p.1.parent = d then some (n, p.2) else none
      | none => none) = some (n, e) ↔ p = (d ++ [n], e) := by
  obtain ⟨l, f⟩ := p
  rcases List.eq_nil_or_concat l with rfl | ⟨above, m, rfl⟩
  · simp
  · simp only [List.concat_eq_append, List.getLast?_concat, Location.parent, List.dropLast_concat]
    constructor
    · intro h
      split at h
      case isTrue habove =>
        cases h
        rw [habove]
      case isFalse => cases h
    · intro h
      obtain ⟨hl, rfl⟩ := Prod.mk.inj h
      obtain ⟨rfl, rfl⟩ := Location.append_name_inj hl
      rw [if_pos rfl]

theorem mem_children_iff {n : Name} {e : Entry} :
    (n, e) ∈ t.children d ↔ t.get? (d ++ [n]) = some e := by
  rw [get?_of_ne_nil t (by simp), Entries.lookup_eq_some_iff_mem t.sorted, children,
    List.mem_filterMap]
  constructor
  · rintro ⟨p, hp, hchild⟩
    rwa [child_eq_some_iff.mp hchild] at hp
  · exact fun h => ⟨_, h, child_eq_some_iff.mpr rfl⟩

theorem sorted_children (t : Tree) (d : Location) :
    (t.children d).Pairwise fun a b => a.1 < b.1 := by
  refine List.Pairwise.filterMap _ (fun p q hpq a ha b hb => ?_) t.sorted
  rw [child_eq_some_iff.mp ha, child_eq_some_iff.mp hb] at hpq
  exact Location.append_lt_append_iff.mp hpq

/-! ### Names with an extension -/

/-- The names that a listing of directory `d` gives for an extension. -/
def namesIn (t : Tree) (d : Location) (extension : Bytes) : List Bytes :=
  namesWithExtension extension ((t.children d).map Session.listed)

theorem name_listed (c : Name × Entry) : (Session.listed c).name = c.1.bytes := by
  obtain ⟨n, e⟩ := c
  cases e <;> rfl

theorem isFile_listed {n : Name} {e : Entry} :
    (Session.listed (n, e)).isFile = true ↔ ∃ content, e = .file content := by
  cases e <;> simp [Session.listed]

theorem mem_namesIn_iff {extension name : Bytes} :
    name ∈ t.namesIn d extension ↔ ∃ n content, n.bytes = name ∧
      t.get? (d ++ [n]) = some (.file content) ∧ extension? name = some extension := by
  rw [namesIn, namesWithExtension, List.mem_mergeSort]
  simp only [List.mem_map, List.mem_filter, Bool.and_eq_true, beq_iff_eq]
  constructor
  · rintro ⟨_, ⟨⟨⟨n, e⟩, hmem, rfl⟩, hfile, hext⟩, rfl⟩
    obtain ⟨content, rfl⟩ := isFile_listed.mp hfile
    exact ⟨n, content, (name_listed (n, .file content)).symm, mem_children_iff.mp hmem, hext⟩
  · rintro ⟨n, content, rfl, hget, hext⟩
    exact ⟨_, ⟨⟨(n, .file content), mem_children_iff.mpr hget, rfl⟩, rfl, hext⟩, rfl⟩

/-- The names of the files with an extension, in the order in which the entries come. -/
def filesIn (t : Tree) (d : Location) (extension : Bytes) : List Bytes :=
  (((t.children d).map Session.listed).filter
    fun e => e.isFile && extension? e.name == some extension).map (·.name)

theorem sorted_filesIn (t : Tree) (d : Location) (extension : Bytes) :
    (t.filesIn d extension).Pairwise (· < ·) := by
  have hlisted : ((t.children d).map Session.listed).Pairwise fun a b => a.name < b.name := by
    rw [List.pairwise_map]
    exact (t.sorted_children d).imp fun {a b} hab => by
      rw [name_listed, name_listed]
      exact hab
  exact (hlisted.filter
    fun e => e.isFile && extension? e.name == some extension).map Listed.name fun _ _ hab => hab

/-- The entries come in order already. -/
theorem namesIn_eq_filesIn (t : Tree) (d : Location) (extension : Bytes) :
    t.namesIn d extension = t.filesIn d extension :=
  List.mergeSort_of_pairwise ((t.sorted_filesIn d extension).imp fun hab =>
    decide_eq_true (List.le_of_lt hab))

theorem sorted_namesIn (t : Tree) (d : Location) (extension : Bytes) :
    (t.namesIn d extension).Pairwise (· < ·) := by
  rw [namesIn_eq_filesIn]
  exact t.sorted_filesIn d extension

theorem namesIn_eq {d' : Location} {extension : Bytes}
    (h : ∀ n : Name, extension? n.bytes = some extension →
      ((∃ content, t.get? (d ++ [n]) = some (.file content)) ↔
        ∃ content, u.get? (d' ++ [n]) = some (.file content))) :
    t.namesIn d extension = u.namesIn d' extension := by
  have hirrefl : ∀ a b : Bytes, a < b → a ≠ b := fun a b hab heq =>
    List.lt_irrefl b (heq ▸ hab)
  refine List.Perm.eq_of_pairwise (fun a b _ _ hab hba => absurd (List.lt_trans hab hba)
    (List.lt_irrefl a)) (t.sorted_namesIn d extension) (u.sorted_namesIn d' extension) ?_
  refine (List.perm_ext_iff_of_nodup ((t.sorted_namesIn d extension).imp fun {a b} => hirrefl a b)
    ((u.sorted_namesIn d' extension).imp fun {a b} => hirrefl a b)).mpr fun name => ?_
  rw [mem_namesIn_iff, mem_namesIn_iff]
  constructor
  · rintro ⟨n, content, rfl, hget, hext⟩
    obtain ⟨content', hget'⟩ := (h n hext).mp ⟨content, hget⟩
    exact ⟨n, content', rfl, hget', hext⟩
  · rintro ⟨n, content, rfl, hget, hext⟩
    obtain ⟨content', hget'⟩ := (h n hext).mpr ⟨content, hget⟩
    exact ⟨n, content', rfl, hget', hext⟩

/-! ### Paths that are listed -/

/-- The paths that listing a directory gives for an extension. -/
def pathsIn (t : Tree) (base : Location) (dir : Path) (extension : Bytes) :
    Except OsError (List Path) :=
  (t.list base dir).map fun entries =>
    (namesWithExtension extension (entries.map Session.listed)).map fun name => dir.join ⟨name⟩

variable {base : Location} {dir : Path} {extension : Bytes} {paths : List Path}

theorem pathsIn_of_dir (h : t.resolve base false dir = .ok (.dir d)) :
    t.pathsIn base dir extension =
      .ok ((t.namesIn d extension).map fun name => dir.join ⟨name⟩) := by
  rw [pathsIn, list, h]
  rfl

theorem pathsIn_of_file {n : Name} {content : Bytes}
    (h : t.resolve base false dir = .ok (.file d n content)) :
    t.pathsIn base dir extension = .ok [] := by
  rw [pathsIn, list, h]
  simp [Except.map, namesWithExtension]

theorem of_pathsIn_ok (h : t.pathsIn base dir extension = .ok paths) :
    (∃ d, t.resolve base false dir = .ok (.dir d) ∧
        paths = (t.namesIn d extension).map fun name => dir.join ⟨name⟩) ∨
      ∃ d n content, t.resolve base false dir = .ok (.file d n content) ∧ paths = [] := by
  cases hr : t.resolve base false dir with
  | error why =>
      rw [pathsIn, list, hr] at h
      cases h
  | ok spot =>
      cases spot with
      | dir d =>
          rw [pathsIn_of_dir hr] at h
          cases h
          exact Or.inl ⟨d, rfl, rfl⟩
      | file d n content =>
          rw [pathsIn_of_file hr] at h
          cases h
          exact Or.inr ⟨d, n, content, rfl, rfl⟩
      | vacant d n =>
          rw [pathsIn, list, hr] at h
          cases h

end Tree

/-! ### Stems -/

theorem exists_stem_of_extension? {name extension : Bytes} (h : extension? name = some extension) :
    ∃ stem, stem ≠ [] ∧ name = stem ++ dot :: extension := by
  unfold extension? at h
  split at h
  case isTrue => cases h
  case isFalse hstem =>
    cases h
    have hname : name.reverse = name.reverse.takeWhile (· != dot) ++
        name.reverse.dropWhile (· != dot) := List.takeWhile_append_dropWhile.symm
    cases hrest : name.reverse.dropWhile (· != dot) with
    | nil =>
        rw [hrest] at hstem
        exact absurd rfl hstem
    | cons b stem =>
        have hb : b = dot := by
          have hhead := List.head?_dropWhile_not (· != dot) name.reverse
          rw [hrest] at hhead
          simpa using hhead
        rw [hrest] at hstem
        rw [hrest, hb] at hname
        generalize name.reverse.takeWhile (· != dot) = last at hname ⊢
        refine ⟨stem.reverse, by simpa using hstem, ?_⟩
        rw [← List.reverse_reverse name, hname]
        simp

/-- An extension without a dot is what follows a stem and a dot. -/
theorem extension?_eq_some_iff {name extension : Bytes} (hext : dot ∉ extension) :
    extension? name = some extension ↔ ∃ stem, stem ≠ [] ∧ name = stem ++ dot :: extension := by
  refine ⟨exists_stem_of_extension?, ?_⟩
  rintro ⟨stem, hstem, rfl⟩
  have hnone : ∀ b ∈ extension.reverse, (b != dot) = true := by
    intro b hb
    have hmem : b ∈ extension := List.mem_reverse.mp hb
    exact bne_iff_ne.mpr fun heq => hext (heq ▸ hmem)
  have hreverse : (stem ++ dot :: extension).reverse =
      extension.reverse ++ dot :: stem.reverse := by simp
  unfold extension?
  rw [hreverse, List.dropWhile_append_of_pos hnone, List.takeWhile_append_of_pos hnone]
  simp [hstem]

theorem suffix_of_extension? {name extension : Bytes} (h : extension? name = some extension) :
    dot :: extension <:+ name := by
  obtain ⟨stem, -, rfl⟩ := exists_stem_of_extension? h
  exact List.suffix_append stem (dot :: extension)

end AssetPress
