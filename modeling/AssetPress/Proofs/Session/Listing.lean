import AssetPress.Proofs.Tree.Inside

/-!
# Listing a directory

A directory is listed by the names of the regular files that stand directly inside it and are a
stem, a dot and the extension (`Tree.Lists`): each such name once, in the order of their bytes, and
nothing else.  The order in which the entries are handed over does not matter
(`namesWithExtension_eq_of_perm`), nor does anything but the names of the regular files there.
Main statement: `lists_of_listWithExtension`.
-/

namespace AssetPress

/-! ### Names in any order -/

theorem namesWithExtension_eq_of_perm {extension : Bytes} {es es' : List Listed}
    (h : es.Perm es') : namesWithExtension extension es = namesWithExtension extension es' := by
  have htrans : ∀ a b c : Bytes, decide (a ≤ b) = true → decide (b ≤ c) = true →
      decide (a ≤ c) = true := by
    intro a b c hab hbc
    exact decide_eq_true (List.le_trans (of_decide_eq_true hab) (of_decide_eq_true hbc))
  have htotal : ∀ a b : Bytes, (decide (a ≤ b) || decide (b ≤ a)) = true := by
    intro a b
    simpa using List.le_total a b
  have hnames := (h.filter fun e => e.isFile && extension? e.name == some extension).map
    Listed.name
  unfold namesWithExtension
  refine List.Perm.eq_of_pairwise (fun a b _ _ hab hba => ?_)
    (List.pairwise_mergeSort htrans htotal _) (List.pairwise_mergeSort htrans htotal _)
    ((List.mergeSort_perm _ _).trans (hnames.trans (List.mergeSort_perm _ _).symm))
  exact List.le_antisymm (of_decide_eq_true hab) (of_decide_eq_true hba)

theorem exists_map_eq_of_forall_mem {α β : Type} {f : α → β} {ys : List β}
    (h : ∀ y ∈ ys, ∃ x, f x = y) : ∃ xs : List α, xs.map f = ys := by
  induction ys with
  | nil => exact ⟨[], rfl⟩
  | cons y rest ih =>
      obtain ⟨x, hx⟩ := h y (.head _)
      obtain ⟨xs, hxs⟩ := ih fun z hz => h z (.tail _ hz)
      exact ⟨x :: xs, by rw [List.map_cons, hx, hxs]⟩

/-! ### Paths of names -/

theorem Path.join_injective {dir p q : Path} (hp : p.isAbsolute = false)
    (hq : q.isAbsolute = false) (h : dir.join p = dir.join q) : p = q := by
  have hbytes : p.bytes = q.bytes := by
    unfold join at h
    rw [hp, hq] at h
    simp only [Bool.false_eq_true, if_false] at h
    split at h
    · exact List.append_cancel_left (congrArg Path.bytes h)
    · exact (List.cons.inj (List.append_cancel_left (congrArg Path.bytes h))).2
  cases p
  cases q
  exact congrArg Path.mk hbytes

namespace Tree

/-- The paths list the files of directory `d` that have the extension, as seen from `dir`: they are
`dir` joined with names in the order of their bytes, each once, and the names are those of the
regular files directly inside that are a stem, a dot and the extension. -/
structure Lists (t : Tree) (dir : Path) (d : Location) (extension : Bytes) (paths : List Path) :
    Prop where
  sorted : ∃ names : List Name, paths = names.map (fun n => dir.join ⟨n.bytes⟩) ∧
    names.Pairwise fun m n => m.bytes < n.bytes
  mem_iff : ∀ n : Name, dir.join ⟨n.bytes⟩ ∈ paths ↔
    (∃ content, t.get? (d ++ [n]) = some (.file content)) ∧
      ∃ stem, stem ≠ [] ∧ n.bytes = stem ++ dot :: extension

variable {t : Tree} {base d : Location} {dir : Path} {extension : Bytes}

theorem lists_namesIn (hext : dot ∉ extension) :
    t.Lists dir d extension ((t.namesIn d extension).map fun name => dir.join ⟨name⟩) := by
  have hbytes : ∀ name ∈ t.namesIn d extension, ∃ n : Name, n.bytes = name := by
    intro name hname
    obtain ⟨n, -, hn, -, -⟩ := mem_namesIn_iff.mp hname
    exact ⟨n, hn⟩
  obtain ⟨names, hnames⟩ := exists_map_eq_of_forall_mem hbytes
  have hpaths : (t.namesIn d extension).map (fun name => dir.join ⟨name⟩) =
      names.map fun n => dir.join ⟨n.bytes⟩ := by
    rw [← hnames, List.map_map]
    rfl
  constructor
  case sorted =>
    have hsorted := t.sorted_namesIn d extension
    rw [← hnames, List.pairwise_map] at hsorted
    exact ⟨names, hpaths, hsorted⟩
  case mem_iff =>
    intro n
    have hmem : dir.join ⟨n.bytes⟩ ∈ (t.namesIn d extension).map (fun name => dir.join ⟨name⟩) ↔
        n.bytes ∈ t.namesIn d extension := by
      rw [hpaths, ← hnames, List.mem_map, List.mem_map]
      constructor
      · rintro ⟨m, hm, hjoin⟩
        have heq := Path.join_injective (isAbsolute_name m) (isAbsolute_name n) hjoin
        exact ⟨m, hm, congrArg Path.bytes heq⟩
      · rintro ⟨m, hm, hbytes⟩
        exact ⟨m, hm, by rw [hbytes]⟩
    rw [hmem, mem_namesIn_iff]
    constructor
    · rintro ⟨m, content, hm, hget, hstem⟩
      obtain rfl := Name.ext hm
      exact ⟨⟨content, hget⟩, (extension?_eq_some_iff hext).mp hstem⟩
    · rintro ⟨⟨content, hget⟩, hstem⟩
      exact ⟨n, content, rfl, hget, (extension?_eq_some_iff hext).mpr hstem⟩

/-- What has been listed without failure is a directory, or else a file, which lists nothing. -/
theorem lists_of_pathsIn {paths : List Path} (hext : dot ∉ extension)
    (h : t.pathsIn base dir extension = .ok paths) :
    (∃ d, t.resolve base false dir = .ok (.dir d) ∧ t.Lists dir d extension paths) ∨
      ∃ d n content, t.resolve base false dir = .ok (.file d n content) ∧ paths = [] := by
  rcases of_pathsIn_ok h with ⟨d, hdir, rfl⟩ | hfile
  · exact Or.inl ⟨d, hdir, lists_namesIn hext⟩
  · exact Or.inr hfile

theorem Lists.join_extension_not_mem {paths : List Path} (h : t.Lists dir d extension paths) :
    dir.join ⟨dot :: extension⟩ ∉ paths := by
  intro hmem
  obtain ⟨names, hpaths, -⟩ := h.sorted
  have hlisted := hmem
  rw [hpaths] at hmem
  obtain ⟨n, -, hjoin⟩ := List.mem_map.mp hmem
  have hrelative : (⟨dot :: extension⟩ : Path).isAbsolute = false := rfl
  have hbytes : n.bytes = dot :: extension :=
    congrArg Path.bytes (Path.join_injective (isAbsolute_name n) hrelative hjoin)
  rw [← hbytes] at hlisted
  obtain ⟨-, stem, hstem, hn⟩ := (h.mem_iff n).mp hlisted
  rw [hbytes] at hn
  exact hstem (List.self_eq_append_left.mp hn)

end Tree

namespace Session

variable {base d : Location} {dir : Path} {extension : Bytes} {s : Session}

/-- A listing at a disk is made of the entries that the disk hands over. -/
theorem perform_listWithExtension_of_list {other : Disk (StateM Session)} {entries : List Listed}
    (h : perform s (other.list dir) = (.ok entries, s)) :
    perform s (other.listWithExtension dir extension) =
      (.ok ((namesWithExtension extension entries).map fun name => dir.join ⟨name⟩), s) := by
  unfold Disk.listWithExtension
  rw [perform_bind, perform_adapt, h]
  rfl

/-- A directory is listed in full and in order, by its regular files alone, whatever the order in
which its entries are handed over or have come to be there, and listing changes nothing. -/
theorem lists_of_listWithExtension (hdir : s.tree.resolve base false dir = .ok (.dir d))
    (hext : dot ∉ extension) :
    ∃ paths, perform s ((disk base).listWithExtension dir extension) = (.ok paths, s) ∧
      s.tree.Lists dir d extension paths ∧ dir.join ⟨dot :: extension⟩ ∉ paths ∧
      (∀ (other : Disk (StateM Session)) (entries entries' : List Listed),
        perform s ((disk base).list dir) = (.ok entries, s) →
        perform s (other.list dir) = (.ok entries', s) → entries'.Perm entries →
        perform s (other.listWithExtension dir extension) = (.ok paths, s)) ∧
      ∀ (s' : Session) (d' : Location), s'.tree.resolve base false dir = .ok (.dir d') →
        (∀ n : Name, (∃ content, s.tree.get? (d ++ [n]) = some (.file content)) ↔
          ∃ content, s'.tree.get? (d' ++ [n]) = some (.file content)) →
        perform s' ((disk base).listWithExtension dir extension) = (.ok paths, s') := by
  have hlisting : perform s ((disk base).listWithExtension dir extension) =
      (.ok ((s.tree.namesIn d extension).map fun name => dir.join ⟨name⟩), s) := by
    rw [perform_listWithExtension, Tree.pathsIn_of_dir hdir]
    rfl
  have hlists : s.tree.Lists dir d extension _ := Tree.lists_namesIn hext
  refine ⟨_, hlisting, hlists, hlists.join_extension_not_mem, ?_, ?_⟩
  · intro other entries entries' hentries hother hperm
    rw [perform_listWithExtension_of_list hother, namesWithExtension_eq_of_perm hperm,
      ← perform_listWithExtension_of_list hentries, hlisting]
  · intro s' d' hdir' hsame
    rw [perform_listWithExtension, Tree.pathsIn_of_dir hdir',
      ← Tree.namesIn_eq fun n _ => hsame n]
    rfl

/-- A directory in which names with two dots and names that are no text are listed, and a hidden
name, a longer extension, another case, a directory and a link to a file are not. -/
theorem lists_of_listWithExtension_mixed :
    let broken : Name := ⟨255 :: Utf8.encode ".css", by decide⟩
    let inner : Name := ⟨Utf8.encode "c.css", by decide⟩
    let link : Name := ⟨Utf8.encode "d.css", by decide⟩
    let t := (((Tree.ofFiles [("b.css", "2"), ("a.min.css", "1"), (".css", ""), ("b.css.map", ""),
      ("b.CSS", ""), ("..css", "")]).insert [] broken (.file [])).insert [] inner .dir).insert []
        link (.link (.ofString "b.css"))
    let dir := Path.ofString "/"
    let names := [Utf8.encode "..css", Utf8.encode "a.min.css", Utf8.encode "b.css", broken.bytes]
    let paths := names.map fun name => dir.join ⟨name⟩
    t.resolve [] false dir = .ok (.dir []) ∧ dot ∉ styleExtension ∧
      perform (.ofTree t) ((disk []).listWithExtension dir styleExtension) =
        (.ok paths, .ofTree t) ∧
      t.Lists dir [] styleExtension paths := by
  intro broken inner link t dir names paths
  have hdir : t.resolve [] false dir = .ok (.dir []) := rfl
  have hext : dot ∉ styleExtension := by decide
  have hnames : t.namesIn [] styleExtension = names := by
    rw [Tree.namesIn_eq_filesIn]
    decide +kernel
  obtain ⟨found, hlisting, hlists, -⟩ :=
    lists_of_listWithExtension (s := .ofTree t) hdir hext
  have hpaths : perform (.ofTree t) ((disk []).listWithExtension dir styleExtension) =
      (.ok paths, .ofTree t) := by
    rw [perform_listWithExtension, show (ofTree t).tree = t from rfl, Tree.pathsIn_of_dir hdir,
      hnames]
    rfl
  rw [hlisting] at hpaths
  obtain rfl : found = paths := Except.ok.inj (Prod.mk.inj hpaths).1
  exact ⟨hdir, hext, hlisting, hlists⟩

end Session
end AssetPress
