import AssetPress.Tree.Location

/-!
# File trees

A file tree has finitely many entries below its root: regular files, symbolic links and
directories, each at its location.  The entries are kept in the order of their locations, so two
trees with the same entries are the same tree, and every entry stands in a directory.
`Tree.get?` is the view through which trees are compared; `Tree.insert` and `Tree.erase` are
described by it (`get?_insert`, `get?_erase`), and `Tree.ext_get?` says that nothing else matters.
-/

namespace AssetPress

/-- What stands at a location. -/
inductive Entry where
  | file (content : Bytes)
  | link (target : Path)
  | dir
  deriving DecidableEq, Repr

/-! ### Sorted entries -/

/-- Entries with their locations. -/
abbrev Entries := List (Location × Entry)

namespace Entries

/-- In strictly increasing order of location. -/
def Sorted (es : Entries) : Prop := es.Pairwise fun a b => a.1 < b.1

/-- The entries with `e` at `l`, whatever stood there before. -/
def place (l : Location) (e : Entry) : Entries → Entries
  | [] => [(l, e)]
  | (k, d) :: rest =>
      if l < k then (l, e) :: (k, d) :: rest
      else if l = k then (l, e) :: rest
      else (k, d) :: place l e rest

theorem lookup_cons (l : Location) (p : Location × Entry) (rest : Entries) :
    List.lookup l (p :: rest) = if l = p.1 then some p.2 else rest.lookup l := by
  obtain ⟨k, e⟩ := p
  rw [List.lookup_cons]
  by_cases h : l = k
  · simp [h]
  · have hne : (l == k) = false := by simpa using h
    simp [hne, h]

theorem lookup_place (l k : Location) (e : Entry) (es : Entries) :
    (place l e es).lookup k = if k = l then some e else es.lookup k := by
  induction es with
  | nil => rw [place, lookup_cons]
  | cons p rest ih =>
      obtain ⟨m, d⟩ := p
      unfold place
      split
      · rw [lookup_cons]
      · split
        case isTrue hlm =>
          subst hlm
          rw [lookup_cons, lookup_cons]
          by_cases h : k = l <;> simp [h]
        case isFalse hlm =>
          rw [lookup_cons, lookup_cons, ih]
          by_cases h : k = l
          · subst h
            simp [hlm]
          · simp [h]

theorem mem_place {l : Location} {e : Entry} {es : Entries} {p : Location × Entry}
    (h : p ∈ place l e es) : p = (l, e) ∨ p ∈ es := by
  induction es with
  | nil => simpa [place] using h
  | cons q rest ih =>
      obtain ⟨m, d⟩ := q
      unfold place at h
      split at h
      · simpa using h
      · split at h
        · rcases List.mem_cons.mp h with h | h
          · exact Or.inl h
          · exact Or.inr (List.mem_cons_of_mem _ h)
        · rcases List.mem_cons.mp h with h | h
          · exact Or.inr (List.mem_cons.mpr (Or.inl h))
          · rcases ih h with h | h
            · exact Or.inl h
            · exact Or.inr (List.mem_cons_of_mem _ h)

theorem sorted_place (l : Location) (e : Entry) {es : Entries} (h : Sorted es) :
    Sorted (place l e es) := by
  induction es with
  | nil => simp [place, Sorted]
  | cons p rest ih =>
      obtain ⟨m, d⟩ := p
      obtain ⟨hm, hrest⟩ := List.pairwise_cons.mp h
      unfold place
      split
      case isTrue hlt =>
        refine List.pairwise_cons.mpr ⟨fun q hq => ?_, h⟩
        rcases List.mem_cons.mp hq with rfl | hq
        · exact hlt
        · exact Location.lt_trans hlt (hm q hq)
      case isFalse hlt =>
        split
        case isTrue hlm =>
          subst hlm
          exact List.pairwise_cons.mpr ⟨hm, hrest⟩
        case isFalse hlm =>
          refine List.pairwise_cons.mpr ⟨fun q hq => ?_, ih hrest⟩
          rcases mem_place hq with rfl | hq
          · exact Location.lt_of_not hlt hlm
          · exact hm q hq

theorem lookup_of_lt_all {l : Location} (es : Entries) (h : ∀ p ∈ es, l < p.1) :
    es.lookup l = none := by
  refine List.lookup_eq_none_iff.mpr fun p hp => ?_
  have hne : l ≠ p.1 := fun heq => Location.lt_irrefl l (by
    have := h p hp
    rw [← heq] at this
    exact this)
  simpa using hne

theorem ext_lookup {as bs : Entries} (ha : Sorted as) (hb : Sorted bs)
    (h : ∀ l, as.lookup l = bs.lookup l) : as = bs := by
  induction as generalizing bs with
  | nil =>
      cases bs with
      | nil => rfl
      | cons p rest =>
          have := h p.1
          rw [lookup_cons, if_pos rfl] at this
          cases this
  | cons p rest ih =>
      cases bs with
      | nil =>
          have := h p.1
          rw [lookup_cons, if_pos rfl] at this
          cases this
      | cons q more =>
          obtain ⟨hp, hrest⟩ := List.pairwise_cons.mp ha
          obtain ⟨hq, hmore⟩ := List.pairwise_cons.mp hb
          have key : p.1 = q.1 := by
            refine Decidable.byContradiction fun hne => ?_
            by_cases hlt : p.1 < q.1
            · have := h p.1
              rw [lookup_of_lt_all (q :: more) (fun r hr => by
                rcases List.mem_cons.mp hr with rfl | hr
                · exact hlt
                · exact Location.lt_trans hlt (hq r hr)), lookup_cons, if_pos rfl] at this
              cases this
            · have hgt := Location.lt_of_not hlt hne
              have := h q.1
              rw [lookup_of_lt_all (p :: rest) (fun r hr => by
                rcases List.mem_cons.mp hr with rfl | hr
                · exact hgt
                · exact Location.lt_trans hgt (hp r hr)), lookup_cons, if_pos rfl] at this
              cases this
          have value : p.2 = q.2 := by
            have := h p.1
            rw [lookup_cons, lookup_cons, if_pos rfl, if_pos key] at this
            exact Option.some.inj this
          have hpq : p = q := Prod.ext key value
          subst hpq
          refine congrArg _ (ih hrest hmore fun l => ?_)
          by_cases hl : l = p.1
          · subst hl
            rw [lookup_of_lt_all rest hp, lookup_of_lt_all more hq]
          · have := h l
            rw [lookup_cons, lookup_cons, if_neg hl, if_neg hl] at this
            exact this

theorem lookup_filter (keep : Location → Bool) (es : Entries) (l : Location) :
    List.lookup l (es.filter fun p => keep p.1) = if keep l then es.lookup l else none := by
  induction es with
  | nil => simp
  | cons p rest ih =>
      rw [List.filter_cons, lookup_cons]
      by_cases hl : l = p.1
      · subst hl
        by_cases hk : keep p.1 = true
        · rw [if_pos hk, lookup_cons, if_pos rfl, if_pos hk, if_pos rfl]
        · rw [if_neg hk, ih, if_neg hk, if_neg hk]
      · rw [if_neg hl]
        by_cases hk : keep p.1 = true
        · rw [if_pos hk, lookup_cons, if_neg hl, ih]
        · rw [if_neg hk, ih]

end Entries

/-! ### Trees -/

/-- A file tree: the entries below the root, in order, each inside a directory. -/
structure Tree where
  entries : Entries
  sorted : entries.Sorted
  rootless : entries.lookup [] = none
  closed : ∀ (l : Location) (n : Name), (entries.lookup (l ++ [n])).isSome →
    l = [] ∨ entries.lookup l = some .dir

namespace Tree

def empty : Tree where
  entries := []
  sorted := List.Pairwise.nil
  rootless := rfl
  closed := by simp

/-- What stands at a location; the root is a directory. -/
def get? (t : Tree) (l : Location) : Option Entry :=
  if l = [] then some .dir else t.entries.lookup l

@[simp] theorem get?_root (t : Tree) : t.get? [] = some .dir := rfl

theorem get?_of_ne_nil (t : Tree) {l : Location} (h : l ≠ []) : t.get? l = t.entries.lookup l :=
  if_neg h

theorem ext_get? {s t : Tree} (h : ∀ l, s.get? l = t.get? l) : s = t := by
  have : s.entries = t.entries := by
    refine Entries.ext_lookup s.sorted t.sorted fun l => ?_
    by_cases hl : l = []
    · rw [hl, s.rootless, t.rootless]
    · rw [← s.get?_of_ne_nil hl, ← t.get?_of_ne_nil hl, h l]
  cases s
  cases t
  cases this
  rfl

theorem get?_of_child {t : Tree} {l : Location} {n : Name} (h : (t.get? (l ++ [n])).isSome) :
    t.get? l = some .dir := by
  rw [get?_of_ne_nil t (by simp)] at h
  rcases t.closed l n h with rfl | hl
  · rfl
  · by_cases hnil : l = []
    · subst hnil
      rfl
    · rw [get?_of_ne_nil t hnil, hl]

/-- Whether nothing stands directly below a location. -/
def childless (t : Tree) (l : Location) : Bool := t.entries.all fun p => p.1.parent != l

theorem childless_iff {t : Tree} {l : Location} :
    t.childless l = true ↔ ∀ n : Name, t.entries.lookup (l ++ [n]) = none := by
  unfold childless Location.parent
  constructor
  · intro h n
    refine List.lookup_eq_none_iff.mpr fun p hp => ?_
    have hp' := List.all_eq_true.mp h p hp
    refine bne_iff_ne.mpr fun heq => ?_
    rw [← heq] at hp'
    simp at hp'
  · intro h
    refine List.all_eq_true.mpr fun p hp => bne_iff_ne.mpr fun heq => ?_
    by_cases hnil : p.1 = []
    · have := List.lookup_eq_none_iff.mp t.rootless p hp
      simp [hnil] at this
    · have hsplit := List.dropLast_concat_getLast hnil
      rw [heq] at hsplit
      have := List.lookup_eq_none_iff.mp (h (p.1.getLast hnil)) p hp
      simp [hsplit] at this

/-- Whether `e` can stand at name `n` in `d`: `d` is a directory, and unless `e` is one itself
nothing stands below. -/
def Accepts (t : Tree) (d : Location) (n : Name) (e : Entry) : Prop :=
  t.get? d = some .dir ∧ (e = .dir ∨ t.childless (d ++ [n]) = true)

instance (t : Tree) (d : Location) (n : Name) (e : Entry) : Decidable (t.Accepts d n e) := by
  unfold Accepts
  infer_instance

/-- The tree with `e` at name `n` in `d`, whatever stood there before.  An entry that cannot
stand there changes nothing. -/
def insert (t : Tree) (d : Location) (n : Name) (e : Entry) : Tree :=
  if h : t.Accepts d n e then
    { entries := t.entries.place (d ++ [n]) e
      sorted := Entries.sorted_place _ _ t.sorted
      rootless := by
        rw [Entries.lookup_place]
        simp [t.rootless]
      closed := by
        intro l m hm
        rw [Entries.lookup_place] at hm
        by_cases hl : l = []
        · exact Or.inl hl
        refine Or.inr ?_
        rw [Entries.lookup_place]
        by_cases heq : l ++ [m] = d ++ [n]
        · obtain ⟨rfl, -⟩ := List.append_inj' heq rfl
          rw [if_neg (Location.ne_append_name l n)]
          rw [← t.get?_of_ne_nil hl]
          exact h.1
        · rw [if_neg heq] at hm
          by_cases hkey : l = d ++ [n]
          · subst hkey
            rcases h.2 with rfl | hchild
            · simp
            · rw [childless_iff.mp hchild m] at hm
              cases hm
          · rw [if_neg hkey]
            exact (t.closed l m hm).resolve_left hl }
  else t

theorem get?_insert {t : Tree} {d : Location} {n : Name} {e : Entry} (h : t.Accepts d n e)
    (l : Location) : (t.insert d n e).get? l = if l = d ++ [n] then some e else t.get? l := by
  unfold insert
  rw [dif_pos h]
  unfold get?
  by_cases hl : l = []
  · subst hl
    simp
  · rw [if_neg hl, if_neg hl]
    exact Entries.lookup_place _ _ _ _

theorem get?_insert_self {t : Tree} {d : Location} {n : Name} {e : Entry} (h : t.Accepts d n e) :
    (t.insert d n e).get? (d ++ [n]) = some e := by
  rw [get?_insert h, if_pos rfl]

theorem get?_insert_ne {t : Tree} {d : Location} {n : Name} {e : Entry} {l : Location}
    (h : l ≠ d ++ [n]) : (t.insert d n e).get? l = t.get? l := by
  by_cases ha : t.Accepts d n e
  · rw [get?_insert ha, if_neg h]
  · unfold insert
    rw [dif_neg ha]

/-- The tree without the entry at `l` and everything below it. -/
def erase (t : Tree) (l : Location) : Tree where
  entries := t.entries.filter fun p => !l.isPrefixOf p.1
  sorted := t.sorted.filter _
  rootless := by
    rw [Entries.lookup_filter (fun k => !l.isPrefixOf k), t.rootless, ite_self]
  closed := by
    intro k n h
    rw [Entries.lookup_filter (fun k => !l.isPrefixOf k)] at h ⊢
    by_cases hk : l.isPrefixOf (k ++ [n]) = true
    · simp [hk] at h
    · have hk' : ¬ l.isPrefixOf k = true := fun hp => hk (by
        rw [ List.isPrefixOf_iff_prefix] at hp ⊢
        exact hp.trans (List.prefix_append k [n]))
      rw [if_pos (by rw [Bool.eq_false_iff.mpr hk]; rfl)] at h
      rw [if_pos (by rw [Bool.eq_false_iff.mpr hk']; rfl)]
      exact t.closed k n h

theorem get?_erase (t : Tree) {l k : Location} (hk : k ≠ []) :
    (t.erase l).get? k = if l.isPrefixOf k then none else t.get? k := by
  rw [get?_of_ne_nil _ hk, get?_of_ne_nil _ hk]
  unfold erase
  rw [Entries.lookup_filter (fun k => !l.isPrefixOf k)]
  by_cases h : l.isPrefixOf k <;> simp [h]

/-- The entries directly inside a location, in order of their names. -/
def children (t : Tree) (d : Location) : List (Name × Entry) :=
  t.entries.filterMap fun p =>
    match p.1.getLast? with
    | some n => if p.1.parent = d then some (n, p.2) else none
    | none => none

end Tree
end AssetPress
