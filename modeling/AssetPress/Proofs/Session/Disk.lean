import AssetPress.Proofs.Task
import AssetPress.Proofs.Tree.Following
import AssetPress.Session

/-!
# File operations in a session

What the file operations of a build do to the tree of a session, whatever they answer.  Reading and
listing leave it alone, making directories adds directories only, and saving a file adds
directories and then writes that file, or fails and has added directories only
(`of_perform_save_ok`, `of_perform_save_error`).
-/

namespace AssetPress
namespace Session

/-! ### Relations between the tree before and the tree after -/

section moves
variable {ε ε' α β : Type} {R : Tree → Tree → Prop}

/-- Whatever a task answers, the tree that it leaves stands in relation `R` to the tree before. -/
def Moves (R : Tree → Tree → Prop) (x : ExceptT ε (StateM Session) α) : Prop :=
  ∀ s, R s.tree (perform s x).2.tree

theorem Moves.of_perform {x : ExceptT ε (StateM Session) α} {s s' : Session} {r : Except ε α}
    (hx : Moves R x) (h : perform s x = (r, s')) : R s.tree s'.tree := by
  have hmove := hx s
  rwa [h] at hmove

theorem Moves.bind (htrans : ∀ t u v, R t u → R u v → R t v)
    {x : ExceptT ε (StateM Session) α} {f : α → ExceptT ε (StateM Session) β}
    (hx : Moves R x) (hf : ∀ a, Moves R (f a)) : Moves R (x >>= f) := by
  intro s
  have hfirst := hx s
  rw [perform_bind]
  rcases hp : perform s x with ⟨r, m⟩
  rw [hp] at hfirst
  cases r with
  | error e => exact hfirst
  | ok a => exact htrans _ _ _ hfirst (hf a m)

theorem Moves.tryCatch (htrans : ∀ t u v, R t u → R u v → R t v)
    {x : ExceptT ε (StateM Session) α} {f : ε → ExceptT ε (StateM Session) α}
    (hx : Moves R x) (hf : ∀ e, Moves R (f e)) : Moves R (tryCatch x f) := by
  intro s
  have hfirst := hx s
  rw [perform_tryCatch]
  rcases hp : perform s x with ⟨r, m⟩
  rw [hp] at hfirst
  cases r with
  | error e => exact htrans _ _ _ hfirst (hf e m)
  | ok a => exact hfirst

theorem Moves.adapt {x : ExceptT ε (StateM Session) α} (hx : Moves R x) (f : ε → ε') :
    Moves R (x.adapt f) := hx

end moves

variable {base : Location}

/-! ### The primitive operations -/

theorem perform_change (s : Session) (f : Tree → Except OsError Tree) :
    perform s (change f) =
      match f s.tree with
      | .error why => (.error why, s)
      | .ok t => (.ok (), { s with tree := t }) := rfl

theorem perform_makeDir (s : Session) (p : Path) :
    perform s ((disk base).makeDir p) =
      match s.tree.makeDir base p with
      | .error why => (.error why, s)
      | .ok t => (.ok (), { s with tree := t }) :=
  perform_change s fun t => t.makeDir base p

theorem perform_write (s : Session) (p : Path) (content : Bytes) :
    perform s ((disk base).write p content) =
      match s.tree.write base p content with
      | .error why => (.error why, s)
      | .ok t => (.ok (), { s with tree := t }) :=
  perform_change s fun t => t.write base p content

/-! ### Making directories -/

theorem moves_makeDir (p : Path) : Moves Tree.AddsDirs ((disk base).makeDir p) := by
  intro s
  rw [perform_makeDir]
  cases h : s.tree.makeDir base p with
  | error why => exact Tree.AddsDirs.refl s.tree
  | ok u => exact Tree.addsDirs_of_makeDir h

theorem moves_unlessDir (p : Path) (why : OsError) :
    Moves Tree.AddsDirs ((disk base).unlessDir p why) := by
  intro s
  unfold Disk.unlessDir
  rw [perform_bind, perform_lift]
  simp only
  split <;> exact Tree.AddsDirs.refl s.tree

theorem moves_makeDirs (ps : List Path) : Moves Tree.AddsDirs ((disk base).makeDirs ps) := by
  induction ps with
  | nil => exact fun s => Tree.AddsDirs.refl s.tree
  | cons p above ih =>
      unfold Disk.makeDirs
      have htrans : ∀ t u v : Tree, t.AddsDirs u → u.AddsDirs v → t.AddsDirs v :=
        fun _ _ _ => .trans
      refine Moves.tryCatch htrans (moves_makeDir p) fun why => ?_
      split
      · exact Moves.bind htrans ih fun _ =>
          Moves.tryCatch htrans (moves_makeDir p) (moves_unlessDir p)
      · exact moves_unlessDir p why

theorem moves_ensureDir (p : Path) : Moves Tree.AddsDirs ((disk base).ensureDir p) :=
  (moves_makeDirs p.lineage).adapt _

theorem action_of_perform_ensureDir {s s' : Session} {p : Path} {e : FileError}
    (h : perform s ((disk base).ensureDir p) = (.error e, s')) : e.action = .makeDir := by
  obtain ⟨why, rfl, -⟩ := of_perform_adapt_error h
  rfl

/-! ### Saving files -/

/-- Makes the directory in which saving a file puts it, unless that is the base directory. -/
def ensureParent (base : Location) (p : Path) : ExceptT FileError (StateM Session) Unit :=
  match p.parent? with
  | some above => if above.isEmpty then pure () else (disk base).ensureDir above
  | none => pure ()

theorem save_eq (p : Path) (content : Bytes) :
    (disk base).save p content = ensureParent base p >>= fun _ =>
      ((disk base).write p content).adapt fun why => ⟨.write, p, why.message⟩ := by
  unfold Disk.save ensureParent
  cases p.parent? with
  | none => rfl
  | some above =>
      simp only
      split <;> rfl

theorem moves_ensureParent (p : Path) : Moves Tree.AddsDirs (ensureParent base p) := by
  unfold ensureParent
  split
  · split
    · exact fun s => Tree.AddsDirs.refl s.tree
    · exact moves_ensureDir _
  · exact fun s => Tree.AddsDirs.refl s.tree

theorem action_of_perform_ensureParent {s s' : Session} {p : Path} {e : FileError}
    (h : perform s (ensureParent base p) = (.error e, s')) : e.action = .makeDir := by
  unfold ensureParent at h
  split at h
  · split at h
    · cases h
    · exact action_of_perform_ensureDir h
  · cases h

theorem of_perform_save_ok {s s' : Session} {p : Path} {content : Bytes}
    (h : perform s ((disk base).save p content) = (.ok (), s')) :
    ∃ v, s.tree.AddsDirs v ∧ v.write base p content = .ok s'.tree := by
  rw [save_eq] at h
  obtain ⟨_, m, hparent, hrest⟩ := of_perform_bind_ok h
  refine ⟨m.tree, (moves_ensureParent p).of_perform hparent, ?_⟩
  have hwrite := of_perform_adapt_ok hrest
  rw [perform_write] at hwrite
  cases hw : m.tree.write base p content with
  | error why =>
      rw [hw] at hwrite
      cases hwrite
  | ok u =>
      rw [hw] at hwrite
      cases hwrite
      rfl

theorem of_perform_save_error {s s' : Session} {p : Path} {content : Bytes} {e : FileError}
    (h : perform s ((disk base).save p content) = (.error e, s')) :
    s.tree.AddsDirs s'.tree ∧ (e.action = .makeDir ∨ e.action = .write) := by
  rw [save_eq] at h
  rcases of_perform_bind_error h with hparent | ⟨_, m, hparent, hrest⟩
  · exact ⟨(moves_ensureParent p).of_perform hparent,
      Or.inl (action_of_perform_ensureParent hparent)⟩
  · have hmoves := (moves_ensureParent p).of_perform hparent
    obtain ⟨why, rfl, hwrite⟩ := of_perform_adapt_error hrest
    refine ⟨?_, Or.inr rfl⟩
    rw [perform_write] at hwrite
    cases hw : m.tree.write base p content with
    | error why' =>
        rw [hw] at hwrite
        cases hwrite
        exact hmoves
    | ok u =>
        rw [hw] at hwrite
        cases hwrite

/-! ### Reading and listing -/

theorem moves_readText (p : Path) : Moves Eq ((disk base).readText p) := by
  unfold Disk.readText
  refine Moves.bind (R := Eq) (fun _ _ _ => Eq.trans) (fun _ => rfl) fun bytes => ?_
  split <;> exact fun _ => rfl

theorem moves_listWithExtension (dir : Path) (extension : Bytes) :
    Moves Eq ((disk base).listWithExtension dir extension) :=
  Moves.bind (R := Eq) (fun _ _ _ => Eq.trans) (fun _ => rfl) fun _ _ => rfl

theorem action_of_perform_listWithExtension {s s' : Session} {dir : Path} {extension : Bytes}
    {e : FileError} (h : perform s ((disk base).listWithExtension dir extension) = (.error e, s')) :
    e.action = .list := by
  rcases of_perform_bind_error h with hlist | ⟨entries, m, -, hrest⟩
  · obtain ⟨why, rfl, -⟩ := of_perform_adapt_error hlist
    rfl
  · cases hrest

end Session
end AssetPress
