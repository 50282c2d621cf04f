import AssetPress.Proofs.Session.Disk

/-!
# Sessions in which writing is recorded

A workbench like that of a session, at which moreover every file that is written is recorded with
its content (`Recording.workbench`).  Recording has no say: a task at this workbench and the same
task in the session give the same answer and leave the same session (`Notes`), and `Notes P` tells
what the events and the writings have to do with the answer and the trees.  It is proved by one law
for each combination.  Nothing but a written artifact is recorded, and it is told of exactly then
(`notes_emit`).
-/

namespace AssetPress

/-- A file that has been written under a path. -/
structure Writing where
  path : Path
  content : Bytes
  deriving DecidableEq, Repr

/-- A session and what has been written in it, in its order. -/
structure Recording where
  session : Session
  writings : List Writing

namespace Recording

/-- The recording in which nothing has been logged or written. -/
def ofTree (t : Tree) : Recording := ⟨.ofTree t, []⟩

/-- A step of the session; nothing is recorded. -/
def within {α : Type} (x : StateM Session α) : StateM Recording α := fun c =>
  ((x c.session).1, { c with session := (x c.session).2 })

def record (w : Writing) : StateM Recording Unit := fun c =>
  ((), { c with writings := c.writings ++ [w] })

/-- The files of a session, of which those that are written are recorded. -/
def disk (base : Location) : Disk (StateM Recording) where
  makeDir p := ExceptT.mk (within ((Session.disk base).makeDir p).run)
  isDir p := within ((Session.disk base).isDir p)
  read p := ExceptT.mk (within ((Session.disk base).read p).run)
  write p content := do
    ExceptT.mk (within ((Session.disk base).write p content).run)
    liftM (record ⟨p, content⟩)
  list p := ExceptT.mk (within ((Session.disk base).list p).run)

/-- Adds an event to the log of the session. -/
def log (e : Event) : StateM Recording Unit := within (Session.log e)

/-- The workbench of a session at which writings are recorded. -/
def workbench (base : Location) (minify : Minifier) : Workbench (StateM Recording) :=
  ⟨disk base, log, minify⟩

/-! ### Tasks in both worlds -/

/-- What a task has to do with the tree that it finds, its answer, the tree that it leaves, the
events that it tells and the files that it writes. -/
abbrev Account (ε α : Type) := Tree → Except ε α → Tree → List Event → List Writing → Prop

section notes
variable {ε ε' α β : Type}

/-- The recorded task does what the task of the session does: both give the same answer, leave the
same tree and tell the same events, and `P` holds of this and of what is written. -/
def Notes (P : Account ε α) (x : ExceptT ε (StateM Recording) α)
    (y : ExceptT ε (StateM Session) α) : Prop :=
  ∀ c : Recording, ∃ r u told written, P c.session.tree r u told written ∧
    perform c.session y = (r, ⟨u, c.session.events ++ told⟩) ∧
    perform c x = (r, ⟨⟨u, c.session.events ++ told⟩, c.writings ++ written⟩)

/-- These events are told and these files written if the task succeeds, and nothing if it fails. -/
def AllOrNone (events : List Event) (writings : List Writing) : Account ε α :=
  fun _ r _ told written =>
    match r with
    | .ok _ => told = events ∧ written = writings
    | .error _ => told = [] ∧ written = []

def Quiet (x : ExceptT ε (StateM Recording) α) (y : ExceptT ε (StateM Session) α) : Prop :=
  Notes (AllOrNone [] []) x y

/-! ### One law for each combination -/

variable {P P' : Account ε α} {Q : α → Account ε β} {R : Account ε β}
  {x : ExceptT ε (StateM Recording) α} {y : ExceptT ε (StateM Session) α}
  {f : α → ExceptT ε (StateM Recording) β} {g : α → ExceptT ε (StateM Session) β}

theorem Notes.mono (h : Notes P x y)
    (hP : ∀ t r u told written, P t r u told written → P' t r u told written) : Notes P' x y := by
  intro c
  obtain ⟨r, u, told, written, hc, hy, hx⟩ := h c
  exact ⟨r, u, told, written, hP _ _ _ _ _ hc, hy, hx⟩

theorem Notes.of_perform (h : Notes P x y)
    (hP : ∀ s r u told written, P s.tree r u told written →
      perform s y = (r, ⟨u, s.events ++ told⟩) → P' s.tree r u told written) : Notes P' x y := by
  intro c
  obtain ⟨r, u, told, written, hc, hy, hx⟩ := h c
  exact ⟨r, u, told, written, hP _ _ _ _ _ hc hy, hy, hx⟩

/-- Two steps: if the first fails, that is all, and otherwise what both tell and write adds up. -/
theorem Notes.bind (hx : Notes P x y) (hf : ∀ a, Notes (Q a) (f a) (g a))
    (hstop : ∀ t e u told written, P t (.error e) u told written → R t (.error e) u told written)
    (hgo : ∀ t a u told written, P t (.ok a) u told written → ∀ r v told' written',
      Q a u r v told' written' → R t r v (told ++ told') (written ++ written')) :
    Notes R (x >>= f) (y >>= g) := by
  intro c
  obtain ⟨r, u, told, written, hP, hplain, hrecorded⟩ := hx c
  rw [perform_bind, perform_bind, hplain, hrecorded]
  cases r with
  | error e => exact ⟨.error e, u, told, written, hstop _ _ _ _ _ hP, rfl, rfl⟩
  | ok a =>
      obtain ⟨r, v, told', written', hQ, hplain', hrecorded'⟩ :=
        hf a ⟨⟨u, c.session.events ++ told⟩, c.writings ++ written⟩
      refine ⟨r, v, told ++ told', written ++ written', hgo _ _ _ _ _ hP _ _ _ _ hQ, ?_, ?_⟩
      · rw [← List.append_assoc]
        exact hplain'
      · rw [← List.append_assoc, ← List.append_assoc]
        exact hrecorded'

theorem Notes.adapt (hx : Notes P x y) (k : ε → ε') :
    Notes (fun t r u told written => ∃ r', r = r'.mapError k ∧ P t r' u told written)
      (x.adapt k) (y.adapt k) := by
  intro c
  obtain ⟨r, u, told, written, hP, hplain, hrecorded⟩ := hx c
  refine ⟨r.mapError k, u, told, written, ⟨r, rfl, hP⟩, ?_, ?_⟩
  · rw [perform_adapt, hplain]
  · rw [perform_adapt, hrecorded]

theorem Notes.map (hx : Notes P x y) (k : α → β) :
    Notes (fun t r u told written => ∃ r', r = r'.map k ∧ P t r' u told written)
      (x >>= fun a => pure (k a)) (y >>= fun a => pure (k a)) := by
  intro c
  obtain ⟨r, u, told, written, hP, hplain, hrecorded⟩ := hx c
  refine ⟨r.map k, u, told, written, ⟨r, rfl, hP⟩, ?_, ?_⟩
  · rw [perform_bind, hplain]
    cases r <;> rfl
  · rw [perform_bind, hrecorded]
    cases r <;> rfl

theorem notes_mk_pure (a : Except ε α) :
    Notes (fun t r u told written => r = a ∧ u = t ∧ told = [] ∧ written = [])
      (ExceptT.mk (pure a)) (ExceptT.mk (pure a)) := by
  intro c
  refine ⟨a, c.session.tree, [], [], ⟨rfl, rfl, rfl, rfl⟩, ?_, ?_⟩
  · rw [List.append_nil]
    rfl
  · rw [List.append_nil, List.append_nil]
    rfl

theorem quiet_mk_pure (a : Except ε α) : Quiet (ExceptT.mk (pure a)) (ExceptT.mk (pure a)) := by
  refine (notes_mk_pure a).mono ?_
  rintro t r u _ _ ⟨-, -, rfl, rfl⟩
  cases r <;> exact ⟨rfl, rfl⟩

theorem perform_within (c : Recording) (y : ExceptT ε (StateM Session) α) :
    perform c (ExceptT.mk (within y.run)) =
      ((perform c.session y).1, ⟨(perform c.session y).2, c.writings⟩) := rfl

theorem quiet_within (h : ∀ s, (perform s y).2.events = s.events) :
    Quiet (ExceptT.mk (within y.run)) y := by
  intro c
  have hsession : (perform c.session y).2 =
      ⟨(perform c.session y).2.tree, c.session.events ++ []⟩ := by
    rw [List.append_nil, ← h c.session]
  -- The session is the one that the step leaves; only its events are written out again.
  refine ⟨(perform c.session y).1, (perform c.session y).2.tree, [], [], ?_, ?_, ?_⟩
  · cases (perform c.session y).1 <;> exact ⟨rfl, rfl⟩
  · exact Prod.ext rfl hsession
  · rw [← hsession, List.append_nil]
    rfl

theorem AllOrNone.bind {events : List Event} {writings : List Writing} (hx : Quiet x y)
    (hf : ∀ a, Notes (AllOrNone events writings) (f a) (g a)) :
    Notes (AllOrNone events writings) (x >>= f) (y >>= g) := by
  refine Notes.bind hx hf (fun _ _ _ _ _ hnone => hnone) ?_
  rintro t a u _ _ ⟨rfl, rfl⟩ r v told written hall
  exact hall

theorem AllOrNone.adapt {events : List Event} {writings : List Writing} (k : ε → ε')
    (hx : Notes (AllOrNone events writings) x y) :
    Notes (AllOrNone events writings) (x.adapt k) (y.adapt k) := by
  refine (Notes.adapt hx k).mono ?_
  rintro t _ u told written ⟨r, rfl, hall⟩
  cases r <;> exact hall

/-- Steps that always succeed may follow. -/
theorem AllOrNone.followed {events more : List Event} {writings : List Writing} {k : α → β}
    (hx : Notes (AllOrNone events writings) x y)
    (hf : ∀ a, Notes
      (fun t r u told written => r = .ok (k a) ∧ u = t ∧ told = more ∧ written = []) (f a) (g a)) :
    Notes (AllOrNone (events ++ more) writings) (x >>= f) (y >>= g) := by
  refine Notes.bind hx hf (fun _ _ _ _ _ hnone => hnone) ?_
  rintro t a u _ _ ⟨rfl, rfl⟩ _ v _ _ ⟨rfl, -, rfl, rfl⟩
  exact ⟨rfl, List.append_nil _⟩

theorem Quiet.tryCatch {f : ε → ExceptT ε (StateM Recording) α}
    {g : ε → ExceptT ε (StateM Session) α} (hx : Quiet x y) (hf : ∀ e, Quiet (f e) (g e)) :
    Quiet (tryCatch x f) (tryCatch y g) := by
  intro c
  obtain ⟨r, u, told, written, hquiet, hplain, hrecorded⟩ := hx c
  rw [perform_tryCatch, perform_tryCatch, hplain, hrecorded]
  cases r with
  | ok a => exact ⟨.ok a, u, told, written, hquiet, rfl, rfl⟩
  | error e =>
      obtain ⟨rfl, rfl⟩ := hquiet
      simp only [List.append_nil]
      exact hf e ⟨⟨u, c.session.events⟩, c.writings⟩

theorem Notes.log (h : Notes P x y) (e : Event) :
    Notes (fun t r u told written => ∃ more, told = e :: more ∧ P t r u more written)
      (liftM (Recording.log e) >>= fun _ => x) (liftM (Session.log e) >>= fun _ => y) := by
  intro c
  obtain ⟨r, u, told, written, hP, hplain, hrecorded⟩ :=
    h ⟨⟨c.session.tree, c.session.events ++ [e]⟩, c.writings⟩
  refine ⟨r, u, e :: told, written, ⟨told, rfl, hP⟩, ?_, ?_⟩
  · rw [perform_bind, perform_lift, List.append_cons]
    exact hplain
  · rw [perform_bind, perform_lift, List.append_cons]
    exact hrecorded

end notes

/-! ### File operations -/

section files
variable {base : Location}

theorem quiet_makeDir (p : Path) :
    Quiet ((disk base).makeDir p) ((Session.disk base).makeDir p) := by
  refine quiet_within fun s => ?_
  rw [Session.perform_makeDir]
  cases s.tree.makeDir base p <;> rfl

theorem quiet_unlessDir (p : Path) (why : OsError) :
    Quiet ((disk base).unlessDir p why) ((Session.disk base).unlessDir p why) := by
  have hlook : Quiet (liftM ((disk base).isDir p) : ExceptT OsError (StateM Recording) Bool)
      (liftM ((Session.disk base).isDir p)) := quiet_within fun _ => rfl
  refine AllOrNone.bind hlook fun there => ?_
  cases there with
  | true => exact quiet_mk_pure (.ok ())
  | false => exact quiet_mk_pure (.error why)

theorem quiet_makeDirs (ps : List Path) :
    Quiet ((disk base).makeDirs ps) ((Session.disk base).makeDirs ps) := by
  induction ps with
  | nil => exact quiet_mk_pure (.ok ())
  | cons p above ih =>
      unfold Disk.makeDirs
      refine Quiet.tryCatch (quiet_makeDir p) fun why => ?_
      split
      · exact AllOrNone.bind ih fun _ => Quiet.tryCatch (quiet_makeDir p) (quiet_unlessDir p)
      · exact quiet_unlessDir p why

theorem quiet_ensureDir (p : Path) :
    Quiet ((disk base).ensureDir p) ((Session.disk base).ensureDir p) :=
  AllOrNone.adapt _ (quiet_makeDirs p.lineage)

theorem quiet_readText (p : Path) :
    Quiet ((disk base).readText p) ((Session.disk base).readText p) := by
  have hread : Quiet ((disk base).read p) ((Session.disk base).read p) :=
    quiet_within fun _ => rfl
  refine AllOrNone.bind (AllOrNone.adapt _ hread) fun bytes => ?_
  cases Utf8.decode? bytes with
  | some text => exact quiet_mk_pure (.ok text)
  | none => exact quiet_mk_pure (.error _)

theorem quiet_listWithExtension (dir : Path) (extension : Bytes) :
    Quiet ((disk base).listWithExtension dir extension)
      ((Session.disk base).listWithExtension dir extension) := by
  have hlist : Quiet ((disk base).list dir) ((Session.disk base).list dir) :=
    quiet_within fun _ => rfl
  exact AllOrNone.bind (AllOrNone.adapt _ hlist) fun _ => quiet_mk_pure (.ok _)

theorem notes_write (p : Path) (content : Bytes) :
    Notes (AllOrNone [] [⟨p, content⟩]) ((disk base).write p content)
      ((Session.disk base).write p content) := by
  intro c
  have hrecorded : perform c ((disk base).write p content) = perform c
      (ExceptT.mk (within ((Session.disk base).write p content).run) >>= fun _ =>
        liftM (record ⟨p, content⟩)) := rfl
  rw [hrecorded, perform_bind, perform_within, Session.perform_write]
  cases c.session.tree.write base p content with
  | error why =>
      refine ⟨.error why, c.session.tree, [], [], ⟨rfl, rfl⟩, ?_, ?_⟩
      · rw [List.append_nil]
      · rw [List.append_nil, List.append_nil]
  | ok u =>
      refine ⟨.ok (), u, [], [⟨p, content⟩], ⟨rfl, rfl⟩, ?_, ?_⟩
      · rw [List.append_nil]
      · rw [List.append_nil]
        rfl

theorem notes_save (p : Path) (content : Bytes) :
    Notes (AllOrNone [] [⟨p, content⟩]) ((disk base).save p content)
      ((Session.disk base).save p content) := by
  have hwrite : Notes (AllOrNone [] [⟨p, content⟩])
      (((disk base).write p content).adapt fun why => (⟨.write, p, why.message⟩ : FileError))
      (((Session.disk base).write p content).adapt fun why => ⟨.write, p, why.message⟩) :=
    AllOrNone.adapt _ (notes_write p content)
  unfold Disk.save
  cases p.parent? with
  | none => exact hwrite
  | some above =>
      simp only
      split
      · exact hwrite
      · exact AllOrNone.bind (quiet_ensureDir above) fun _ => hwrite

/-! ### Compressions -/

theorem notes_store (base : Location) (minify : Minifier) (buildDir : Path) (output : String)
    (content : Bytes) :
    Notes (AllOrNone [.wrote (buildDir.join (.ofString output)) content.length]
        [⟨buildDir.join (.ofString output), content⟩])
      ((workbench base minify).store buildDir output content)
      ((Session.workbench base minify).store buildDir output content) := by
  refine AllOrNone.bind (quiet_ensureDir buildDir) fun _ => ?_
  refine AllOrNone.followed (k := fun _ => buildDir.join (.ofString output)) (notes_save _ content)
    fun _ => ?_
  refine ((notes_mk_pure (.ok _)).log _).mono ?_
  rintro t r u _ _ ⟨more, rfl, rfl, rfl, rfl, rfl⟩
  exact ⟨rfl, rfl, rfl, rfl⟩

/-- An artifact is told and recorded together. -/
theorem notes_emit (base : Location) (minify : Minifier) (kind : AssetKind) (buildDir : Path)
    (output version code : String) (texts : List String) :
    Notes (AllOrNone
        [.wrote (buildDir.join (.ofString output)) (Workbench.content version code).length]
        [⟨buildDir.join (.ofString output), Workbench.content version code⟩])
      ((workbench base minify).emit kind buildDir output version code texts)
      ((Session.workbench base minify).emit kind buildDir output version code texts) := by
  have hstore := AllOrNone.adapt CompressError.filesystem
    (notes_store base minify buildDir output (Workbench.content version code))
  rw [← List.append_nil [Event.wrote _ _]]
  exact AllOrNone.followed hstore fun path => notes_mk_pure (.ok _)

end files

end Recording
end AssetPress
