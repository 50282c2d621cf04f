import AssetPress.Proofs.Session.Disk

/-!
# The log has no say

Two tasks agree on a relation between sessions (`AgreeOn`) if from sessions that stand in it they
give the same answer and leave sessions that stand in it.  Of a relation that lasts (`Lasts`), as
having the same tree does, all file operations agree on it with themselves, and tasks put together
from agreeing ones agree.  So builds at two workbenches over the same files agree on every lasting
relation that their logs keep up (`agreeOn_build`); in particular they give the same answer and
leave the same tree, whatever either logs (`agree_build`).
-/

namespace AssetPress
namespace Session

/-- Sessions in the relation have the same tree, and stay in it when both trees change alike. -/
structure Lasts (R : Session → Session → Prop) : Prop where
  tree_eq : ∀ {s s' : Session}, R s s' → s.tree = s'.tree
  withTree : ∀ {s s' : Session} (t : Tree), R s s' → R { s with tree := t } { s' with tree := t }

def SameTree (s s' : Session) : Prop := s.tree = s'.tree

theorem lasts_sameTree : Lasts SameTree where
  tree_eq h := h
  withTree _ _ := rfl

section agree
variable {ε ε' α β : Type} {R : Session → Session → Prop}

/-- From sessions in relation `R` both tasks give the same answer and leave sessions in relation
`R`. -/
def AgreeOn (R : Session → Session → Prop) (x y : ExceptT ε (StateM Session) α) : Prop :=
  ∀ s s' : Session, R s s' →
    (perform s x).1 = (perform s' y).1 ∧ R (perform s x).2 (perform s' y).2

/-- From sessions with the same tree both tasks give the same answer and leave the same tree. -/
def Agree (x y : ExceptT ε (StateM Session) α) : Prop :=
  ∀ s s' : Session, s.tree = s'.tree →
    (perform s x).1 = (perform s' y).1 ∧ (perform s x).2.tree = (perform s' y).2.tree

/-! ### One law for each combination -/

theorem agreeOn_pure (a : α) : AgreeOn R (pure a : ExceptT ε (StateM Session) α) (pure a) :=
  fun _ _ h => ⟨rfl, h⟩

theorem agreeOn_throw (e : ε) : AgreeOn R (throw e : ExceptT ε (StateM Session) α) (throw e) :=
  fun _ _ h => ⟨rfl, h⟩

theorem agreeOn_mk_pure (r : Except ε α) :
    AgreeOn R (ExceptT.mk (pure r) : ExceptT ε (StateM Session) α) (ExceptT.mk (pure r)) :=
  fun _ _ h => ⟨rfl, h⟩

theorem AgreeOn.bind {x y : ExceptT ε (StateM Session) α}
    {f g : α → ExceptT ε (StateM Session) β} (hx : AgreeOn R x y)
    (hf : ∀ a, AgreeOn R (f a) (g a)) : AgreeOn R (x >>= f) (y >>= g) := by
  intro s s' h
  obtain ⟨hanswer, hafter⟩ := hx s s' h
  rw [perform_bind, perform_bind]
  rcases hp : perform s x with ⟨a, m⟩
  rcases hq : perform s' y with ⟨b, m'⟩
  rw [hp, hq] at hanswer hafter
  simp only at hanswer hafter
  subst hanswer
  cases a with
  | error e => exact ⟨rfl, hafter⟩
  | ok a => exact hf a m m' hafter

theorem AgreeOn.tryCatch {x y : ExceptT ε (StateM Session) α}
    {f g : ε → ExceptT ε (StateM Session) α} (hx : AgreeOn R x y)
    (hf : ∀ e, AgreeOn R (f e) (g e)) : AgreeOn R (tryCatch x f) (tryCatch y g) := by
  intro s s' h
  obtain ⟨hanswer, hafter⟩ := hx s s' h
  rw [perform_tryCatch, perform_tryCatch]
  rcases hp : perform s x with ⟨a, m⟩
  rcases hq : perform s' y with ⟨b, m'⟩
  rw [hp, hq] at hanswer hafter
  simp only at hanswer hafter
  subst hanswer
  cases a with
  | error e => exact hf e m m' hafter
  | ok a => exact ⟨rfl, hafter⟩

theorem AgreeOn.adapt {x y : ExceptT ε (StateM Session) α} (hx : AgreeOn R x y) (f : ε → ε') :
    AgreeOn R (x.adapt f) (y.adapt f) := by
  intro s s' h
  obtain ⟨hanswer, hafter⟩ := hx s s' h
  rw [perform_adapt, perform_adapt]
  exact ⟨congrArg (Except.mapError f) hanswer, hafter⟩

end agree

/-! ### File operations -/

section files
variable {R : Session → Session → Prop} (hR : Lasts R) (base : Location)
include hR

theorem agreeOn_change (f : Tree → Except OsError Tree) : AgreeOn R (change f) (change f) := by
  intro s s' h
  rw [perform_change, perform_change, hR.tree_eq h]
  cases f s'.tree with
  | error why => exact ⟨rfl, h⟩
  | ok t => exact ⟨rfl, hR.withTree t h⟩

theorem agreeOn_look {α : Type} (f : Tree → Except OsError α) : AgreeOn R (look f) (look f) :=
  fun _ _ h => ⟨congrArg f (hR.tree_eq h), h⟩

theorem agreeOn_makeDir (p : Path) : AgreeOn R ((disk base).makeDir p) ((disk base).makeDir p) :=
  agreeOn_change hR fun t => t.makeDir base p

theorem agreeOn_write (p : Path) (content : Bytes) :
    AgreeOn R ((disk base).write p content) ((disk base).write p content) :=
  agreeOn_change hR fun t => t.write base p content

theorem agreeOn_read (p : Path) : AgreeOn R ((disk base).read p) ((disk base).read p) :=
  agreeOn_look hR fun t => t.read base p

theorem agreeOn_list (p : Path) : AgreeOn R ((disk base).list p) ((disk base).list p) :=
  agreeOn_look hR fun t => return (← t.list base p).map listed

theorem agreeOn_unlessDir (p : Path) (why : OsError) :
    AgreeOn R ((disk base).unlessDir p why) ((disk base).unlessDir p why) := by
  have hlook : AgreeOn R (liftM ((disk base).isDir p) : ExceptT OsError (StateM Session) Bool)
      (liftM ((disk base).isDir p)) := by
    intro s s' h
    rw [perform_lift, perform_lift]
    exact ⟨congrArg (fun t : Tree => Except.ok (t.isDir base p)) (hR.tree_eq h), h⟩
  refine hlook.bind fun there => ?_
  split
  · exact agreeOn_pure ()
  · exact agreeOn_throw why

theorem agreeOn_makeDirs (ps : List Path) :
    AgreeOn R ((disk base).makeDirs ps) ((disk base).makeDirs ps) := by
  induction ps with
  | nil => exact agreeOn_pure ()
  | cons p above ih =>
      unfold Disk.makeDirs
      refine AgreeOn.tryCatch (agreeOn_makeDir hR base p) fun why => ?_
      split
      · exact ih.bind fun _ =>
          AgreeOn.tryCatch (agreeOn_makeDir hR base p) (agreeOn_unlessDir hR base p)
      · exact agreeOn_unlessDir hR base p why

theorem agreeOn_ensureDir (p : Path) :
    AgreeOn R ((disk base).ensureDir p) ((disk base).ensureDir p) :=
  (agreeOn_makeDirs hR base p.lineage).adapt _

theorem agreeOn_ensureParent (p : Path) :
    AgreeOn R (ensureParent base p) (ensureParent base p) := by
  unfold ensureParent
  split
  · split
    · exact agreeOn_pure ()
    · exact agreeOn_ensureDir hR base _
  · exact agreeOn_pure ()

theorem agreeOn_save (p : Path) (content : Bytes) :
    AgreeOn R ((disk base).save p content) ((disk base).save p content) := by
  rw [save_eq]
  exact AgreeOn.bind (agreeOn_ensureParent hR base p) fun _ =>
    (agreeOn_write hR base p content).adapt _

theorem agreeOn_readText (p : Path) :
    AgreeOn R ((disk base).readText p) ((disk base).readText p) := by
  refine AgreeOn.bind ((agreeOn_read hR base p).adapt _) fun bytes => ?_
  split
  · exact agreeOn_pure _
  · exact agreeOn_throw _

theorem agreeOn_listWithExtension (dir : Path) (extension : Bytes) :
    AgreeOn R ((disk base).listWithExtension dir extension)
      ((disk base).listWithExtension dir extension) :=
  AgreeOn.bind ((agreeOn_list hR base dir).adapt _) fun _ => agreeOn_pure _

end files

/-! ### Workbenches that differ in their logs -/

/-- Logging one event in both logs keeps sessions in the relation. -/
def LogsAlike (R : Session → Session → Prop) (l l' : Event → StateM Session Unit) : Prop :=
  ∀ e s s', R s s' → R (l e s).2 (l' e s').2

def KeepsTree (log : Event → StateM Session Unit) : Prop := ∀ e s, (log e s).2.tree = s.tree

theorem keepsTree_log : KeepsTree log := fun _ _ => rfl

section logs
variable {R : Session → Session → Prop} (hR : Lasts R) (base : Location) (minify : Minifier)
  {l l' : Event → StateM Session Unit} (hlog : LogsAlike R l l')

include hlog in
theorem agreeOn_log {ε : Type} (e : Event) :
    AgreeOn R (liftM (l e) : ExceptT ε (StateM Session) Unit) (liftM (l' e)) := by
  intro s s' h
  rw [perform_lift, perform_lift]
  exact ⟨rfl, hlog e s s' h⟩

include hR hlog

theorem agreeOn_readSources (ps : List Path) :
    AgreeOn R ((⟨disk base, l, minify⟩ : Workbench _).readSources ps)
      ((⟨disk base, l', minify⟩ : Workbench _).readSources ps) := by
  induction ps with
  | nil => exact agreeOn_pure _
  | cons p more ih =>
      have hsource : AgreeOn R ((⟨disk base, l, minify⟩ : Workbench _).readSource p)
          ((⟨disk base, l', minify⟩ : Workbench _).readSource p) :=
        (agreeOn_log hlog _).bind fun _ => (agreeOn_readText hR base p).adapt _
      exact hsource.bind fun _ => ih.bind fun _ => agreeOn_pure _

theorem agreeOn_emit (kind : AssetKind) (buildDir : Path) (output version code : String)
    (texts : List String) :
    AgreeOn R ((⟨disk base, l, minify⟩ : Workbench _).emit kind buildDir output version code texts)
      ((⟨disk base, l', minify⟩ : Workbench _).emit kind buildDir output version code texts) := by
  refine AgreeOn.bind (AgreeOn.adapt ?_ _) fun _ => agreeOn_pure _
  exact (agreeOn_ensureDir hR base buildDir).bind fun _ => (agreeOn_save hR base _ _).bind fun _ =>
    (agreeOn_log hlog _).bind fun _ => agreeOn_pure _

theorem agreeOn_pressed (kind : AssetKind) (buildDir : Path) (output version : String)
    (ps : List Path) :
    AgreeOn R
      (do
        let texts ← (⟨disk base, l, minify⟩ : Workbench _).readSources ps
        let code ← ExceptT.mk (pure (minify.shrink kind output texts))
        (⟨disk base, l, minify⟩ : Workbench _).emit kind buildDir output version code texts)
      (do
        let texts ← (⟨disk base, l', minify⟩ : Workbench _).readSources ps
        let code ← ExceptT.mk (pure (minify.shrink kind output texts))
        (⟨disk base, l', minify⟩ : Workbench _).emit kind buildDir output version code texts) :=
  (agreeOn_readSources hR base minify hlog ps).bind fun texts =>
    (agreeOn_mk_pure _).bind fun code =>
      agreeOn_emit hR base minify hlog kind buildDir output version code texts

theorem agreeOn_pressScripts (job : ScriptJob) :
    AgreeOn R ((⟨disk base, l, minify⟩ : Workbench _).pressScripts job)
      ((⟨disk base, l', minify⟩ : Workbench _).pressScripts job) :=
  agreeOn_pressed hR base minify hlog _ _ _ _ _

theorem agreeOn_pressStyles (job : StyleJob) :
    AgreeOn R ((⟨disk base, l, minify⟩ : Workbench _).pressStyles job)
      ((⟨disk base, l', minify⟩ : Workbench _).pressStyles job) := by
  refine ((agreeOn_listWithExtension hR base _ _).adapt _).bind fun paths => ?_
  split
  · exact (agreeOn_throw _).bind fun _ => agreeOn_pressed hR base minify hlog _ _ _ _ _
  · exact agreeOn_pressed hR base minify hlog _ _ _ _ _

theorem agreeOn_buildStyles (r : Request) :
    AgreeOn R (r.buildStyles l (⟨disk base, l, minify⟩ : Workbench _).press)
      (r.buildStyles l' (⟨disk base, l', minify⟩ : Workbench _).press) := by
  unfold Request.buildStyles
  split
  · exact (agreeOn_log hlog _).bind fun _ =>
      (agreeOn_pressStyles hR base minify hlog _).bind fun _ => agreeOn_pure _
  · exact (agreeOn_log hlog _).bind fun _ => agreeOn_pure _

theorem agreeOn_buildAll (r : Request) :
    AgreeOn R (r.buildAll l (⟨disk base, l, minify⟩ : Workbench _).press)
      (r.buildAll l' (⟨disk base, l', minify⟩ : Workbench _).press) := by
  have hrest := (agreeOn_log (ε := CompressError) hlog
    (.pressingScripts r.scripts (scriptOutput r.version))).bind fun _ =>
      (agreeOn_pressScripts hR base minify hlog r.scriptJob).bind fun script =>
        (agreeOn_buildStyles hR base minify hlog r).bind fun styles =>
          agreeOn_pure (⟨r.version, r.buildDir, script :: styles⟩ : Report)
  unfold Request.buildAll
  split
  · exact hrest
  · exact (agreeOn_log hlog _).bind fun _ => hrest

/-- A build depends on a log by nothing but what the log does to the session. -/
theorem agreeOn_build (r : Request) :
    AgreeOn R ((⟨disk base, l, minify⟩ : Workbench _).build r)
      ((⟨disk base, l', minify⟩ : Workbench _).build r) := by
  unfold Workbench.build Request.build
  split
  · exact agreeOn_throw _
  · exact (agreeOn_buildAll hR base minify hlog r).adapt _

end logs

theorem agree_build (base : Location) (minify : Minifier) {l l' : Event → StateM Session Unit}
    (hl : KeepsTree l) (hl' : KeepsTree l') (r : Request) :
    Agree ((⟨disk base, l, minify⟩ : Workbench _).build r)
      ((⟨disk base, l', minify⟩ : Workbench _).build r) := by
  have hlog : LogsAlike SameTree l l' := by
    intro e s s' h
    have htree : s.tree = s'.tree := h
    show (l e s).2.tree = (l' e s').2.tree
    rw [hl e s, hl' e s', htree]
  exact agreeOn_build lasts_sameTree base minify hlog r

end Session
end AssetPress
