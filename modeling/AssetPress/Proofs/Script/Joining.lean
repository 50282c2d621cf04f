import AssetPress.Bundle
import AssetPress.Proofs.Script.Seam
import AssetPress.Proofs.Script.Shown

/-!
# Joining scripts

Scripts that are put on lines of their own are read one after another, each as by itself, unless one
of them leaves an expression open that the next one goes on with (`Script.areApart`).  Printed,
their statements stand as those of one script, and so the short text of the bundle is made of the
short texts of the scripts (`Script.joinCodes`).  Main statement: `Script.minify_bundle`.
-/

namespace AssetPress
namespace Script

/-! ### One script after another -/

section reading
variable {ends : Bool} {fuel fuel' n k : Nat} {s a b : List Char} {ss ss' : List Statement}
  {tail : Cursor → Prop} {c d : Cursor}

theorem Meets.tail_of_atEnd (h : Meets s b tail c d) (hend : c.atEnd = true) : tail d := by
  cases h with
  | inside hswaps => exact absurd hend (Bool.eq_false_iff.mp (hswaps.atEnd_left _ _))
  | atEnd _ htail => exact htail

/-- In front of the seam, the next statement begins at the same token on both sides. -/
theorem Meets.restart (h : Meets s b tail c d) (hend : ¬ c.atEnd = true) :
    ¬ d.atEnd = true ∧ Meets s b tail c.restart d.restart := by
  cases h with
  | atEnd hend' _ => exact absurd hend' hend
  | inside hswaps =>
      refine ⟨Bool.eq_false_iff.mp (hswaps.atEnd_right _ _), ?_⟩
      cases hswaps with
      | mk hsolid hstart => exact .inside (.mk hsolid hstart)

/-- Two scripts that meet are read one after the other. -/
theorem readStatements_append (hs : IsEnding s) (hfuel : fuel ≤ fuel')
    (hseam : IsSeam b (Tail ends fuel' (k + 1) ss'))
    (hmeets : Meets s b (Tail ends fuel' (k + 1) ss') c d)
    (h : readStatements ends fuel n c = .ok ss) :
    readStatements true fuel' (n + k) d = .ok (ss ++ ss') := by
  induction n generalizing c d ss with
  | zero => cases h
  | succ n ih =>
      rw [readStatements] at h
      by_cases hend : c.atEnd = true
      · rw [if_pos hend] at h
        cases h
        have htail := (hmeets.tail_of_atEnd hend).reads
        exact readStatements_mono (fun h => h) (Nat.le_refl _) (by omega) htail
      · rw [if_neg hend] at h
        obtain ⟨⟨statement, c₂⟩, hfirst, hrest⟩ := of_bind_ok h
        obtain ⟨more, hmore, hlast⟩ := of_bind_ok hrest
        obtain ⟨hend', hrestart⟩ := hmeets.restart hend
        obtain ⟨d₂, hfirst', hmeets₂⟩ :=
          Routine.run_follows (kept_meets hs hseam) hfuel .statement hrestart hfirst
        have hmore' := ih hmeets₂ hmore
        rw [Nat.add_right_comm, readStatements, if_neg hend', hfirst']
        show (readStatements true fuel' (n + k) d₂ >>= _) = _
        rw [hmore']
        cases hlast
        cases statement.isEmpty <;> rfl

theorem Cursor.ofText_eq_ok_iff {text : List Char} :
    ofText text = .ok c ↔ (Token.next text).kind.isBroken = false ∧
      c = ⟨(Token.next text).start, Token.next text, true⟩ := by
  refine ⟨fun h => ?_, fun ⟨hwhole, hc⟩ => ?_⟩
  · obtain ⟨t, ht, hdone⟩ := of_bind_ok h
    obtain ⟨hwhole, rfl⟩ := Token.whole_eq_ok_iff.mp ht
    cases hdone
    exact ⟨hwhole, rfl⟩
  · rw [ofText, Token.whole_eq_ok_iff.mpr ⟨hwhole, rfl⟩, hc]
    rfl

/-- Behind the end of a line stands a script that can be read, as long as it cannot go on with what
the end of a text ends. -/
theorem isSeam_of_read (h : Statement.read b = .ok ss) (hfuel : 8 * b.length + 64 ≤ fuel)
    (hon : ends = true → (Token.next b).kind.goesOn = false) :
    IsSeam b (Tail ends fuel (b.length + 1) ss) := by
  obtain ⟨c, hc, hread⟩ := of_bind_ok h
  obtain ⟨hwhole, rfl⟩ := Cursor.ofText_eq_ok_iff.mp hc
  have hmore := readStatements_mono (fun h => h) hfuel (Nat.le_refl _) hread
  refine fun script => ⟨hmore ▸ readStatements_congr rfl, hwhole, rfl, fun hends => ?_⟩
  refine Option.eq_none_iff_forall_not_mem.mpr fun continuation hcontinuation => ?_
  have hidle : (Token.next b).kind.isIdle = false := not_isIdle_of_readStatements hread
  have hgoes := Sight.goesOn_of_continuation? hcontinuation rfl hidle
  exact Bool.false_ne_true ((hon hends).symm.trans hgoes)

/-- A script with another one behind it begins where it does by itself. -/
theorem exists_meets (hs : IsEnding s) (hseam : IsSeam b (Tail ends fuel k ss))
    (hc : Cursor.ofText (a ++ s) = .ok c) :
    ∃ d, Cursor.ofText (a ++ '\n' :: b) = .ok d ∧ Meets s b (Tail ends fuel k ss) c d := by
  obtain ⟨hbroken, rfl⟩ := Cursor.ofText_eq_ok_iff.mp hc
  by_cases hend : (Token.next (a ++ s)).kind = .endOfText
  · have hnext := Token.next_of_endOfText hs hend b
    have hwhole : (Token.next (a ++ '\n' :: b)).kind.isBroken = false :=
      hnext ▸ (hseam []).isWhole
    refine ⟨_, Cursor.ofText_eq_ok_iff.mpr ⟨hwhole, rfl⟩, ?_⟩
    rw [hnext]
    exact .atEnd (beq_iff_eq.mpr hend) (hseam _).over
  · have hswaps := Token.next_swaps hs (Kind.isSolid_of_ne_endOfText hbroken hend) b
    have hwhole : (Token.next (a ++ '\n' :: b)).kind.isBroken = false := hswaps.kind_eq ▸ hbroken
    refine ⟨_, Cursor.ofText_eq_ok_iff.mpr ⟨hwhole, rfl⟩, ?_⟩
    generalize Token.next (a ++ s) = t, Token.next (a ++ '\n' :: b) = t' at hswaps
    cases hswaps with
    | mk hsolid hstart => exact .inside (.mk hsolid hstart)

/-- A script that can be read is read as by itself in front of another one. -/
theorem readWith_append (hs : IsEnding s) (ha : Statement.readWith ends (a ++ s) = .ok ss)
    (hb : Statement.read b = .ok ss')
    (hon : ends = true → (Token.next b).kind.goesOn = false) :
    Statement.read (a ++ '\n' :: b) = .ok (ss ++ ss') := by
  have hlength : s.length ≤ 1 := by cases hs <;> simp
  have hseam : IsSeam b (Tail ends (8 * (a ++ '\n' :: b).length + 64) (b.length + 1) ss') :=
    isSeam_of_read hb (by simp only [List.length_append, List.length_cons]; omega) hon
  obtain ⟨c, hc, hread⟩ := of_bind_ok ha
  obtain ⟨d, hd, hmeets⟩ := exists_meets hs hseam hc
  have hfuel : 8 * (a ++ s).length + 64 ≤ 8 * (a ++ '\n' :: b).length + 64 := by
    simp only [List.length_append, List.length_cons]
    omega
  have hboth := readStatements_append hs hfuel hseam hmeets hread
  have hcount : (a ++ s).length + 1 + b.length ≤ (a ++ '\n' :: b).length + 1 := by
    simp only [List.length_append, List.length_cons]
    omega
  rw [Statement.read, Statement.readWith, hd]
  exact readStatements_mono (fun h => h) (Nat.le_refl _) hcount hboth

end reading

/-! ### Scripts that stand apart -/

/-- Whether a script leaves its last statement open: it is an expression that could go on, and that
nothing but the end of the text ends. -/
def isOpen (text : String) : Bool := (Statement.readWith false text.toList).toOption.isNone

/-- Whether a script begins with a token that goes on with an open expression: an opening
parenthesis or bracket, a sign or a slash. -/
def goesOn (text : String) : Bool := (Token.next text.toList).kind.goesOn

/-- Whether scripts stand apart in their bundle: what stands behind one that leaves its last
statement open does not go on with it. -/
def areApart : List String → Bool
  | [] => true
  | text :: more => !(isOpen text && goesOn (bundle more)) && areApart more

/-- Every text is something with a line end behind it or without, and is put on lines of its own. -/
theorem exists_terminated (text : String) : ∃ a s, IsEnding s ∧ text.toList = a ++ s ∧
    (terminated text).toList = a ++ ['\n'] := by
  unfold terminated
  split
  case isTrue hline =>
    obtain ⟨a, ha⟩ := List.getLast?_eq_some_iff.mp hline
    exact ⟨a, ['\n'], .line, ha, ha⟩
  case isFalse => exact ⟨text.toList, [], .bare, (List.append_nil _).symm, by simp⟩

theorem toList_bundle_cons {text : String} {a : List Char}
    (h : (terminated text).toList = a ++ ['\n']) (more : List String) :
    (bundle (text :: more)).toList = a ++ '\n' :: (bundle more).toList := by
  rw [toList_bundle, List.flatMap_cons, ← toList_bundle, h, List.append_assoc,
    List.singleton_append]

/-- A script that leaves nothing open is read in the same way where the end of the text ends no
expression. -/
theorem readWith_of_isOpen {text : String} {ss : List Statement}
    (hread : Statement.read text.toList = .ok ss) :
    Statement.readWith (isOpen text) text.toList = .ok ss := by
  cases hopen : isOpen text with
  | true => exact hread
  | false =>
      rw [isOpen] at hopen
      cases hloose : Statement.readWith false text.toList with
      | error fault =>
          rw [hloose] at hopen
          cases hopen
      | ok ss' =>
          obtain ⟨c, hc, hstatements⟩ := of_bind_ok hloose
          have hsame := readStatements_mono (fun _ => rfl) (Nat.le_refl _) (Nat.le_refl _)
            hstatements
          rw [Statement.read, Statement.readWith, hc] at hread
          exact congrArg Except.ok (Except.ok.inj (hsame.symm.trans hread))

/-- Scripts that stand apart are read one after another in their bundle. -/
theorem read_bundle {texts : List String} {groups : List (List Statement)}
    (hread : texts.mapM (fun text => Statement.read text.toList) = .ok groups)
    (hapart : areApart texts = true) :
    Statement.read (bundle texts).toList = .ok groups.flatten := by
  induction texts generalizing groups with
  | nil =>
      cases hread
      rfl
  | cons text more ih =>
      rw [List.mapM_cons] at hread
      obtain ⟨first, hfirst, hrest⟩ := of_bind_ok hread
      obtain ⟨others, hothers, hdone⟩ := of_bind_ok hrest
      cases hdone
      rw [areApart, Bool.and_eq_true, Bool.not_eq_true', Bool.and_eq_false_imp] at hapart
      have hmore := ih hothers hapart.2
      obtain ⟨a, s, hs, htext, hlines⟩ := exists_terminated text
      have hfirst' := readWith_of_isOpen hfirst
      rw [htext] at hfirst'
      rw [toList_bundle_cons hlines, List.flatten_cons]
      exact readWith_append hs hfirst' hmore hapart.1

example : isOpen "a=b//" = true := by decide +kernel
example : isOpen "a=b;" = false := by decide +kernel
example : isOpen "function f(){}" = false := by decide +kernel
example : areApart ["a", "/**/", "[b]"] = false := by decide +kernel

/-! ### Printed scripts -/

/-- A list of printed statements as one of them. -/
def Printed.whole (ps : List Printed) : Printed := ⟨joined ps, isClosedBehind ps, none⟩

/-- The short text of statements, and whether it may stand in front of others as it is. -/
def codeOf (statements : List Statement) : String × Bool :=
  (String.ofList (printScript statements), isClosedBehind (Statement.printAll [] statements))

/-- Whether the short text of a script may stand in front of others as it is: its last statement
ends in a block. -/
def endsClosed (text : String) : Bool :=
  match Statement.read text.toList with
  | .ok statements => (codeOf statements).2
  | .error _ => false

/-- Short texts one after another, each with whether it may stand in front of others as it is; the
other ones have a semicolon behind them there. -/
def joinCodes : List (String × Bool) → String
  | [] => ""
  | [(code, _)] => code
  | (code, isClosed) :: more => code ++ (if isClosed then "" else ";") ++ joinCodes more

/-- Where no short text may stand in front of others as it is, there are semicolons between them. -/
theorem joinCodes_eq_intercalate {codes : List (String × Bool)} (h : ∀ p ∈ codes, p.2 = false) :
    joinCodes codes = ";".intercalate (codes.map Prod.fst) := by
  induction codes with
  | nil => rfl
  | cons first more ih =>
      obtain ⟨hfirst, hmore⟩ := List.forall_mem_cons.mp h
      cases more with
      | nil => exact (String.intercalate_singleton).symm
      | cons second more =>
          rw [joinCodes, ih hmore, hfirst, if_neg Bool.false_ne_true]
          · exact (String.intercalate_cons_cons).symm
          · nofun

def Printed.ofCode (code : String × Bool) : Printed := ⟨code.1.toList, code.2, none⟩

theorem Printed.ofCode_codeOf (statements : List Statement) :
    ofCode (codeOf statements) = whole (Statement.printAll [] statements) := by
  rw [ofCode, codeOf, String.toList_ofList]
  rfl

theorem Printed.map_ofCode_filter (codes : List (String × Bool)) :
    (codes.filter (·.1 ≠ "")).map ofCode =
      (codes.map ofCode).filter fun p => !p.text.isEmpty := by
  have hempty : ∀ code : String × Bool, decide (code.1 ≠ "") = !(ofCode code).text.isEmpty := by
    intro code
    rw [ofCode, Bool.eq_iff_iff]
    simp
  rw [List.filter_map]
  exact congrArg (List.map ofCode) (List.filter_congr fun code _ => hempty code)

theorem toList_joinCodes (codes : List (String × Bool)) :
    (joinCodes codes).toList = joined (codes.map Printed.ofCode) := by
  induction codes with
  | nil => rfl
  | cons first more ih =>
      cases more with
      | nil => rfl
      | cons second more =>
          rw [joinCodes, String.toList_append, String.toList_append, ih]
          · cases hclosed : first.2 with
            | true => simp [joined, Printed.separate, Printed.ofCode, hclosed]
            | false => simp [joined, Printed.separate, Printed.ofCode, hclosed]
          · nofun

theorem printAll_eq_map (r : Renaming) (ss : List Statement) :
    Statement.printAll r ss = ss.map (Statement.print r) := by
  induction ss with
  | nil => rfl
  | cons s more ih => rw [Statement.printAll, ih, List.map_cons]

theorem joined_cons {p : Printed} {ps : List Printed} (h : ps ≠ []) :
    joined (p :: ps) = p.separate ++ joined ps := by
  cases ps with
  | nil => exact absurd rfl h
  | cons q ps => rfl

theorem separate_whole_cons {p : Printed} {ps : List Printed} (h : ps ≠ []) :
    (Printed.whole (p :: ps)).separate = p.separate ++ (Printed.whole ps).separate := by
  have hclosed : isClosedBehind (p :: ps) = isClosedBehind ps := by
    rw [isClosedBehind, isClosedBehind, List.getLast?_cons_of_ne_nil h]
  unfold Printed.whole Printed.separate
  rw [joined_cons h, hclosed]
  split
  · rfl
  · exact List.append_assoc _ _ _

/-- Printed statements in front of others stand there as a single one does. -/
theorem joined_append {ps qs : List Printed} (hps : ps ≠ []) (hqs : qs ≠ []) :
    joined (ps ++ qs) = (Printed.whole ps).separate ++ joined qs := by
  induction ps with
  | nil => exact absurd rfl hps
  | cons p more ih =>
      cases more with
      | nil => exact joined_cons hqs
      | cons q more =>
          rw [List.cons_append, joined_cons (by simp), ih (List.cons_ne_nil q more),
            separate_whole_cons (List.cons_ne_nil q more), List.append_assoc]

theorem separate_ne_nil {p : Printed} (h : p.text ≠ []) : p.separate ≠ [] := by
  unfold Printed.separate
  split
  · exact h
  · exact List.append_ne_nil_of_left_ne_nil h _

theorem joined_eq_nil_iff {ps : List Printed} (h : ∀ p ∈ ps, p.text ≠ []) :
    joined ps = [] ↔ ps = [] := by
  refine ⟨fun hnil => ?_, fun hnil => hnil ▸ rfl⟩
  cases ps with
  | nil => rfl
  | cons p more =>
      have hp := h p (.head more)
      cases more with
      | nil => exact absurd hnil hp
      | cons q more =>
          rw [joined_cons (List.cons_ne_nil q more)] at hnil
          exact absurd (List.append_eq_nil_iff.mp hnil).1 (separate_ne_nil hp)

/-- Groups of printed statements are printed one after another; those without statements are left
out. -/
theorem joined_flatten {groups : List (List Printed)} (h : ∀ ps ∈ groups, ∀ p ∈ ps, p.text ≠ []) :
    joined groups.flatten =
      joined ((groups.map Printed.whole).filter fun p => !p.text.isEmpty) := by
  induction groups with
  | nil => rfl
  | cons ps more ih =>
      obtain ⟨hps, hmore⟩ := List.forall_mem_cons.mp h
      rw [List.flatten_cons, List.map_cons]
      by_cases hnil : ps = []
      · rw [hnil, List.nil_append, List.filter_cons_of_neg (by simp [Printed.whole, joined]),
          ih hmore]
      have hkept : (!(Printed.whole ps).text.isEmpty) = true := by
        simpa [Printed.whole] using fun hempty => hnil ((joined_eq_nil_iff hps).mp hempty)
      rw [List.filter_cons, if_pos hkept]
      have hrest := ih hmore
      generalize hkeeps : (more.map Printed.whole).filter (fun p => !p.text.isEmpty) = rest
        at hrest ⊢
      have htexts : ∀ p ∈ rest, p.text ≠ [] := by
        intro p hp
        rw [← hkeeps] at hp
        simpa using (List.mem_filter.mp hp).2
      have hflat : ∀ p ∈ more.flatten, p.text ≠ [] := by
        intro p hp
        obtain ⟨group, hgroup, hp⟩ := List.mem_flatten.mp hp
        exact hmore group hgroup p hp
      have hsame : more.flatten = [] ↔ rest = [] := by
        rw [← joined_eq_nil_iff hflat, hrest, joined_eq_nil_iff htexts]
      by_cases hend : more.flatten = []
      · rw [hend, hsame.mp hend, List.append_nil]
        rfl
      · rw [joined_append hnil hend, hrest, joined_cons (mt hsame.mpr hend)]

/-! ### Bundles -/

section bundles
variable {texts codes : List String} {groups : List (List Statement)}

theorem printAll_flatten (r : Renaming) (groups : List (List Statement)) :
    Statement.printAll r groups.flatten = (groups.map (Statement.printAll r)).flatten := by
  have hall : Statement.printAll r = List.map (Statement.print r) :=
    funext fun ss => printAll_eq_map r ss
  rw [hall, List.map_flatten]

/-- Scripts with short texts can be read, and so their short texts are known with whether each of
them may stand in front of others as it is. -/
theorem exists_groups (h : texts.mapM minify = .ok codes) :
    ∃ groups, texts.mapM (fun text => Statement.read text.toList) = .ok groups ∧
      (∀ ss ∈ groups, ∀ s ∈ ss, (s.print []).text ≠ []) ∧
      codes.zip (texts.map endsClosed) = groups.map codeOf := by
  induction texts generalizing codes with
  | nil =>
      cases h
      exact ⟨[], rfl, nofun, rfl⟩
  | cons text more ih =>
      rw [List.mapM_cons] at h
      obtain ⟨code, hcode, hrest⟩ := of_bind_ok h
      obtain ⟨others, hothers, hdone⟩ := of_bind_ok hrest
      obtain ⟨ss, hss, hprint⟩ := of_bind_ok hcode
      obtain ⟨groups, hgroups, htexts, hzip⟩ := ih hothers
      have hclosed : endsClosed text = (codeOf ss).2 := by rw [endsClosed, hss]
      cases hdone
      cases hprint
      refine ⟨ss :: groups, ?_, List.forall_mem_cons.mpr ⟨text_ne_nil_of_read hss, htexts⟩, ?_⟩
      · rw [List.mapM_cons, hss, hgroups]
        rfl
      · rw [List.map_cons, List.zip_cons_cons, hzip, hclosed, List.map_cons]
        rfl

/-- The short text of a bundle of scripts that stand apart is made of their short texts, with
semicolons between those that are not empty, unless one may stand in front of others as it is. -/
theorem minify_bundle (hcodes : texts.mapM minify = .ok codes) (hapart : areApart texts = true) :
    minify (bundle texts) =
      .ok (joinCodes ((codes.zip (texts.map endsClosed)).filter (·.1 ≠ ""))) := by
  obtain ⟨groups, hgroups, htexts, hzip⟩ := exists_groups hcodes
  have hshown : ∀ ps ∈ groups.map (Statement.printAll []), ∀ p ∈ ps, p.text ≠ [] := by
    intro ps hps p hp
    obtain ⟨ss, hss, rfl⟩ := List.mem_map.mp hps
    rw [printAll_eq_map] at hp
    obtain ⟨s, hs, rfl⟩ := List.mem_map.mp hp
    exact htexts ss hss s hs
  have hwhole : (groups.map codeOf).map Printed.ofCode =
      (groups.map (Statement.printAll [])).map Printed.whole := by
    rw [List.map_map, List.map_map]
    exact List.map_congr_left fun ss _ => Printed.ofCode_codeOf ss
  rw [minify, read_bundle hgroups hapart, hzip]
  refine congrArg Except.ok (String.toList_inj.mp ?_)
  rw [String.toList_ofList, toList_joinCodes, Printed.map_ofCode_filter, hwhole, printScript,
    printAll_flatten, joined_flatten hshown]

/-- Where no script ends in a block, there are semicolons between all short texts. -/
theorem joinCodes_zip_of_loose (hcodes : texts.mapM minify = .ok codes)
    (h : ∀ text ∈ texts, endsClosed text = false) :
    joinCodes ((codes.zip (texts.map endsClosed)).filter (·.1 ≠ "")) =
      ";".intercalate (codes.filter (· ≠ "")) := by
  have hloose : ∀ p ∈ codes.zip (texts.map endsClosed), p.2 = false := by
    intro p hp
    obtain ⟨text, htext, hclosed⟩ := List.mem_map.mp (List.of_mem_zip hp).2
    exact hclosed ▸ h text htext
  have hunits : texts.map (fun _ => ()) = codes.map fun _ => () :=
    map_eq_map_of_mapM_ok (fun _ _ _ => rfl) hcodes
  have hlength : codes.length ≤ (texts.map endsClosed).length := by
    have hsame := congrArg List.length hunits
    rw [List.length_map, List.length_map] at hsame
    rw [List.length_map]
    exact Nat.le_of_eq hsame.symm
  have hkept : (fun code => decide (code ≠ "")) ∘ Prod.fst =
      fun p : String × Bool => decide (p.1 ≠ "") := rfl
  rw [joinCodes_eq_intercalate fun p hp => hloose p (List.mem_filter.mp hp).1, ← hkept,
    ← List.filter_map, List.map_fst_zip hlength]

end bundles

end Script
end AssetPress
