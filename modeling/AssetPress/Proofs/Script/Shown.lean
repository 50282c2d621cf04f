import AssetPress.Proofs.Script.Yields
import AssetPress.Script.Printer

/-!
# Printed scripts

No statement that is read is printed as nothing.  An expression could be printed as nothing only if
it were a name, a number or an operator without characters (`Expr.IsWritten`), and what is read is
made of tokens, which have some.  What a reading finds is told by what its steps and the routines
that it calls find (`Reading.Yields`); so it is enough to look at every routine once.  Main
statement: `text_ne_nil_of_read`.
-/

namespace AssetPress

theorem Decimal.positional_ne_nil (d : Decimal) : d.positional ≠ [] := by
  have hdigits : digitsOf d.digits ≠ [] := Nat.toDigits_ne_nil
  unfold Decimal.positional
  dsimp only
  split
  · split
    · exact hdigits
    · exact List.append_ne_nil_of_left_ne_nil hdigits _
  · split
    · exact List.append_ne_nil_of_right_ne_nil _ (List.cons_ne_nil _ _)
    · exact List.cons_ne_nil _ _

namespace Script

/-! ### What is written is printed -/

theorem enclosed_ne_nil {text : List Char} (h : text ≠ []) (needed : Bool) :
    enclosed needed text ≠ [] := by
  cases needed with
  | true => exact List.cons_ne_nil _ _
  | false => exact h

theorem printNumber_ne_nil (d : Decimal) : printNumber d ≠ [] := by
  unfold printNumber
  dsimp only
  split
  · decide
  · exact Decimal.positional_ne_nil _

theorem Operator.between_ne_nil {o : Operator} (h : o.text ≠ "") : o.between ≠ [] := by
  have htext : o.text.toList ≠ [] := fun hnil => h (String.toList_eq_nil_iff.mp hnil)
  unfold between
  dsimp only
  split
  · exact List.cons_ne_nil _ _
  split
  · exact List.append_ne_nil_of_left_ne_nil htext _
  · exact htext

theorem beside_ne_nil {a : List Char} (h : a ≠ []) (b : List Char) : beside a b ≠ [] := by
  unfold beside
  split
  · split
    · exact List.append_ne_nil_of_left_ne_nil h _
    · exact List.append_ne_nil_of_left_ne_nil h _
  · exact List.append_ne_nil_of_left_ne_nil h _

theorem operatorBefore_ne_nil {operator : String} (h : operator ≠ "") :
    operatorBefore operator ≠ [] := by
  have htext : operator.toList ≠ [] := fun hnil => h (String.toList_eq_nil_iff.mp hnil)
  unfold operatorBefore
  dsimp only
  split
  · exact List.append_ne_nil_of_left_ne_nil htext _
  · exact htext

/-- Whether the outermost part of an expression is written with some characters. -/
def Expr.IsWritten : Expr → Prop
  | .name word => word ≠ []
  | .literal (.number digits) => digits ≠ []
  | .literal (.pattern text) => text ≠ []
  | .before operator _ => operator ≠ ""
  | .behind _ operator => operator ≠ ""
  | .binary _ operator _ _ => operator.text ≠ ""
  | .shorthand _ => False
  | .hole => False
  | _ => True

theorem Expr.IsWritten.print_ne_nil {e : Expr} (h : e.IsWritten) (outer : Nat) :
    e.print [] outer ≠ [] := by
  cases e with
  | literal value =>
      cases value with
      | truth value => cases value <;> simp [Expr.print, Literal.print]
      | number _ | pattern _ => exact h
      | _ => simp [Expr.print, Literal.print]
  | name word => exact h
  | member optional _ _ _ =>
      rw [Expr.print]
      refine enclosed_ne_nil ?_ _
      cases optional <;> simp
  | call _ _ _ _ | choice _ _ _ _ =>
      rw [Expr.print]
      exact enclosed_ne_nil (by simp) _
  | before operator _ =>
      rw [Expr.print]
      exact enclosed_ne_nil (beside_ne_nil (operatorBefore_ne_nil h) _) _
  | behind _ operator =>
      rw [Expr.print]
      refine enclosed_ne_nil (List.append_ne_nil_of_right_ne_nil _ ?_) _
      exact fun hnil => h (String.toList_eq_nil_iff.mp hnil)
  | binary _ operator left right =>
      rw [Expr.print]
      refine enclosed_ne_nil (List.append_ne_nil_of_left_ne_nil ?_ _) _
      exact List.append_ne_nil_of_right_ne_nil _ (Operator.between_ne_nil h)
  | shorthand _ | hole => exact h.elim
  | _ => simp [Expr.print, enclosed]

theorem Expr.IsWritten.enclose {e : Expr} (h : e.IsWritten) : e.enclose.IsWritten := by
  unfold Expr.enclose
  split <;> exact h

def Statement.IsWritten : Statement → Prop
  | .evaluate e => e.IsWritten
  | .jump word _ => word ≠ ""
  | _ => True

theorem Statement.IsWritten.text_ne_nil {s : Statement} (h : s.IsWritten) :
    (s.print []).text ≠ [] := by
  have hcons : ∀ (a b : List Char) (c : Char), a ++ c :: b ≠ [] := fun a b c =>
    List.append_ne_nil_of_right_ne_nil a (List.cons_ne_nil c b)
  have hleft : ∀ (word : String) (a : List Char), word ≠ "" → word.toList ++ a ≠ [] :=
    fun word a hword =>
      List.append_ne_nil_of_left_ne_nil (fun hnil => hword (String.toList_eq_nil_iff.mp hnil)) a
  cases s with
  | evaluate e =>
      rw [Statement.print.eq_def]
      exact Expr.IsWritten.print_ne_nil h 0
  | jump word place =>
      cases place with
      | none =>
          rw [Statement.print.eq_def]
          exact fun hnil => h (String.toList_eq_nil_iff.mp hnil)
      | some _ =>
          rw [Statement.print.eq_def]
          exact hleft word _ h
  | empty | block _ =>
      rw [Statement.print.eq_def]
      exact List.cons_ne_nil _ _
  | declare _ _ | function _ _ _ _ | select _ _ | loopBefore _ _ =>
      rw [Statement.print.eq_def]
      exact hcons _ _ _
  | branch e _ =>
      cases e <;> rw [Statement.print.eq_def] <;> exact hcons _ _ _
  | label _ _ | loop _ _ | count _ _ _ _ | each _ _ _ _ =>
      rw [Statement.print.eq_def]
      exact List.append_ne_nil_of_left_ne_nil (hcons _ _ _) _
  | choose _ _ no =>
      cases no <;> rw [Statement.print.eq_def] <;>
        exact List.append_ne_nil_of_left_ne_nil (hcons _ _ _) _
  | answer e =>
      cases e with
      | none =>
          rw [Statement.print.eq_def]
          exact fun hnil => absurd (String.toList_eq_nil_iff.mp hnil) (by decide)
      | some _ =>
          rw [Statement.print.eq_def]
          exact hleft _ _ (by decide)
  | throw _ =>
      rw [Statement.print.eq_def]
      exact hleft _ _ (by decide)
  | attempt _ _ _ _ =>
      rw [Statement.print.eq_def]
      refine List.append_ne_nil_of_left_ne_nil (List.append_ne_nil_of_left_ne_nil ?_ _) _
      exact hleft _ _ (by decide)

/-! ### What is seen is written -/

theorem Operator.text_ne_of_ofKind? {kind : Kind} {o : Operator} (h : ofKind? kind = some o) :
    o.text ≠ "" := by
  have hall : ∀ o ∈ all, o.text ≠ "" := by decide
  have hwords : ∀ o ∈ words, o.text ≠ "" := by decide
  cases kind with
  | mark m =>
      change all.find? (fun o => o.text == m) = some o at h
      exact hall o (List.mem_of_find?_eq_some h)
  | keyword word =>
      change words.find? (fun o => o.text == word) = some o at h
      exact hwords o (List.mem_of_find?_eq_some h)
  | _ => cases h

theorem Sight.ofKind?_of_operation {t : Sight} {o : Operator}
    (h : t.continuation? = some (.operation o)) : Operator.ofKind? t.kind = some o := by
  unfold continuation? at h
  split at h
  case h_8 | h_9 | h_10 => split at h <;> cases h
  case h_11 =>
    obtain ⟨o', ho', heq⟩ := Option.map_eq_some_iff.mp h
    cases heq
    exact ho'
  all_goals cases h

theorem Sight.isSolid_of_behind {t : Sight} (h : t.continuation? = some .behind) :
    t.kind.isSolid = true := by
  unfold continuation? at h
  split at h
  case h_8 heq | h_9 heq => rw [heq]; rfl
  case h_10 => split at h <;> cases h
  case h_11 =>
    obtain ⟨o, -, heq⟩ := Option.map_eq_some_iff.mp h
    cases heq
  all_goals cases h

theorem Operator.ne_of_prefixOfKind? {kind : Kind} {operator : String}
    (h : prefixOfKind? kind = some operator) : operator ≠ "" := by
  have hall : ∀ operator ∈ prefixes, operator ≠ "" := by decide
  cases kind with
  | mark m =>
      change prefixes.find? (· == m) = some operator at h
      exact hall operator (List.mem_of_find?_eq_some h)
  | keyword word =>
      change prefixes.find? (· == word) = some operator at h
      exact hall operator (List.mem_of_find?_eq_some h)
  | _ => cases h

theorem Kind.isSolid_of_isName {kind : Kind} (h : kind.isName = true) : kind.isSolid = true := by
  cases kind <;> first | rfl | cases h

theorem Sight.isWritten_of_value? {t : Sight} {e : Expr} (ht : t.IsSound) (h : t.value? = .ok e) :
    e.IsWritten := by
  unfold value? at h
  split at h
  case h_1 =>
    split at h <;> cases h
    exact printNumber_ne_nil _
  case h_3 => split at h <;> cases h; trivial
  case h_2 heq | h_4 heq =>
    cases h
    exact ht (heq ▸ rfl)
  case h_10 => cases h
  all_goals
    cases h
    trivial

/-! ### What is read is written -/

/-- What routines find is written with some characters. -/
def written : Promise
  | _, .expr _ _, p => p.expr.IsWritten
  | _, .rest _ _ left, p => left.expr.IsWritten → p.expr.IsWritten
  | _, .operand _, p => p.expr.IsWritten
  | _, .group _, found => ∀ p ∈ found.1, p.expr.IsWritten
  | _, .statement, s => s.IsWritten
  | _, _, _ => True

namespace Reading

variable {low : Nat} {ending : Ending} {left next : Phrase} {t : Sight}

/-- What goes on behind something written is written, whatever stood before it. -/
theorem yields_rest (h : next.expr.IsWritten) :
    (rest low ending next).Yields written fun p => left.expr.IsWritten → p.expr.IsWritten :=
  fun _ hp _ => hp h

theorem yields_template {tag : Option Expr} :
    (template tag t).Yields written fun p => p.expr.IsWritten :=
  .after fun _ => .after fun _ => trivial

theorem yields_expr : (expr low ending).Yields written fun p => p.expr.IsWritten :=
  fun _ hp => hp

theorem yields_operation {o : Operator} (ho : o.text ≠ "") :
    (operation low ending left o).Yields written fun p =>
      left.expr.IsWritten → p.expr.IsWritten := by
  have hbinary : ∀ right, (Phrase.binary o left right).expr.IsWritten := fun _ => ho
  unfold operation
  split
  · exact id
  · exact .after fun _ => .after fun _ => .after fun right => yields_rest (hbinary right)

theorem yields_continued {continuation : Continuation} (ht : t.IsSound)
    (h : t.continuation? = some continuation) :
    (continued low ending left t continuation).Yields written fun p =>
      left.expr.IsWritten → p.expr.IsWritten := by
  cases continuation with
  | call optional => exact .after fun _ => .after fun _ => yields_rest trivial
  | index optional =>
      exact .after fun _ => .after fun _ => .after fun _ => yields_rest trivial
  | member optional => exact .after fun _ => .after fun _ => yields_rest trivial
  | choice =>
      unfold continued
      dsimp only
      split
      · exact id
      · exact .after fun _ => .after fun _ => .after fun _ => .after fun _ => yields_rest trivial
  | behind =>
      unfold continued
      dsimp only
      split
      · exact id
      · refine .after fun _ => yields_rest fun hnil => ?_
        exact ht (Sight.isSolid_of_behind h) (String.ofList_eq_empty_iff.mp hnil)
  | template => exact .bind yields_template fun e he => yields_rest he
  | operation operator =>
      exact yields_operation (Operator.text_ne_of_ofKind? (Sight.ofKind?_of_operation h))

/-! ### Operands -/

theorem yields_arrow {manner : Manner} {parameters : List Expr} :
    (arrow ending t manner parameters).Yields written fun p => p.expr.IsWritten := by
  unfold arrow
  refine .after fun _ => .after fun _ => ?_
  split <;> exact .after fun _ => trivial

theorem yields_function {isWaiting : Bool} :
    (function t isWaiting).Yields written fun p => p.expr.IsWritten :=
  .after fun _ => .after fun _ => .after fun _ => .after fun _ => .after fun _ => trivial

theorem yields_named (ht : t.text ≠ []) :
    (named ending t).Yields written fun p => p.expr.IsWritten := by
  unfold named
  refine .after fun _ => .after fun _ => ?_
  split
  · exact yields_arrow
  · exact ht

theorem yields_waiting (ht : t.text ≠ []) :
    (waiting ending t).Yields written fun p => p.expr.IsWritten := by
  unfold waiting
  refine .after fun beside => ?_
  split
  · exact .after fun _ => .after fun _ => yields_function
  · exact .after fun _ => .after fun _ => .after fun _ => yields_arrow
  · exact yields_named ht

theorem isWritten_foldl {first : Phrase} (h : first.expr.IsWritten) (more : List Phrase) :
    (more.foldl (Phrase.binary .comma) first).expr.IsWritten := by
  induction more generalizing first with
  | nil => exact h
  | cons next more ih =>
      have hcomma : Operator.comma.text ≠ "" := by decide
      have hfirst : (Phrase.binary .comma first next).expr.IsWritten := hcomma
      exact ih hfirst

theorem yields_grouped : (grouped ending t).Yields written fun p => p.expr.IsWritten := by
  have hitems : (call (.group ending.loose) done).Yields written fun found =>
      ∀ p ∈ found.1, p.expr.IsWritten := fun _ hfound => hfound
  unfold grouped
  refine .after fun _ => .bind hitems fun found hfound => .after fun _ => ?_
  split
  · split
    · trivial
    · exact yields_arrow
  · split
    · rename_i first more _ heq
      have hfirst : first ∈ found.1 := heq ▸ .head more
      exact Expr.IsWritten.enclose (isWritten_foldl (hfound first hfirst) more)
    · trivial
    · trivial

theorem yields_operandAt (ht : t.IsSound) :
    (operandAt ending t).Yields written fun p => p.expr.IsWritten := by
  unfold operandAt
  split
  · exact .after fun _ => .after fun _ => trivial
  · exact .after fun _ => .after fun _ => trivial
  · exact yields_grouped
  · exact yields_template
  · exact .after fun _ => yields_function
  · rename_i heq
    exact yields_waiting (ht (heq ▸ rfl))
  · split
    case h_1 operator hoperator =>
      have hwritten := Operator.ne_of_prefixOfKind? hoperator
      exact .after fun _ => .after fun _ => hwritten
    case h_2 =>
      split
      case isTrue hname => exact yields_named (ht (Kind.isSolid_of_isName hname))
      case isFalse =>
        split
        case h_1 e he => exact .after fun _ => Sight.isWritten_of_value? ht he
        case h_2 => trivial

theorem yields_item : (item ending).Yields written fun p => p.expr.IsWritten := by
  unfold item
  refine .after fun _ => ?_
  split
  · exact .after fun _ => .after fun _ => trivial
  · exact yields_expr

theorem yields_group {loose : Bool} :
    (ofRoutine (.group loose)).Yields written fun found => ∀ p ∈ found.1, p.expr.IsWritten := by
  unfold ofRoutine
  refine .after fun t => ?_
  split
  · refine .after fun _ => .after fun _ => ?_
    split
    · exact nofun
    · trivial
  · refine .bind yields_item fun item hitem => .after fun _ => ?_
    split
    · exact fun found hfound => List.forall_mem_cons.mpr ⟨hitem, hfound⟩
    · exact .after fun _ => List.forall_mem_cons.mpr ⟨hitem, nofun⟩

/-! ### Statements -/

theorem yields_sentence : sentence.Yields written Expr.IsWritten :=
  .bind yields_expr fun _ he => .after fun _ => he

theorem yields_jump (ht : t.text ≠ []) : (jump t).Yields written Statement.IsWritten := by
  have hword : String.ofList t.text ≠ "" := fun hnil => ht (String.ofList_eq_empty_iff.mp hnil)
  unfold jump
  refine .after fun _ => .after fun _ => ?_
  split
  · exact .after fun _ => hword
  · exact .after fun _ => .after fun _ => hword

theorem yields_loop : loop.Yields written Statement.IsWritten := by
  unfold loop
  refine .after fun _ => .after fun _ => .after fun _ => ?_
  split
  · exact .after fun _ => .after fun _ => .after fun _ => .after fun _ => trivial
  · exact .after fun _ => .after fun _ => .after fun _ => .after fun _ => trivial
  · exact .after fun _ => .after fun _ => .after fun _ => .after fun _ => trivial

theorem yields_attempt : attempt.Yields written Statement.IsWritten := by
  unfold attempt
  refine .after fun _ => .after fun _ => ?_
  split
  · refine .after fun _ => .after fun _ => .after fun _ => ?_
    split
    · exact .after fun _ => trivial
    · trivial
  · refine .after fun _ => ?_
    split
    · exact .after fun _ => trivial
    · exact .after fun _ => trivial

theorem yields_declaredFunction {isWaiting : Bool} :
    (declaredFunction isWaiting).Yields written Statement.IsWritten :=
  .after fun _ => .after fun _ => .after fun _ => .after fun _ => .after fun _ => trivial

theorem yields_statementAt (ht : t.IsSound) :
    (statementAt t).Yields written Statement.IsWritten := by
  unfold statementAt
  split
  case h_1 | h_2 => exact .after fun _ => trivial
  case h_3 | h_4 | h_5 => exact .after fun _ => .after fun _ => trivial
  case h_6 =>
    refine .after fun _ => .after fun _ => ?_
    split <;> exact .after fun _ => trivial
  case h_7 =>
    refine .after fun _ => .after fun _ => ?_
    split
    · exact .after fun _ => .after fun _ => trivial
    · exact .after fun _ => trivial
  case h_8 => exact .after fun _ => .after fun _ => yields_declaredFunction
  case h_9 => exact .after fun _ => yields_declaredFunction
  case h_10 =>
    refine .after fun _ => .after fun _ => .after fun _ => .after fun _ => ?_
    split
    · exact .after fun _ => trivial
    · trivial
  case h_11 => exact .after fun _ => .after fun _ => .after fun _ => trivial
  case h_12 =>
    exact .after fun _ => .after fun _ => .after fun _ => .after fun _ => .after fun _ => trivial
  case h_13 => exact .after fun _ => .after fun _ => yields_loop
  case h_14 => exact .after fun _ => .after fun _ => .after fun _ => .after fun _ => trivial
  case h_15 => exact .after fun _ => yields_attempt
  case h_16 heq | h_17 heq => exact yields_jump (ht (heq ▸ rfl))
  case h_18 =>
    have hword : "debugger" ≠ "" := by decide
    exact .after fun _ => .after fun _ => hword
  case h_19 =>
    refine .after fun _ => ?_
    split
    · exact .after fun _ => .after fun _ => .after fun _ => trivial
    · exact .bind yields_sentence fun _ he => he

end Reading

/-- Routines find what is written with some characters. -/
theorem Routine.yields_written {β : Type} (r : Routine β) :
    (Reading.ofRoutine r).Yields written (written r) := by
  cases r with
  | expr low ending => exact .bind (fun _ hp => hp) fun left hleft p hp => hp hleft
  | rest low ending left =>
      intro found hfound
      cases found with
      | none => exact id
      | some found =>
          obtain ⟨ht, hcontinuation⟩ := hfound found.1 found.2 rfl
          exact Reading.yields_continued ht hcontinuation
  | operand ending => exact fun t ht => Reading.yields_operandAt ht
  | group loose => exact Reading.yields_group
  | statement => exact fun t ht => Reading.yields_statementAt ht
  | _ => exact .of_forall (fun _ => trivial) _

/-- No statement that is read is printed as nothing. -/
theorem text_ne_nil_of_readStatements {ends : Bool} {fuel count : Nat} {c : Cursor}
    {statements : List Statement} (hc : c.token.toLexeme.IsSound)
    (h : readStatements ends fuel count c = .ok statements) :
    ∀ s ∈ statements, (s.print []).text ≠ [] := by
  induction count generalizing c statements with
  | zero => cases h
  | succ count ih =>
      rw [readStatements] at h
      split at h
      · cases h
        exact nofun
      · obtain ⟨⟨statement, c₂⟩, hfirst, hrest⟩ := of_bind_ok h
        obtain ⟨more, hmore, hlast⟩ := of_bind_ok hrest
        obtain ⟨hwritten, hc₂⟩ :=
          Routine.keeps_promise Routine.yields_written .statement (c := c.restart) hc hfirst
        have hmore' := ih hc₂ hmore
        cases hlast
        split
        · exact hmore'
        · exact List.forall_mem_cons.mpr ⟨Statement.IsWritten.text_ne_nil hwritten, hmore'⟩

theorem text_ne_nil_of_read {ends : Bool} {text : List Char} {statements : List Statement}
    (h : Statement.readWith ends text = .ok statements) :
    ∀ s ∈ statements, (s.print []).text ≠ [] := by
  obtain ⟨c, hc, hread⟩ := of_bind_ok h
  obtain ⟨t, ht, hstart⟩ := of_bind_ok hc
  obtain ⟨-, rfl⟩ := Token.whole_eq_ok_iff.mp ht
  cases hstart
  exact text_ne_nil_of_readStatements (Token.isSound_next text) hread

end Script
end AssetPress
