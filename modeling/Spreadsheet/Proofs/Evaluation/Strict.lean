import Spreadsheet.Proofs.Evaluation.Aliases

/-! Operators and strict functions swallow no error. One that fails somewhere below nothing but
operators, parentheses and calls of strict functions makes the whole formula fail, though maybe with
the error of another part. -/

namespace Spreadsheet

/-- The result is an error. -/
def IsFailure {α : Type} (r : Except ErrorCode α) : Prop := ∃ e, r = .error e

theorem IsFailure.bind {α β : Type} {r : Except ErrorCode α} (h : IsFailure r)
    (f : α → Except ErrorCode β) : IsFailure (r >>= f) := by
  obtain ⟨e, rfl⟩ := h
  exact ⟨e, rfl⟩

theorem isFailure_bind_of_forall {α β : Type} (r : Except ErrorCode α)
    {f : α → Except ErrorCode β} (h : ∀ a, IsFailure (f a)) : IsFailure (r >>= f) := by
  cases r with
  | ok a => exact h a
  | error e => exact ⟨e, rfl⟩

namespace Value

variable {v w : Value}

theorem isError_iff : v.isError = true ↔ ∃ e, v = .error e := by
  cases v <;> simp [isError, error?]

theorem isError_ofResult {α : Type} {make : α → Value} {r : Except ErrorCode α}
    (h : IsFailure r) : (ofResult make r).isError = true := by
  obtain ⟨e, rfl⟩ := h
  rfl

end Value

theorem Sign.isError_apply (g : Sign) {v : Value} (h : v.isError = true) :
    (g.apply v).isError = true := by
  obtain ⟨e, rfl⟩ := Value.isError_iff.mp h
  rfl

theorem BinaryOp.isError_apply_left (op : BinaryOp) {v : Value} (h : v.isError = true)
    (w : Value) : (op.apply v w).isError = true := by
  obtain ⟨e, rfl⟩ := Value.isError_iff.mp h
  have hcompare : IsFailure ((Value.error e).compare w) :=
    isFailure_bind_of_forall w.scalar fun w => ⟨e, rfl⟩
  unfold apply
  split
  · rfl
  · split
    · rfl
    · exact Value.isError_ofResult hcompare

theorem BinaryOp.isError_apply_right (op : BinaryOp) (v : Value) {w : Value}
    (h : w.isError = true) : (op.apply v w).isError = true := by
  obtain ⟨e, rfl⟩ := Value.isError_iff.mp h
  have htext : IsFailure (do return (← v.toText) ++ (← (Value.error e).toText)) :=
    isFailure_bind_of_forall _ fun _ => ⟨e, rfl⟩
  have hcompare : IsFailure (v.compare (.error e)) :=
    isFailure_bind_of_forall _ fun v => by cases v <;> exact ⟨_, rfl⟩
  unfold apply
  split
  · cases v.toNumber <;> rfl
  · split
    · exact Value.isError_ofResult htext
    · exact Value.isError_ofResult hcompare

/-! ## Operands that fail -/

/-- However the operand is read, it is an error. -/
def Operand.Fails (s : Source) : Operand → Prop
  | value v => v.isError = true
  | reference r => (s.valueAt r).isError = true ∧
      ∀ vs, s.valuesAt r = .ok vs → ∃ e, .error e ∈ vs
  | missing => False

namespace Argument

theorem isFailure_numbersOf {e : ErrorCode} {vs : List Value} (h : .error e ∈ vs) :
    IsFailure (numbersOf vs) := by
  induction vs with
  | nil => cases h
  | cons v vs ih =>
    obtain rfl | hrest := List.mem_cons.mp h
    · exact ⟨e, rfl⟩
    · cases v with
      | number x =>
        unfold numbersOf
        split
        · exact (ih hrest).bind _
        · exact ⟨_, rfl⟩
      | date m => exact (ih hrest).bind _
      | error e' => exact ⟨e', rfl⟩
      | empty | text _ | logical _ | array _ => exact ih hrest

theorem isFailure_logicalsOf {e : ErrorCode} {vs : List Value} (h : .error e ∈ vs) :
    IsFailure (logicalsOf vs) := by
  induction vs with
  | nil => cases h
  | cons v vs ih =>
    obtain rfl | hrest := List.mem_cons.mp h
    · exact ⟨e, rfl⟩
    · cases v with
      | number x => exact (ih hrest).bind _
      | logical b => exact (ih hrest).bind _
      | error e' => exact ⟨e', rfl⟩
      | empty | text _ | date _ | array _ => exact ih hrest

theorem error?_ofResult {α : Type} {make : α → Argument} {r : Except ErrorCode α}
    (h : IsFailure r) : ∃ e, (ofResult make r).error? = some e := by
  obtain ⟨e, rfl⟩ := h
  exact ⟨e, rfl⟩

end Argument

namespace Operand.Fails

variable {s : Source} {o : Operand} (h : o.Fails s)
include h

theorem toValue : (o.toValue s).isError = true := by
  cases o with
  | value v => exact h
  | reference r => exact h.1
  | missing => cases h

theorem argument {p : Parameter} (hkind : p.kind ≠ .reference) :
    ∃ e, (Argument.ofOperand s p o).error? = some e := by
  cases o with
  | missing => cases h
  | value v =>
    obtain ⟨e, rfl⟩ := Value.isError_iff.mp h
    exact ⟨e, congrArg Argument.error? (Argument.read_error s p.kind e)⟩
  | reference r =>
    unfold Argument.ofOperand
    dsimp only
    split
    · by_cases hvalue : p.kind.asksForValue = true
      · obtain ⟨e, he⟩ := Value.isError_iff.mp h.1
        have heq : (reference r).toValue s = (value (.error e)).toValue s := he
        rw [Argument.read_congr hvalue heq, Argument.read_error]
        exact ⟨e, rfl⟩
      · cases hk : p.kind <;> rw [hk] at hvalue hkind <;> try contradiction
        all_goals
          unfold Argument.read
          dsimp only
          split
          · next vs hvs =>
            obtain ⟨e, he⟩ := h.2 vs hvs
            first
            | exact Argument.error?_ofResult (Argument.isFailure_numbersOf he)
            | exact Argument.error?_ofResult (Argument.isFailure_logicalsOf he)
          · next e he => exact ⟨e, rfl⟩
    · exact ⟨_, rfl⟩

end Operand.Fails

/-! ## Functions -/

/-- No error among the operands reaches the body: all are read, and the function takes no errors. -/
structure Function.IsStrict (f : Function) : Prop where
  refuses : f.acceptsErrors = false
  reads : ∀ p ∈ f.parameters, p.kind ≠ .reference

/-- A failing operand makes the call fail, be it that there are too few or too many. -/
theorem Function.IsStrict.call {f : Function} (hf : f.IsStrict) {s : Source} {os : List Operand}
    {o : Operand} (ho : o ∈ os) (h : o.Fails s) (a : Ambient) :
    (f.call s a os).isError = true := by
  unfold Function.call
  split
  · rfl
  · next ps hps =>
    obtain ⟨i, hi, rfl⟩ := List.mem_iff_getElem.mp ho
    have hlength := Parameter.length_forArguments? hps
    have hip : i < ps.length := hlength ▸ hi
    have hkind := hf.reads _ (Parameter.mem_of_forArguments? hps (List.getElem_mem hip))
    obtain ⟨e, he⟩ := h.argument hkind
    have hmem : Argument.ofOperand s ps[i] os[i] ∈
        List.zipWith (Argument.ofOperand s) ps os := by
      refine List.mem_iff_getElem.mpr ⟨i, by simp [hlength, hi], ?_⟩
      rw [List.getElem_zipWith]
    obtain ⟨e', he'⟩ : ∃ e', Arguments.firstError? (List.zipWith (Argument.ofOperand s) ps os) =
        some e' :=
      Option.isSome_iff_exists.mp (List.findSome?_isSome_iff.mpr ⟨_, hmem, by simp [he]⟩)
    simp only [hf.refuses, Bool.false_eq_true, if_false, he']
    rfl

/-! ## Expressions -/

/-- A leaf of the expression fails: an error is written there, a name that is not defined, a
reference part of which is gone, or one to a cell with an error. Above it are nothing but operators,
parentheses and calls of functions with the given names; the rest of the expression may be
anything. -/
inductive Expr.HasFailingLeaf (s : Source) (names : List String) : Expr → Prop
  | literal (e : ErrorCode) : HasFailingLeaf s names (.literal (.error e))
  | name {n : String} (h : s.definition? n = none) : HasFailingLeaf s names (.name n)
  | lost {r : Reference} (h : r.isValid = false) : HasFailingLeaf s names (.reference r)
  | cell {row column : Mark} (h : (s.value ⟨row.index, column.index⟩).isError = true) :
      HasFailingLeaf s names (.reference (.ofPlace (.cell row column true)))
  | sign (g : Sign) {e : Expr} (h : HasFailingLeaf s names e) : HasFailingLeaf s names (.sign g e)
  | left (op : BinaryOp) {e : Expr} (h : HasFailingLeaf s names e) (right : Expr) :
      HasFailingLeaf s names (.binary op e right)
  | right (op : BinaryOp) (left : Expr) {e : Expr} (h : HasFailingLeaf s names e) :
      HasFailingLeaf s names (.binary op left e)
  | paren {e : Expr} (h : HasFailingLeaf s names e) : HasFailingLeaf s names (.paren e)
  | call {f : String} {args : List Expr} {e : Expr} (hf : Text.upper f ∈ names) (he : e ∈ args)
      (h : HasFailingLeaf s names e) : HasFailingLeaf s names (.call f args)

namespace Source

/-- The list of the values in a cell does not leave out an error. -/
def ListsErrors (s : Source) : Prop :=
  ∀ p, (s.value p).isError = true → s.value p ∈ s.values (.cell p)

variable {s : Source}

theorem fails_of_not_isValid {r : Reference} (h : r.isValid = false) :
    (Operand.reference r).Fails s := by
  have hname (n : String) : r ≠ .ofName n := fun hr => by
    rw [hr] at h
    cases h
  refine ⟨by rw [s.valueAt_of_not_isValid h]; rfl, fun vs hvs => ?_⟩
  rw [valuesAt_of_ne_name hname, h] at hvs
  cases hvs

theorem fails_of_cell (hs : s.ListsErrors) {row column : Mark}
    (h : (s.value ⟨row.index, column.index⟩).isError = true) :
    (Operand.reference (.ofPlace (.cell row column true))).Fails s := by
  refine ⟨by rw [valueAt_cell, h], fun vs hvs => ?_⟩
  obtain ⟨e, he⟩ := Value.isError_iff.mp h
  rw [valuesAt_of_ne_name fun n hn => by cases hn] at hvs
  cases hvs
  exact ⟨e, List.mem_flatMap.mpr ⟨_, List.mem_singleton_self _, he ▸ hs _ h⟩⟩

end Source

namespace Expr

theorem exists_operand_mem_operands (s : Source) (a : Ambient) {e : Expr} {args : List Expr}
    (h : e ∈ args) (i : Nat) : ∃ j, e.operand s (a.branch j) ∈ operands s a i args := by
  induction args generalizing i with
  | nil => cases h
  | cons e' rest ih =>
    rw [operands]
    obtain rfl | h := List.mem_cons.mp h
    · exact ⟨i, List.mem_cons_self⟩
    · obtain ⟨j, hj⟩ := ih h (i + 1)
      exact ⟨j, List.mem_cons_of_mem _ hj⟩

namespace HasFailingLeaf

variable {s : Source} {names : List String} {e : Expr}

/-- From the leaf up: what fails makes what it is part of fail. -/
theorem operand (hs : s.ListsErrors)
    (hnames : ∀ n f, Text.upper n ∈ names → s.function? n = some f → f.IsStrict)
    (h : e.HasFailingLeaf s names) (a : Ambient) : (e.operand s a).Fails s := by
  induction h generalizing a with
  | literal e => rfl
  | name h =>
    unfold Expr.operand
    rw [h]
    rfl
  | lost h => exact Source.fails_of_not_isValid h
  | cell h => exact Source.fails_of_cell hs h
  | sign g _ ih =>
    unfold Expr.operand
    exact g.isError_apply (ih a).toValue
  | left op _ right ih =>
    unfold Expr.operand
    exact op.isError_apply_left (ih _).toValue _
  | right op left _ ih =>
    unfold Expr.operand
    exact op.isError_apply_right _ (ih _).toValue
  | paren _ ih =>
    unfold Expr.operand
    exact ih a
  | call hf he _ ih =>
    unfold Expr.operand
    split
    · next g hg =>
      obtain ⟨j, hj⟩ := exists_operand_mem_operands s a he 0
      exact (hnames _ g hf hg).call hj (ih _) a
    · rfl

theorem evaluate (hs : s.ListsErrors)
    (hnames : ∀ n f, Text.upper n ∈ names → s.function? n = some f → f.IsStrict)
    (h : e.HasFailingLeaf s names) : (e.evaluate s).isError = true :=
  (h.operand hs hnames s.ambient).toValue

end HasFailingLeaf

end Expr

end Spreadsheet
