import Spreadsheet.Evaluation.Basic
import Spreadsheet.Proofs.Formula.Settling

/-! A reference part of which is gone has the value of the error that is written for it. A function
is not given such a reference but its error, so the two are nowhere told apart. -/

namespace Spreadsheet

/-- The operand that stands for another in a settled formula: the same, or the error for a
reference part of which is gone. -/
inductive Operand.SettlesTo : Operand → Operand → Prop
  | same {o : Operand} : SettlesTo o o
  | lost {r : Reference} (h : r.isValid = false) :
      SettlesTo (.reference r) (.value (.error .badReference))

theorem Source.valueAt_of_not_isValid (s : Source) {r : Reference} (h : r.isValid = false) :
    s.valueAt r = .error .badReference := by
  rw [valueAt, read.eq_def]
  exact if_neg (by simp [h])

theorem Source.valueAt_cell (s : Source) (r c : Mark) :
    s.valueAt (.ofPlace (.cell r c true)) = s.value ⟨r.index, c.index⟩ := by
  rw [valueAt, read.eq_def]
  rfl

/-- An error is an error argument, whatever a parameter asks for. -/
theorem Argument.read_error (s : Source) (kind : Parameter.Kind) (e : ErrorCode) :
    read s kind (.value (.error e)) = .error e := by cases kind <;> rfl

namespace Operand.SettlesTo

variable {s : Source} {o o' : Operand}

theorem toValue (h : o.SettlesTo o') : o'.toValue s = o.toValue s := by
  cases h with
  | same => rfl
  | lost h => exact (s.valueAt_of_not_isValid h).symm

theorem argument (h : o.SettlesTo o') (p : Parameter) :
    Argument.ofOperand s p o' = Argument.ofOperand s p o := by
  cases h with
  | same => rfl
  | lost h =>
    change Argument.read s p.kind (.value (.error .badReference)) = _
    rw [Argument.read_error, Argument.ofOperand, h]
    rfl

theorem arguments {os os' : List Operand} (h : List.Forall₂ SettlesTo os os')
    (ps : List Parameter) :
    List.zipWith (Argument.ofOperand s) ps os' = List.zipWith (Argument.ofOperand s) ps os := by
  induction h generalizing ps with
  | nil => rfl
  | cons ho _ ih =>
    cases ps with
    | nil => rfl
    | cons p ps => rw [List.zipWith_cons_cons, List.zipWith_cons_cons, ho.argument p, ih ps]

theorem call {os os' : List Operand} (h : List.Forall₂ SettlesTo os os') (f : Function)
    (a : Ambient) : f.call s a os' = f.call s a os := by
  simp only [Function.call, h.length_eq, arguments h]

end Operand.SettlesTo

namespace Expr

variable (s : Source)

mutual
/-- Over the tree: every part settles to its settled part. -/
theorem operand_settled : ∀ (e : Expr) (a : Ambient),
    (e.operand s a).SettlesTo (e.settled.operand s a)
  | reference r, a => by
    cases h : r.isValid with
    | true =>
      rw [settled_reference h]
      exact .same
    | false =>
      rw [settled_invalid h]
      exact .lost h
  | sign g e, a => by
    rw [settled, operand, operand, (operand_settled e a).toValue]
    exact .same
  | binary op left right, a => by
    rw [settled, operand, operand, (operand_settled left (a.branch 0)).toValue,
      (operand_settled right (a.branch 1)).toValue]
    exact .same
  | paren e, a => by
    rw [settled, operand, operand]
    exact operand_settled e a
  | call f args, a => by
    rw [settled, operand, operand]
    cases s.function? f with
    | none => exact .same
    | some g =>
      dsimp only
      rw [Operand.SettlesTo.call (operands_settled args a 0) g a]
      exact .same
  | literal _, _ | name _, _ | array _, _ | missing, _ => .same
theorem operands_settled : ∀ (es : List Expr) (a : Ambient) (i : Nat),
    List.Forall₂ Operand.SettlesTo (operands s a i es) (operands s a i (settledAll es))
  | [], a, i => by
    rw [settledAll, operands]
    exact .nil
  | e :: rest, a, i => by
    rw [settledAll, operands, operands]
    exact .cons (operand_settled e (a.branch i)) (operands_settled rest a (i + 1))
end

/-- Settling a formula does not change its value. -/
theorem evaluate_settled (e : Expr) : e.settled.evaluate s = e.evaluate s :=
  (operand_settled s e s.ambient).toValue

end Expr

end Spreadsheet
