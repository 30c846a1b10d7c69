import Spreadsheet.Proofs.Builtin.Table
import Spreadsheet.Proofs.Evaluation.Finite

/-! The built-in functions make no number that is not finite. Most check the number they make. Of
the others, the choices pass on a value they were given, COUNT and the numbers of lines are small,
chance is a quotient of small numbers, and the dates exist. -/

namespace Spreadsheet

/-- Each of the functions makes finite values from finite arguments. -/
def Registry.KeepsFinite (r : Registry) : Prop :=
  ∀ (key : String) (f : Function), r.functions[key]? = some f → f.KeepsFinite

namespace Arguments

variable {args : Arguments} (h : ∀ x ∈ args, x.IsFinite)
include h

theorem isFinite_value (i : Nat) : (args.value i).IsFinite := by
  unfold value
  split
  · next hx => exact h _ (List.mem_of_getElem? hx)
  · next hx => exact .number (h _ (List.mem_of_getElem? hx))
  · exact .text _
  · exact .logical _
  · next hx => exact .array (h _ (List.mem_of_getElem? hx))
  · exact .error _
  · exact .empty

theorem yields_reference (i : Nat) : Yields Reference.Addressable (args.reference i) := by
  unfold reference
  split
  · next hx => exact yields_ok (h _ (List.mem_of_getElem? hx))
  · exact yields_error _
  · exact yields_error _

end Arguments

namespace Builtin

/-! ## Results that are checked or hold no number -/

theorem isFinite_numberResult (r : Except ErrorCode Float) : (numberResult r).IsFinite := by
  cases r with
  | ok x => exact Value.isFinite_ofNumber x
  | error e => exact .error e

theorem isFinite_textResult (r : Except ErrorCode String) : (textResult r).IsFinite := by
  cases r with
  | ok s => exact .text s
  | error e => exact .error e

theorem isFinite_logicalResult (r : Except ErrorCode Bool) : (logicalResult r).IsFinite := by
  cases r with
  | ok b => exact .logical b
  | error e => exact .error e

/-! ## Results that are not checked -/

variable {args : Arguments}

theorem isFinite_choose (h : ∀ x ∈ args, x.IsFinite) : (choose args).IsFinite := by
  unfold choose
  split
  · exact Arguments.isFinite_value h 1
  · split
    · exact .logical _
    · exact .logical _
    · exact Arguments.isFinite_value h 2
  · exact .error _

theorem isFinite_ifError (h : ∀ x ∈ args, x.IsFinite) : (ifError args).IsFinite := by
  unfold ifError
  split
  · exact Arguments.isFinite_value h 1
  · exact Arguments.isFinite_value h 0

theorem isFinite_isError (args : Arguments) : (isError args).IsFinite := by
  unfold isError
  split <;> exact .logical _

theorem isFinite_isNumber (args : Arguments) : (isNumber args).IsFinite := by
  unfold isNumber
  split <;> exact .logical _

theorem isFinite_count (args : Arguments) : (count args).IsFinite :=
  .number (Number.isWithin_ofNat
    (Nat.lt_of_le_pred (by decide) (Nat.min_le_right _ _))).isFinite

theorem isFinite_rand (a : Ambient) (args : Arguments) : (rand a args).IsFinite := by
  have hdraw : a.draw % Nat.pow 2 53 < 2 ^ 64 :=
    (Nat.mod_lt _ (by decide)).trans (by decide)
  have hdivisor : Number.unpacked (Float.ofNat (Nat.pow 2 53)) =
      .finite .positive (2 ^ 52) 1 (by decide) := rfl
  have hquotient : Number.IsWithin 12
      (Float.ofNat (a.draw % Nat.pow 2 53) / Float.ofNat (Nat.pow 2 53)) :=
    Number.isWithin_div (Number.isWithin_ofNat hdraw) hdivisor (by decide) (by decide) (by decide)
  exact .number hquotient.isFinite

theorem isDay_of_dayOfMonth? {month day n : Int} (h : dayOfMonth? month day = some n) :
    Calendar.isDay n = true := by
  unfold dayOfMonth? at h
  dsimp only at h
  split at h
  · next hday =>
    cases h
    exact hday
  · cases h

theorem isFinite_date (args : Arguments) : (date args).IsFinite := by
  have hany {α : Type} (r : Except ErrorCode α) : Yields (fun _ => True) r := fun _ _ => trivial
  refine Value.isFinite_ofResult (P := Value.IsFinite) ?_ fun _ h => h
  refine (hany _).bind fun year _ => (hany _).bind fun month _ => (hany _).bind fun day _ => ?_
  dsimp only
  split
  · exact yields_error _
  · split
    · exact yields_error _
    · split
      · next hday => exact yields_ok (.date (Calendar.exists_midnight (isDay_of_dayOfMonth? hday)))
      · exact yields_error _

theorem isFinite_lineNumber (axis : Axis) (h : ∀ x ∈ args, x.IsFinite) :
    (lineNumber axis args).IsFinite := by
  refine Value.isFinite_ofResult (P := Value.IsFinite) ?_ fun _ h => h
  refine (Arguments.yields_reference h 0).bind fun r hr => ?_
  split
  · next g hg =>
    have hfirst : (g.span axis).first + 1 < 2 ^ 64 :=
      Nat.lt_of_le_of_lt (Nat.succ_le_succ (hr.region? hg axis)) (by decide)
    exact yields_ok (.number (Number.isWithin_ofNat hfirst).isFinite)
  · exact yields_error _

/-! ## The table -/

theorem keepsFinite_strict (parameters : List Parameter) {f : Arguments → Value}
    (h : ∀ args : Arguments, (∀ x ∈ args, x.IsFinite) → (f args).IsFinite) :
    (strict parameters f).KeepsFinite := fun _ args _ => h args

theorem keepsFinite_lenient (parameters : List Parameter) {f : Arguments → Value}
    (h : ∀ args : Arguments, (∀ x ∈ args, x.IsFinite) → (f args).IsFinite) :
    (lenient parameters f).KeepsFinite := fun _ args _ => h args

theorem keepsFinite_volatile (parameters : List Parameter) {f : Ambient → Arguments → Value}
    (h : ∀ (a : Ambient) (args : Arguments), a.now.Exists → (f a args).IsFinite) :
    (volatile parameters f).KeepsFinite := fun a args ha _ => h a args ha

/-- One line for each line of the table. -/
theorem keepsFinite_all : ∀ b ∈ all, b.function.KeepsFinite := by
  have hnumber {ps : List Parameter} {f : Arguments → Value}
      {g : Arguments → Except ErrorCode Float} (h : ∀ args, f args = numberResult (g args)) :
      (strict ps f).KeepsFinite :=
    keepsFinite_strict ps fun args _ => h args ▸ isFinite_numberResult _
  have htext {ps : List Parameter} {f : Arguments → Value}
      {g : Arguments → Except ErrorCode String} (h : ∀ args, f args = textResult (g args)) :
      (strict ps f).KeepsFinite :=
    keepsFinite_strict ps fun args _ => h args ▸ isFinite_textResult _
  have hlogical {ps : List Parameter} {f : Arguments → Value}
      {g : Arguments → Except ErrorCode Bool} (h : ∀ args, f args = logicalResult (g args)) :
      (strict ps f).KeepsFinite :=
    keepsFinite_strict ps fun args _ => h args ▸ isFinite_logicalResult _
  simp only [all, List.forall_mem_cons, List.not_mem_nil, false_imp_iff, implies_true, and_true]
  exact ⟨
    hnumber fun _ => rfl, -- SUM
    hnumber fun _ => rfl, -- AVERAGE
    keepsFinite_lenient _ fun args _ => isFinite_count args,
    hnumber fun _ => rfl, -- MIN
    hnumber fun _ => rfl, -- MAX
    keepsFinite_lenient _ fun _ => isFinite_choose,
    hlogical fun _ => rfl, -- AND
    hlogical fun _ => rfl, -- OR
    hlogical fun _ => rfl, -- NOT
    keepsFinite_lenient _ fun _ => isFinite_ifError,
    keepsFinite_lenient _ fun args _ => isFinite_isError args,
    keepsFinite_lenient _ fun args _ => isFinite_isNumber args,
    hnumber fun _ => rfl, -- ABS
    hnumber fun _ => rfl, -- ROUND
    hnumber fun _ => rfl, -- SQRT
    hnumber fun _ => rfl, -- POWER
    keepsFinite_volatile _ fun a args _ => isFinite_rand a args,
    keepsFinite_volatile _ fun _ _ _ => isFinite_numberResult _, -- RANDINT
    htext fun _ => rfl, -- FIXED
    htext fun _ => rfl, -- MONEY
    hnumber fun _ => rfl, -- LEN
    htext fun _ => rfl, -- UPPER
    htext fun _ => rfl, -- LOWER
    htext fun _ => rfl, -- CONCAT
    keepsFinite_volatile _ fun _ _ ha => .date (Calendar.exists_midnight ha.day), -- TODAY
    keepsFinite_volatile _ fun _ _ ha => .date ha, -- NOW
    keepsFinite_strict _ fun args _ => isFinite_date args,
    keepsFinite_strict _ fun _ => isFinite_lineNumber .row,
    keepsFinite_strict _ fun _ => isFinite_lineNumber .column⟩

theorem keepsFinite_registry : registry.KeepsFinite := by
  intro key f hf
  obtain ⟨b, hb, rfl, -⟩ := holds_registry key f hf
  exact keepsFinite_all b hb

end Builtin

end Spreadsheet
