import Spreadsheet.Proofs.Builtin.Table
import Spreadsheet.Proofs.Evaluation.Strict
import Spreadsheet.Proofs.Store.Cells
import Spreadsheet.Sheet.Basic

/-! On a sheet with the built-in functions an error is seen through all that takes no errors: every
operator, and every built-in function but those that choose between values, ask what a value is or
count, and those that take a reference as it is. -/

namespace Spreadsheet

/-- The functions that calculate with values. -/
def Builtin.strictNames : List String :=
  ["SUM", "AVERAGE", "MIN", "MAX", "AND", "OR", "NOT", "ABS", "ROUND", "SQRT", "POWER", "RANDINT",
    "FIXED", "MONEY", "LEN", "UPPER", "LOWER", "CONCAT", "DATE"]

theorem Builtin.isStrict_of_mem_strictNames {n : String} {f : Function}
    (hn : Text.upper n ∈ strictNames) (hf : registry.find? n = some f) : f.IsStrict := by
  have hall : ∀ b ∈ all, Text.upper b.name ∈ strictNames → b.function.acceptsErrors = false ∧
      ∀ p ∈ b.function.parameters, p.kind ≠ .reference := by decide +kernel
  have haliases : ∀ a ∈ aliases, Text.upper a.2 ∈ strictNames := by decide +kernel
  have hstrict : ∀ b ∈ all, b.IsNamed (Text.upper n) → b.function.IsStrict := by
    rintro b hb (hname | ⟨a, ha, -, hname⟩)
    · exact ⟨(hall b hb (hname ▸ hn)).1, (hall b hb (hname ▸ hn)).2⟩
    · have := hname ▸ haliases a ha
      exact ⟨(hall b hb this).1, (hall b hb this).2⟩
  obtain ⟨b, hb, rfl, hname⟩ := holds_registry _ f hf
  exact hstrict b hb hname

namespace Sheet

variable {s : Sheet} {ambient : Ambient} {e : Expr}

theorem listsErrors_source (s : Sheet) (ambient : Ambient) : (s.source ambient).ListsErrors := by
  intro p h
  change (s.value p).isError = true at h
  change s.value p ∈ s.valuesIn (.cell p)
  unfold value at h ⊢
  cases hc : s.cell? p with
  | none =>
    rw [hc] at h
    cases h
  | some c =>
    rw [hc] at h
    obtain ⟨e, he⟩ := Value.isError_iff.mp h
    change c.value = .error e at he
    have hcontains : (Region.cell p).contains p = true := by
      simp [Region.contains, Region.cell, Span.contains, Span.single]
    refine List.mem_filter.mpr ⟨List.mem_map.mpr ⟨(p, c), ?_, rfl⟩, ?_⟩
    · exact Matrix.mem_cellsIn.mpr ⟨hc, hcontains⟩
    · change (!c.value.isEmpty) = true
      rw [he]
      rfl

/-- Where a leaf fails and nothing but operators, parentheses and functions that calculate with
values stand above it, the value of the whole is an error, however deep the leaf is and whatever
the rest is. -/
theorem error_of_failing_leaf (hfunctions : s.functions = Builtin.registry)
    (h : e.HasFailingLeaf (s.source ambient) Builtin.strictNames) :
    (e.evaluate (s.source ambient)).isError = true := by
  refine h.evaluate (s.listsErrors_source ambient) fun n f hn hf => ?_
  change s.functions.find? n = some f at hf
  rw [hfunctions] at hf
  exact Builtin.isStrict_of_mem_strictNames hn hf

/-- A name that is not defined, too many arguments and all, under a sum, a text and a choice that
does not see it. -/
theorem error_of_failing_leaf_in_call :
    let s := Sheet.empty "Sheet1" default Builtin.registry ⟨.midnight 0, 0⟩
    let e : Expr := .binary .concat (.call "If" [.literal (.logical true), .missing])
      (.paren (.sign .minus (.call "sum" [.array [[.text "a"]],
        .call "not" [.missing, .name "rate", .missing]])))
    s.functions = Builtin.registry ∧
      e.HasFailingLeaf (s.source s.ambient) Builtin.strictNames ∧
      (e.evaluate (s.source s.ambient)).isError = true := by
  intro s e
  have hname : s.definition? "rate" = none := by decide +kernel
  have hleaf : e.HasFailingLeaf (s.source s.ambient) Builtin.strictNames := by
    refine .right _ _ (.paren (.sign _ (.call (by decide +kernel) (.tail _ (.head _)) ?_)))
    exact .call (by decide +kernel) (.tail _ (.head _)) (.name hname)
  exact ⟨rfl, hleaf, error_of_failing_leaf rfl hleaf⟩

end Sheet

end Spreadsheet
