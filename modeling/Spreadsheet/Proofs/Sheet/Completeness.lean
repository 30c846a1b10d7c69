import Spreadsheet.Proofs.Sheet.Agreement

/-! Recalculation is complete. As long as formulas and names refer to no whole lines, and the
functions do not change with time or by chance, formulas see nothing but values, so in a sheet in
which nothing waits every formula has the value that it would have if it were computed now. -/

namespace Spreadsheet

/-- The reference covers no whole lines. -/
def Reference.IsBounded (r : Reference) : Prop := ∀ g ∈ r.regions, g.isBounded = true

instance : DecidablePred Reference.IsBounded := fun r =>
  inferInstanceAs (Decidable (∀ g ∈ r.regions, g.isBounded = true))

namespace Sheet

/-- No formula and no name refers to whole lines. -/
structure IsBounded (s : Sheet) : Prop where
  formulas : ∀ c ∈ s.formulas, ∀ r ∈ c.2.references, r.IsBounded
  names : ∀ d ∈ s.names.toList, ∀ r ∈ referencesOf d.2, r.IsBounded

variable {s t : Sheet}

theorem IsBounded.follows (h : s.IsBounded) {p : Position} {f : Formula}
    (hf : s.formula? p = some f) {r : Reference} (hr : Follows s.definition? f.references r) : r.IsBounded := by
  cases hr with
  | direct hr => exact h.formulas (p, f) (mem_formulas.mpr hf) r hr
  | @name n _ _ hd =>
    refine h.names (Text.upperAscii n, .reference r) ?_ r (List.mem_singleton_self r)
    exact Std.ExtTreeMap.mem_toList_iff_getElem?_eq_some.mpr hd

theorem IsBounded.determines (h : s.IsBounded) (hf : s.functions.IsSteady) {p : Position}
    {f : Formula} (hp : s.formula? p = some f) : s.Determines f :=
  determines_of_isBounded (fun _ hr => h.follows hp hr) (hf.steady _)

/-- The values of formulas are all that a calculation can change. -/
theorem Revalued.eq_of_value (h : s.Revalued t) (hv : ∀ p, t.value p = s.value p) : t = s := by
  have hcells : t.cells = s.cells := Matrix.ext_get? h.axis.symm h.vacant.symm fun p =>
    h.sameInput.cell?_eq (hv p)
  rw [h.rest, hcells]
  rfl

/-- Computing every formula of a sheet in which nothing waits changes nothing, if formulas see
nothing but values. -/
theorem Sound.calculateAll_eq (hs : s.Sound) (hd : s.dirty = ∅)
    (hdet : ∀ p f, s.formula? p = some f → s.Determines f) :
    ∃ n, s.calculateAll = ⟨s, .ok n⟩ := by
  have hstaged : s.Staged s.markFormulas fun _ => False := staged_markFormulas rfl rfl rfl
  have hmarked : s.markFormulas.Sound := hstaged.sound hs hs.linked fun _ => False.elim
  rcases calculate_spec hmarked.linked hmarked.dirty hmarked.proper.onGrid with
    ⟨⟨v, -, hv⟩, -⟩ | ⟨hno, t, n, he, h, -⟩
  · exact absurd hv (hs.isAcyclic hd v)
  · have hclear : ({ s.markFormulas with dirty := ∅ } : Sheet) = s := by
      rw [← hd]
      rfl
    have hrevalued : s.Revalued t := hclear ▸ h.revalued
    have heq : t = s := hrevalued.eq_of_value fun p =>
      hrevalued.sameInput.value_eq hs (h.sound hmarked hno) hd h.dirty fun q f _ => hdet q f
    exact ⟨n, heq ▸ he⟩

/-- Whatever was done to a sheet, once nothing waits every formula has the value that it has on the
sheet as it is, every constant is shown as it is, and computing everything again changes
nothing. -/
theorem recalculation_complete (hs : s.Reachable) (hd : s.dirty = ∅) (hb : s.IsBounded)
    (hf : s.functions.IsSteady) :
    (∀ p f, s.contents? p = some (.formula f) → s.value p = s.evaluate f) ∧
      (∀ p v, s.contents? p = some (.value v) → s.value p = v) ∧
      ∃ n, s.calculateAll = ⟨s, .ok n⟩ := by
  have hsound := hs.sound
  refine ⟨fun p f hp => ?_, fun p v hp => ?_, ?_⟩
  · have hformula : s.formula? p = some f := by
      rw [formula?_eq, hp]
      rfl
    have hdet : s.Determines f := hb.determines hf hformula
    exact (hsound.isCurrent hd p f hformula hdet).trans (hdet s.cells s.cells _ _ fun _ => rfl)
  · have hnone : s.formula? p = none := by
      rw [formula?_eq, hp]
      rfl
    rw [hsound.proper.value_eq hnone, hp]
  · exact hsound.calculateAll_eq hd fun p f hp => hb.determines hf hp

/-- `=A1` in `B1` is computed when `A1` is filled. -/
theorem recalculation_complete_of_one_reader :
    let f : Formula := .ofExpr (.reference (.ofPosition ⟨0, 0⟩))
    let s := (Sheet.empty "Sheet1" default .empty ⟨.midnight 0, 0⟩).after
      [⟨⟨.midnight 0, 0⟩, .setFormula ⟨0, 1⟩ f⟩,
        ⟨⟨.midnight 0, 0⟩, .setValue ⟨0, 0⟩ (.logical true)⟩]
    s.value ⟨0, 1⟩ = s.evaluate f ∧ s.value ⟨0, 0⟩ = .logical true ∧
      ∃ n, s.calculateAll = ⟨s, .ok n⟩ := by
  have hreachable : ((Sheet.empty "Sheet1" default .empty ⟨.midnight 0, 0⟩).after
      [⟨⟨.midnight 0, 0⟩, .setFormula ⟨0, 1⟩ (.ofExpr (.reference (.ofPosition ⟨0, 0⟩)))⟩,
        ⟨⟨.midnight 0, 0⟩, .setValue ⟨0, 0⟩ (.logical true)⟩]).Reachable :=
    (Reachable.empty "Sheet1" default .empty ⟨.midnight 0, 0⟩).after (by decide)
  obtain ⟨hformula, hvalue, hall⟩ := recalculation_complete hreachable
    (Std.ExtTreeSet.isEmpty_iff.mp (by decide +kernel)) ⟨by decide +kernel, by decide +kernel⟩
    (by decide +kernel)
  exact ⟨hformula ⟨0, 1⟩ _ (by rfl), hvalue ⟨0, 0⟩ _ (by rfl), hall⟩

end Sheet

end Spreadsheet
