import Spreadsheet.Proofs.Formula.Literals
import Spreadsheet.Proofs.Sheet.Agreement
import Spreadsheet.Proofs.Sheet.Holding
import Spreadsheet.Proofs.Sheet.Strays
import Spreadsheet.Proofs.Store.Joining

/-! What operations keep in order. A sheet holds what was planned for it, however it was calculated
and whatever its graph; so what plans keep, operations keep. The tags of formats are always joined,
and the ranges of formulas and definitions are between sorted places as long as those are that come
in. -/

namespace Spreadsheet

theorem Target.Spelled.isSorted {t : Target} (h : t.Spelled) : t.IsSorted := by
  cases h with
  | cell _ _ => trivial
  | range _ _ _ sorted => exact sorted

/-- The ranges of a formula that is read without faults are sorted. -/
theorem Formula.isSorted_of_eq_ofText {f : Formula} {text : String} (hf : f = ofText text)
    (h : f.diagnostics = []) : f.expr.EachReference Reference.IsSorted := by
  obtain ⟨ts, hd⟩ := derives_of_eq_ofText hf h
  exact hd.spelled.mono fun r hr t ht => (hr t ht).isSorted

/-- The ranges of the formula in the cell, if there is one, are sorted. -/
def Cell.IsSorted (c : Cell) : Prop :=
  ∀ f, c.formula? = some f → f.expr.EachReference Reference.IsSorted

def Definition.IsSorted (d : Definition) : Prop := ∀ r, d = .reference r → r.IsSorted

/-- The ranges that come in are sorted. -/
def Operation.IsSorted : Operation → Prop
  | .setFormula _ f => f.expr.EachReference Reference.IsSorted
  | .define _ (.reference r) => r.IsSorted
  | _ => True

namespace Sheet

variable {s t : Sheet}

/-! ## What a sheet holds -/

/-- The sheets have the same contents, names and formats. -/
structure SameHoldings (s t : Sheet) : Prop where
  contents : ∀ p, t.contents? p = s.contents? p
  names : t.names = s.names
  formats : t.formats = s.formats

namespace SameHoldings

theorem refl (s : Sheet) : s.SameHoldings s := ⟨fun _ => rfl, rfl, rfl⟩

theorem withAmbient (s : Sheet) (a : Ambient) : s.SameHoldings (s.withAmbient a) :=
  ⟨fun _ => rfl, rfl, rfl⟩

theorem trans {u : Sheet} (h : s.SameHoldings t) (h' : t.SameHoldings u) : s.SameHoldings u :=
  ⟨fun p => (h'.contents p).trans (h.contents p), h'.names.trans h.names,
    h'.formats.trans h.formats⟩

theorem formula? (h : s.SameHoldings t) (p : Position) : t.formula? p = s.formula? p := by
  rw [formula?_eq, formula?_eq, h.contents]

end SameHoldings

theorem Revalued.sameHoldings (h : s.Revalued t) : s.SameHoldings t where
  contents := h.sameInput.contents
  names := h.names
  formats := by
    rw [h.rest]
    rfl

theorem sameHoldings_calculate (s : Sheet) : s.SameHoldings s.calculate.sheet := by
  unfold calculate
  split
  · exact .refl s
  · split
    · exact .refl s
    · next order _ =>
      have hr := (revalued_evaluateCells (order.filterMap Vertex.cell?)
        { s with dirty := ∅ }).sameHoldings
      exact ⟨hr.contents, hr.names, hr.formats⟩

/-- An operation leaves what was planned. -/
theorem Plan.Fulfilled.sameHoldings {plan : Plan} {o : Outcome Answer} (h : plan.Fulfilled s o) :
    ∃ t, plan.LeadsTo s t ∧ t.SameHoldings o.sheet := by
  obtain ⟨t, g, ht, ho⟩ := h.leadsTo
  refine ⟨t, ht, ?_⟩
  obtain ho | ho := ho
  · rw [ho]
    exact ⟨fun _ => rfl, rfl, rfl⟩
  · have hr := (t.withGraph g).sameHoldings_calculate
    rw [ho]
    exact ⟨hr.contents, hr.names, hr.formats⟩

/-! ## Order -/

/-- Ranges are sorted, and tags are joined. -/
structure InOrder (s : Sheet) : Prop where
  formulas : ∀ p f, s.formula? p = some f → f.expr.EachReference Reference.IsSorted
  names : ∀ (n : String) (r : Reference), s.names[n]? = some (.reference r) → r.IsSorted
  formats : s.formats.IsJoined

theorem SameHoldings.inOrder (hst : s.SameHoldings t) (h : s.InOrder) : t.InOrder where
  formulas p f hf := h.formulas p f ((hst.formula? p).symm.trans hf)
  names n r hr := h.names n r (by rwa [hst.names] at hr)
  formats := by
    rw [hst.formats]
    exact h.formats

theorem inOrder_iff : s.InOrder ↔
    s.Holds Cell.IsSorted Definition.IsSorted ∧ s.formats.IsJoined where
  mp h := by
    refine ⟨⟨fun p c hc f hf => ?_, fun n d hd r hr => ?_⟩, h.formats⟩
    · exact h.formulas p f ((formula?_of_cell? hc).trans hf)
    · exact h.names n r (hr ▸ hd)
  mpr h := by
    refine ⟨fun p f hf => ?_, fun n r hr => h.1.names n _ hr r rfl, h.2⟩
    obtain ⟨c, hc, hcf⟩ := Option.bind_eq_some_iff.mp hf
    exact h.1.cells p c hc f hcf

theorem inOrder_empty (name : String) (settings : Settings) (functions : Registry)
    (ambient : Ambient) : (Sheet.empty name settings functions ambient).InOrder :=
  inOrder_iff.mpr ⟨.empty name settings functions ambient, Tagging.isJoined_empty⟩

theorem lasting_isSorted : Lasting Cell.IsSorted Definition.IsSorted where
  entered patterns text c hc hfaultless f hf := by
    cases c with
    | value v => cases hf
    | formula g =>
      cases hf
      obtain ⟨text, hread⟩ := exists_text_of_ofInput? hc
      exact Formula.isSorted_of_eq_ofText hread (hfaultless f rfl)
  copied c rows columns h f hf := by
    obtain ⟨contents, v⟩ := c
    cases contents with
    | value w => cases hf
    | formula g =>
      cases hf
      exact (Expr.eachReference_mapReferences g.expr).mpr ((h g rfl).mono fun r hr =>
        Reference.isSorted_revised (.copy rows columns) hr)
  edited c e h f hf := by
    obtain ⟨contents, v⟩ := c
    cases contents with
    | value w => cases hf
    | formula g =>
      cases hf
      exact (Expr.eachReference_mapReferences g.expr).mpr ((h g rfl).mono fun r hr =>
        Reference.isSorted_revised (.edit e) hr)
  moved d e h r hr := by
    cases d with
    | value v => cases hr
    | reference r' =>
      cases hr
      exact Reference.isSorted_revised (.edit e) (h r' rfl)

theorem brings_isSorted {op : Operation} (h : op.IsSorted) :
    Brings Cell.IsSorted Definition.IsSorted op := by
  cases op with
  | setValue p v => exact nofun
  | setFormula p f =>
    intro _ g hg
    cases hg
    exact h
  | define name d =>
    intro r hr
    subst hr
    exact h
  | _ => trivial

theorem plan_formats (h : s.formats.IsJoined) {op : Operation} (ht : (s.plan op).LeadsTo s t) :
    t.formats.IsJoined := by
  have hsame (hrest : s.SameRest t) : t.formats.IsJoined := hrest.formats ▸ h
  cases op with
  | setValue p v => exact hsame (sameElsewhere_planContents (c := some (.value v)) ht).sameRest
  | setFormula p f => exact hsame (sameElsewhere_planContents (c := some (.formula f)) ht).sameRest
  | setInput p text => exact hsame (sameElsewhere_planContents ht).sameRest
  | clear p => exact hsame (sameElsewhere_planClear ht).sameRest
  | copy source target => exact hsame (sameElsewhere_planContents ht).sameRest
  | define name d => exact hsame (sameButNames_planDefine ht).sameRest
  | undefine name => exact hsame (sameButNames_planUndefine ht).sameRest
  | edit e =>
    change (s.planEdit e).LeadsTo s t at ht
    unfold planEdit at ht
    split at ht
    · obtain rfl : t = s := ht
      exact h
    · obtain rfl : t = (s.reshaped e).markFormulas := ht
      exact Tagging.isJoined_ofEntries _
  | setFormat r f =>
    obtain rfl : t = s.setFormat r f := ht
    cases f <;> exact Tagging.isJoined_ofEntries _
  | clearRegion _ | pause | resume | setAutoCalculate _ | calculate | calculateAll
  | setFunctions _ =>
    obtain rfl : t = _ := ht
    exact h

/-- What is planned for an operation that brings in sorted ranges is in order. -/
theorem plan_inOrder (h : s.InOrder) {op : Operation} (hop : op.IsSorted)
    (ht : (s.plan op).LeadsTo s t) : t.InOrder := by
  obtain ⟨hholds, hformats⟩ := inOrder_iff.mp h
  exact inOrder_iff.mpr ⟨hholds.plan lasting_isSorted (brings_isSorted hop) ht,
    plan_formats hformats ht⟩

/-! ## Runs -/

/-- The sheets that an empty one can become by operations that bring in sorted ranges. -/
inductive Orderly : Sheet → Prop
  | empty (name : String) (settings : Settings) (functions : Registry) (ambient : Ambient) :
    Orderly (.empty name settings functions ambient)
  | call {s : Sheet} (hs : Orderly s) (c : Call) (hc : c.operation.OnGrid)
    (hr : c.operation.IsSorted) : Orderly (s.call c).sheet

theorem Orderly.reachable (h : s.Orderly) : s.Reachable := by
  induction h with
  | empty name settings functions ambient => exact .empty name settings functions ambient
  | call _ c hc _ ih => exact ih.call c hc

theorem Orderly.after (hs : s.Orderly) {cs : List Call}
    (hc : ∀ c ∈ cs, c.operation.OnGrid ∧ c.operation.IsSorted) : (s.after cs).Orderly := by
  induction cs generalizing s with
  | nil => exact hs
  | cons c cs ih =>
    have hfirst := hc c List.mem_cons_self
    exact ih (hs.call c hfirst.1 hfirst.2) fun d hd => hc d (List.mem_cons_of_mem c hd)

theorem Orderly.inOrder (h : s.Orderly) : s.InOrder := by
  induction h with
  | empty name settings functions ambient => exact inOrder_empty name settings functions ambient
  | @call s hs c hc hr ih =>
    have hlinked := (hs.reachable.sound.withAmbient c.ambient).linked
    obtain ⟨t, ht, hst⟩ := (apply_fulfilled hlinked c.operation).sameHoldings
    exact hst.inOrder (plan_inOrder ((SameHoldings.withAmbient s c.ambient).inOrder ih) hr ht)

end Sheet

end Spreadsheet
