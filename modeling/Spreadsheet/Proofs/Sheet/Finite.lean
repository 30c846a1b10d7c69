import Spreadsheet.Proofs.Builtin.Finite
import Spreadsheet.Proofs.Sheet.Holding
import Spreadsheet.Proofs.Sheet.Sound
import Spreadsheet.Proofs.Sheet.Agreement

/-! No number on a sheet is other than finite. What comes in as a value is given to be, what is
typed in or written in a formula is when it is read, and what is computed from finite values is
when the functions keep to that, as the built-in ones do. -/

namespace Spreadsheet

/-- The numbers of a constant, or those written in a formula, are finite. -/
def Contents.IsFinite : Contents → Prop
  | value v => v.IsFinite
  | formula f => f.expr.IsFinite

/-- The numbers of the contents and of the value that is shown are finite. -/
structure Cell.IsFinite (c : Cell) : Prop where
  contents : c.contents.IsFinite
  value : c.value.IsFinite

/-- What comes in is finite: values as they are given, formulas as they are read from a text, and
functions in what they make. -/
def Operation.IsFinite : Operation → Prop
  | .setValue _ v => v.IsFinite
  | .setFormula _ f => ∃ text, f = .ofText text
  | .define _ d => d.IsFinite
  | .setFunctions functions => functions.KeepsFinite
  | _ => True

namespace Contents

theorem isFinite_of_ofInput? {patterns : List String} {text : String} {c : Contents}
    (h : ofInput? patterns text = some c) (hc : c.IsFaultless) : c.IsFinite := by
  cases c with
  | formula f =>
    obtain ⟨text, hf⟩ := exists_text_of_ofInput? h
    exact Formula.isFinite_of_eq_ofText hf (hc f rfl)
  | value v =>
    unfold ofInput? at h
    dsimp only at h
    split at h
    · cases h
    · split at h
      · cases h
      · split at h
        · cases h
          exact .text _
        · cases h
          exact Value.isFinite_infer _ _

theorem IsFinite.shifted {c : Contents} (h : c.IsFinite) (rows columns : Int) :
    (c.shifted rows columns).IsFinite := by
  cases c with
  | value v => exact h
  | formula f => exact Expr.IsFinite.revised h (.copy rows columns)

end Contents

namespace Cell

theorem isFinite_ofContents {c : Contents} (h : c.IsFinite) : (ofContents c).IsFinite := by
  cases c with
  | value v => exact ⟨h, h⟩
  | formula f => exact ⟨h, .empty⟩

theorem IsFinite.edited {c : Cell} (h : c.IsFinite) (e : Edit) :
    (c.mapFormula fun f => f.edited e).IsFinite := by
  obtain ⟨contents, v⟩ := c
  cases contents with
  | value w => exact h
  | formula f => exact ⟨Expr.IsFinite.revised h.contents (.edit e), h.value⟩

theorem IsFinite.evaluated {c : Cell} (h : c.IsFinite) {s : Source} (hs : s.IsFinite) :
    (c.evaluated s).IsFinite := by
  obtain ⟨contents, v⟩ := c
  cases contents with
  | value w => exact h
  | formula f => exact ⟨h.contents, hs.evaluate h.contents⟩

end Cell

namespace Sheet

variable {s t : Sheet}

theorem lasting_isFinite : Lasting Cell.IsFinite Definition.IsFinite where
  entered _ _ _ hc hfaultless :=
    Cell.isFinite_ofContents (Contents.isFinite_of_ofInput? hc hfaultless)
  copied _ rows columns h := Cell.isFinite_ofContents (h.contents.shifted rows columns)
  edited _ e h := h.edited e
  moved d e h := by
    cases d with
    | value v => exact h
    | reference r => exact Reference.Addressable.revised h (.edit e)

theorem brings_isFinite {op : Operation} (h : op.IsFinite) :
    Brings Cell.IsFinite Definition.IsFinite op := by
  cases op with
  | setValue p v => exact ⟨h, h⟩
  | setFormula p f =>
    obtain ⟨text, hf⟩ := h
    exact fun hd => ⟨Formula.isFinite_of_eq_ofText hf hd, .empty⟩
  | define name d => exact h
  | _ => trivial

/-- All numbers on the sheet are finite, and those that its functions make are. -/
structure IsFinite (s : Sheet) : Prop where
  holds : s.Holds Cell.IsFinite Definition.IsFinite
  functions : s.functions.KeepsFinite
  now : s.ambient.now.Exists

namespace IsFinite

theorem withGraph (h : s.IsFinite) (g : Graph Vertex) : (s.withGraph g).IsFinite :=
  ⟨h.holds.congr rfl rfl, h.functions, h.now⟩

theorem value (h : s.IsFinite) (p : Position) : (s.value p).IsFinite := by
  cases hc : s.cell? p with
  | none =>
    rw [Sheet.value, hc]
    exact .empty
  | some c =>
    rw [value_of_cell? hc]
    exact (h.holds.cells p c hc).value

/-- What formulas read is finite. -/
theorem source (h : s.IsFinite) {a : Ambient} (ha : a.now.Exists) : (s.source a).IsFinite where
  value := h.value
  values g v hv := by
    obtain ⟨⟨p, c⟩, hc, rfl⟩ := List.mem_map.mp (List.mem_filter.mp hv).1
    exact (h.holds.cells p c (Matrix.mem_cellsIn.mp hc).1).value
  block g row hrow v hv := by
    obtain ⟨cells, hcells, rfl⟩ := List.mem_map.mp hrow
    obtain ⟨c, hc, rfl⟩ := List.mem_map.mp hv
    cases c with
    | none => exact .empty
    | some c =>
      obtain ⟨p, hp⟩ := Matrix.exists_get?_of_mem_block hcells hc
      exact (h.holds.cells p c hp).value
  definitions n d hd := h.holds.names _ d hd
  functions n f hf := h.functions _ f hf
  now := ha

theorem evaluateCell (h : s.IsFinite) (p : Position) : (s.evaluateCell p).IsFinite where
  holds := by
    have hsource : (s.sourceFor p).IsFinite :=
      h.source (Ambient.exists_branch (Ambient.exists_branch h.now _) _)
    refine h.holds.withCells fun q c hc => ?_
    rw [Matrix.get?_modify] at hc
    split at hc
    · obtain ⟨c', hc', rfl⟩ := Option.map_eq_some_iff.mp hc
      exact .inr ((h.holds.cells q c' hc').evaluated hsource)
    · exact .inl hc
  functions := h.functions
  now := h.now

theorem calculate (h : s.IsFinite) : s.calculate.sheet.IsFinite := by
  unfold Sheet.calculate
  split
  · exact h
  · split
    · exact h
    · next order _ =>
      have hclean : IsFinite { s with dirty := ∅ } := ⟨h.holds.congr rfl rfl, h.functions, h.now⟩
      exact List.foldlRecOn (motive := IsFinite) (order.filterMap Vertex.cell?) _ hclean
        fun _ ht p _ => ht.evaluateCell p

/-- A plan changes functions only when it brings in others. -/
theorem plan (h : s.IsFinite) {op : Operation} (hop : op.IsFinite)
    (ht : (s.plan op).LeadsTo s t) : t.IsFinite := by
  have hholds := h.holds.plan lasting_isFinite (brings_isFinite hop) ht
  have hrest (hsame : s.SameRest t) : t.IsFinite :=
    ⟨hholds, hsame.functions ▸ h.functions, hsame.ambient ▸ h.now⟩
  cases op with
  | setValue p v => exact hrest (sameElsewhere_planContents (c := some (.value v)) ht).sameRest
  | setFormula p f => exact hrest (sameElsewhere_planContents (c := some (.formula f)) ht).sameRest
  | setInput p text => exact hrest (sameElsewhere_planContents ht).sameRest
  | clear p => exact hrest (sameElsewhere_planClear ht).sameRest
  | copy source target => exact hrest (sameElsewhere_planContents ht).sameRest
  | define name d => exact hrest (sameButNames_planDefine ht).sameRest
  | undefine name => exact hrest (sameButNames_planUndefine ht).sameRest
  | edit e =>
    change (s.planEdit e).LeadsTo s t at ht
    unfold planEdit at ht
    split at ht <;> (obtain rfl : t = _ := ht; exact ⟨hholds, h.functions, h.now⟩)
  | setFormat r f =>
    obtain rfl : t = s.setFormat r f := ht
    cases f <;> exact ⟨hholds, h.functions, h.now⟩
  | setFunctions functions =>
    obtain rfl : t = _ := ht
    exact ⟨hholds, hop, h.now⟩
  | clearRegion _ | pause | resume | setAutoCalculate _ | calculate | calculateAll =>
    obtain rfl : t = _ := ht
    exact ⟨hholds, h.functions, h.now⟩

/-- An operation does what was planned, and may calculate after it. -/
theorem call (h : s.IsFinite) (hs : s.Reachable) {c : Call} (hc : c.operation.IsFinite)
    (hnow : c.ambient.now.Exists) : (s.call c).sheet.IsFinite := by
  have hambient : (s.withAmbient c.ambient).IsFinite := ⟨h.holds.congr rfl rfl, h.functions, hnow⟩
  obtain ⟨t, g, ht, ho⟩ :=
    (apply_fulfilled (hs.sound.withAmbient c.ambient).linked c.operation).leadsTo
  have hplanned := (hambient.plan hc ht).withGraph g
  obtain ho | ho := ho
  · exact ho ▸ hplanned
  · exact ho ▸ hplanned.calculate

theorem after (h : s.IsFinite) (hs : s.Reachable) {cs : List Call}
    (hcs : ∀ c ∈ cs, c.operation.OnGrid ∧ c.operation.IsFinite ∧ c.ambient.now.Exists) :
    (s.after cs).IsFinite := by
  induction cs generalizing s with
  | nil => exact h
  | cons c cs ih =>
    obtain ⟨hgrid, hop, hnow⟩ := hcs c List.mem_cons_self
    exact ih (h.call hs hop hnow) (hs.call c hgrid) fun d hd => hcs d (List.mem_cons_of_mem c hd)

end IsFinite

/-- A sheet with the built-in functions only ever holds finite numbers, as constants, in formulas,
as values that are shown and in what names stand for, blocks included: as long as the numbers that
come in as values are finite and the dates among them exist, whatever texts are typed in. -/
theorem numbers_finite (name : String) (settings : Settings) {ambient : Ambient} {cs : List Call}
    (now : ambient.now.Exists)
    (calls : ∀ c ∈ cs, c.operation.OnGrid ∧ c.operation.IsFinite ∧ c.ambient.now.Exists) :
    let s := (Sheet.empty name settings Builtin.registry ambient).after cs
    (∀ p v, s.contents? p = some (.value v) → v.IsFinite) ∧
      (∀ p f, s.formula? p = some f → ∀ l ∈ f.expr.literals, l.IsFinite) ∧
      (∀ p, (s.value p).IsFinite) ∧
      ∀ (n : String) (v : Value), s.names[n]? = some (.value v) → v.IsFinite := by
  intro s
  have hempty : (Sheet.empty name settings Builtin.registry ambient).IsFinite :=
    ⟨.empty name settings _ ambient, Builtin.keepsFinite_registry, now⟩
  have hs : s.IsFinite := hempty.after (.empty name settings _ ambient) calls
  have hcontents {p : Position} {c : Contents} (hc : s.contents? p = some c) : c.IsFinite := by
    obtain ⟨cell, hcell, rfl⟩ := Option.map_eq_some_iff.mp hc
    exact (hs.holds.cells p cell hcell).contents
  refine ⟨fun p v hv => hcontents hv, fun p f hf => ?_, hs.value,
    fun n v hv => hs.holds.names n _ hv⟩
  obtain ⟨c, hc, hcf⟩ := Option.bind_eq_some_iff.mp ((formula?_eq s p).symm.trans hf)
  have hfinite := hcontents hc
  cases c with
  | value v => cases hcf
  | formula g =>
    cases hcf
    exact Expr.IsFinite.literals hfinite

/-- A product and a sum are too large, and so is a numeral, which is typed in as a text then. -/
theorem numbers_finite_past_overflow :
    let a : Ambient := ⟨.midnight 0, 0⟩
    let calls : List Call := [⟨a, .setValue ⟨0, 0⟩ (.number 1e308)⟩,
      ⟨a, .setInput ⟨1, 0⟩ "=-(A1*10)"⟩, ⟨a, .setFormula ⟨2, 0⟩ (.ofText "=SUM(A1,A1)")⟩,
      ⟨a, .setInput ⟨3, 0⟩ "1e999"⟩,
      ⟨a, .define "rate" (.value (.array [[.number 0.5, .date (.midnight 9)]]))⟩]
    let s := (Sheet.empty "Sheet1" default Builtin.registry a).after calls
    (a.now.Exists ∧
      ∀ c ∈ calls, c.operation.OnGrid ∧ c.operation.IsFinite ∧ c.ambient.now.Exists) ∧
    (s.value ⟨1, 0⟩).error? = some .badNumber ∧ (s.value ⟨2, 0⟩).error? = some .badNumber ∧
    (∀ p, (s.value p).IsFinite) ∧
    ∀ (n : String) (v : Value), s.names[n]? = some (.value v) → v.IsFinite := by
  intro a calls s
  have now : a.now.Exists := by decide +kernel
  have hcalls : ∀ c ∈ calls,
      c.operation.OnGrid ∧ c.operation.IsFinite ∧ c.ambient.now.Exists := by
    intro c hc
    simp only [calls, List.mem_cons, List.not_mem_nil, or_false] at hc
    obtain rfl | rfl | rfl | rfl | rfl := hc
    · exact ⟨by decide, .number (by decide +kernel), now⟩
    · exact ⟨by decide, trivial, now⟩
    · exact ⟨by decide, ⟨_, rfl⟩, now⟩
    · exact ⟨by decide, trivial, now⟩
    · refine ⟨by decide, .array ?_, now⟩
      simp only [List.forall_mem_singleton, List.forall_mem_cons]
      exact ⟨.number (by decide +kernel), .date (by decide +kernel)⟩
  obtain ⟨-, -, hvalues, hnames⟩ := numbers_finite "Sheet1" default now hcalls
  exact ⟨⟨now, hcalls⟩, by decide +kernel, by decide +kernel, hvalues, hnames⟩

end Sheet

end Spreadsheet
