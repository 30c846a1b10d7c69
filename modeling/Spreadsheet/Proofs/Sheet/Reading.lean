import Mathlib.Logic.Relation
import Spreadsheet.Proofs.Evaluation.Frame
import Spreadsheet.Proofs.Store.Cells
import Spreadsheet.Sheet.Links

/-! What the formulas and names of a sheet read, as the contents say it and whatever the graph
looks like. Where the values that a formula comes to read stay the same, and the lines in use do
too, so does the value of the formula. -/

namespace Spreadsheet

/-- What a reference points at: a name, or each of the cells it covers. -/
inductive Reference.Reads (r : Reference) : Vertex → Prop
  | name {n : String} : r = .single (.name n) → Reads r (.name (Text.upperAscii n))
  | cell {g : Region} {p : Position} : g ∈ r.regions → g.contains p = true → Reads r (.cell p)

namespace Sheet

/-- What the formula in a cell or the definition of a name refers to. -/
def references (s : Sheet) : Vertex → List Reference
  | .cell p => ((s.formula? p).map (·.references)).getD []
  | .name n => (s.names[n]?.map referencesOf).getD []
  | .region _ => []

/-- What is in `v` reads what is in `u`. -/
def Feeds (s : Sheet) (u v : Vertex) : Prop := ∃ r ∈ s.references v, r.Reads u

/-- Nothing is stored beyond the last line of the grid. -/
def OnGrid (s : Sheet) : Prop :=
  ∀ p, (s.cell? p).isSome = true → p.row ≤ endless ∧ p.column ≤ endless

def withCells (s : Sheet) (m : Matrix Cell) : Sheet := { s with cells := m }

variable {s t : Sheet}

theorem formula?_withCells {m : Matrix Cell} {p : Position} (h : m.get? p = s.cells.get? p) :
    (s.withCells m).formula? p = s.formula? p := by
  unfold formula? cell? withCells
  rw [h]

theorem formula?_eq_none {p : Position} (h : s.cell? p = none) : s.formula? p = none := by
  unfold formula?
  rw [h]
  rfl

theorem formula?_of_cell? {p : Position} {c : Cell} (h : s.cell? p = some c) :
    s.formula? p = c.formula? := by
  unfold formula?
  rw [h]
  rfl

theorem formula?_congr {p : Position} (h : t.cell? p = s.cell? p) :
    t.formula? p = s.formula? p := by
  unfold formula?
  rw [h]

theorem value_of_cell? {p : Position} {c : Cell} (h : s.cell? p = some c) :
    s.value p = c.value := by
  unfold value
  rw [h]
  rfl

theorem value_eq_empty {p : Position} (h : s.cell? p = none) : s.value p = .empty := by
  unfold value
  rw [h]
  rfl

theorem value_congr {p : Position} (h : t.cell? p = s.cell? p) : t.value p = s.value p := by
  unfold value
  rw [h]

theorem formula?_set (s : Sheet) (p : Position) (c : Cell) :
    (s.withCells (s.cells.set p c)).formula? p = c.formula? :=
  formula?_of_cell? (Matrix.get?_set_self ..)

theorem formula?_remove (s : Sheet) (p : Position) :
    (s.withCells (s.cells.remove p)).formula? p = none :=
  formula?_eq_none (Matrix.get?_remove_self ..)

theorem formula?_removeRegion (s : Sheet) {r : Region} {p : Position} (h : r.contains p = true) :
    (s.withCells (s.cells.removeRegion r)).formula? p = none := by
  refine formula?_eq_none ((Matrix.get?_removeRegion ..).trans ?_)
  rw [if_pos h]

theorem isFormula_of_formula? {p : Position} {f : Formula} (h : s.formula? p = some f) :
    s.isFormula p = true := by
  unfold isFormula
  rw [h]
  rfl

theorem isFormula_congr {p : Position} (h : t.formula? p = s.formula? p) :
    t.isFormula p = s.isFormula p := by
  unfold isFormula
  rw [h]

theorem isFormula_eq_false {p : Position} : s.isFormula p = false ↔ s.formula? p = none := by
  unfold isFormula
  exact Option.isSome_eq_false_iff.trans Option.isNone_iff_eq_none

theorem references_cell {p : Position} {f : Formula} (h : s.formula? p = some f) :
    s.references (.cell p) = f.references := by
  simp only [references, h]
  rfl

/-- What a vertex refers to is said by its own contents. -/
theorem references_congr {v : Vertex} (hc : ∀ p, v = .cell p → t.formula? p = s.formula? p)
    (hn : ∀ n, v = .name n → t.names[n]? = s.names[n]?) : t.references v = s.references v := by
  cases v with
  | region r => rfl
  | cell p => simp only [references, hc p rfl]
  | name n => simp only [references, hn n rfl]

theorem isFormula_of_mem_references {p : Position} {r : Reference}
    (h : r ∈ s.references (.cell p)) : s.isFormula p = true := by
  unfold references at h
  cases hf : s.formula? p with
  | none => simp [hf] at h
  | some f => exact isFormula_of_formula? hf

theorem references_name {n : String} {r : Reference}
    (h : s.definition? n = some (.reference r)) :
    s.references (.name (Text.upperAscii n)) = [r] := by
  unfold definition? at h
  simp only [references, h]
  rfl

/-- Something that is read through names is fed through their vertices. -/
theorem feeds_of_follows {u v : Vertex} {r : Reference}
    (h : Follows s.definition? (s.references v) r) (hr : r.Reads u) :
    Relation.TransGen s.Feeds u v := by
  induction h generalizing u with
  | direct h => exact .single ⟨_, h, hr⟩
  | name _ hd ih =>
    refine Relation.TransGen.head ⟨_, ?_, hr⟩ (ih (.name rfl))
    rw [references_name hd]
    exact List.mem_singleton_self _

theorem feeds_of_follows_cell {p q : Position} {f : Formula} (hf : s.formula? p = some f)
    {r : Reference} (h : Follows s.definition? f.references r) {g : Region} (hg : g ∈ r.regions)
    (hq : g.contains q = true) : Relation.TransGen s.Feeds (.cell q) (.cell p) :=
  feeds_of_follows (by rwa [references_cell hf]) (.cell hg hq)

theorem feeds_of_follows_name {p : Position} {f : Formula} (hf : s.formula? p = some f)
    {n : String} (h : Follows s.definition? f.references (.single (.name n))) :
    Relation.TransGen s.Feeds (.name (Text.upperAscii n)) (.cell p) :=
  feeds_of_follows (by rwa [references_cell hf]) (.name rfl)

/-! ## Regions -/

/-- The filled cells of a region with their values, where these are not empty. -/
def nonempties (s : Sheet) (r : Region) : List (Position × Value) :=
  ((s.cellsIn r).map fun c => (c.1, c.2.value)).filter fun c => !c.2.isEmpty

theorem valuesIn_eq (s : Sheet) (r : Region) : s.valuesIn r = (s.nonempties r).map (·.2) := by
  unfold valuesIn nonempties
  rw [List.filter_map, List.filter_map, List.map_map]
  rfl

theorem mem_nonempties {r : Region} {p : Position} {v : Value} :
    (p, v) ∈ s.nonempties r ↔ r.contains p = true ∧ s.value p = v ∧ v.isEmpty = false := by
  unfold nonempties
  rw [List.mem_filter, List.mem_map]
  constructor
  · intro h
    obtain ⟨⟨⟨q, c⟩, hc, he⟩, hv⟩ := h
    cases he
    obtain ⟨hget, hr⟩ := Matrix.mem_cellsIn.mp hc
    exact ⟨hr, value_of_cell? hget, by simpa using hv⟩
  · intro h
    obtain ⟨hr, hv, he⟩ := h
    cases hc : s.cell? p with
    | none =>
      have : v = .empty := hv.symm.trans (value_eq_empty hc)
      rw [this] at he
      contradiction
    | some c =>
      have hcv : c.value = v := (value_of_cell? hc).symm.trans hv
      exact ⟨⟨(p, c), Matrix.mem_cellsIn.mpr ⟨hc, hr⟩, by rw [hcv]⟩, by simpa using he⟩

theorem nonempties_forward (s : Sheet) (r : Region) :
    (s.nonempties r).Pairwise fun a b => compare a.1 b.1 = .lt := by
  unfold nonempties
  refine List.Pairwise.filter _ ?_
  rw [List.pairwise_map]
  exact Matrix.cellsIn_forward s.cells r

theorem valuesIn_congr {r : Region} (h : ∀ p, r.contains p = true → s.value p = t.value p) :
    s.valuesIn r = t.valuesIn r := by
  rw [valuesIn_eq, valuesIn_eq]
  congr 1
  refine eq_of_forward (s.nonempties_forward r) (t.nonempties_forward r) fun c => ?_
  rw [mem_nonempties, mem_nonempties]
  exact and_congr_right fun hc => by rw [h c.1 hc]

theorem blockOf_eq (s : Sheet) (r : Region) :
    s.blockOf r = match s.cells.clipped? r with
      | none => []
      | some c => (Matrix.indices c.rows).map fun row =>
          (Matrix.indices c.columns).map fun column => s.value ⟨row, column⟩ := by
  unfold blockOf Matrix.block
  cases s.cells.clipped? r with
  | none => rfl
  | some c =>
    rw [List.map_map]
    apply List.map_congr_left
    intro row _
    exact List.map_map

theorem blockOf_congr {r : Region} (hc : s.cells.clipped? r = t.cells.clipped? r)
    (h : ∀ c, s.cells.clipped? r = some c → ∀ p, c.contains p = true → s.value p = t.value p) :
    s.blockOf r = t.blockOf r := by
  rw [blockOf_eq, blockOf_eq, ← hc]
  cases hclip : s.cells.clipped? r with
  | none => rfl
  | some c =>
    apply List.map_congr_left
    intro row hrow
    apply List.map_congr_left
    intro column hcolumn
    refine h c hclip ⟨row, column⟩ ?_
    unfold Region.contains
    rw [Matrix.mem_indices.mp hrow, Matrix.mem_indices.mp hcolumn]
    rfl

theorem OnGrid.value_eq_empty (hs : s.OnGrid) {p : Position}
    (hp : ¬ (p.row ≤ endless ∧ p.column ≤ endless)) : s.value p = .empty := by
  unfold value
  cases hc : s.cell? p with
  | none => rfl
  | some c => exact absurd (hs p (by rw [hc]; rfl)) hp

/-- With the same lines in use, a block depends on the cells of its region only. -/
theorem blockOf_congr_of_sameExtent {r : Region} (hx : s.cells.SameExtent t.cells) (hs : s.OnGrid)
    (ht : t.OnGrid) (h : ∀ p, r.contains p = true → s.value p = t.value p) :
    s.blockOf r = t.blockOf r := by
  refine blockOf_congr (hx.clipped? r) fun c hc p hp => ?_
  by_cases hgrid : p.row ≤ endless ∧ p.column ≤ endless
  · exact h p (Matrix.contains_of_clipped? hc hp hgrid.1 hgrid.2)
  · rw [hs.value_eq_empty hgrid, ht.value_eq_empty hgrid]

theorem blockOf_congr_of_isBounded {r : Region} (hb : r.isBounded = true)
    (h : ∀ p, r.contains p = true → s.value p = t.value p) : s.blockOf r = t.blockOf r := by
  have hs : s.cells.clipped? r = some r := Matrix.clipped?_of_isBounded hb
  refine blockOf_congr (hs.trans (Matrix.clipped?_of_isBounded hb).symm) fun c hc p hp => ?_
  cases hs.symm.trans hc
  exact h p hp

/-! ## Formulas -/

/-- The sheets have the same functions, and show the same of what the references lead to, up to
which lines are in use. -/
structure Alike (s t : Sheet) (rs : List Reference) : Prop where
  functions : s.functions = t.functions
  names : ∀ n, Follows s.definition? rs (.single (.name n)) → s.definition? n = t.definition? n
  value : ∀ r, Follows s.definition? rs r → ∀ g ∈ r.regions, ∀ p, g.contains p = true →
    s.value p = t.value p

theorem Alike.agreeOn {rs : List Reference} (h : s.Alike t rs) (a b : Ambient)
    (hb : ∀ r, Follows s.definition? rs r → ∀ g ∈ r.regions, s.blockOf g = t.blockOf g) :
    (s.source a).AgreeOn (t.source b) rs where
  names := h.names
  values r hr g hg := valuesIn_congr (h.value r hr g hg)
  block := hb
  value := h.value

theorem Alike.sameFunctions {rs : List Reference} (h : s.Alike t rs) (names : List String) :
    SameFunctions s.functions.find? t.functions.find? names :=
  fun n _ => congrArg (Registry.find? · n) h.functions

/-- While no line comes into use or goes out of it, the value of a formula follows from what it
comes to read. -/
theorem Alike.evaluate_eq {f : Formula} (h : s.Alike t f.references)
    (hx : s.cells.SameExtent t.cells) (hs : s.OnGrid) (ht : t.OnGrid) {a b : Ambient}
    (hab : Undisturbed s.functions.find? f.expr.calls a b) :
    f.evaluate (s.source a) = f.evaluate (t.source b) :=
  Formula.evaluate_congr (h.agreeOn a b fun r hr g hg =>
    blockOf_congr_of_sameExtent hx hs ht (h.value r hr g hg)) (h.sameFunctions _) hab

end Sheet

end Spreadsheet
