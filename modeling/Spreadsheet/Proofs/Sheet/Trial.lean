import Spreadsheet.Proofs.Sheet.Batching

/-! A formula that is tried out in an empty cell. Nothing else is marked when it comes in, so all
that it comes to read shows what it showed before, and nothing has to be computed for it first. If
it comes to read the cell that it is in, it is refused. What the cell itself adds is that its lines
are in use. -/

namespace Spreadsheet

open Relation

namespace Outcome

variable {α β : Type} {o : Outcome α} {g : α → β} {t : Sheet}

theorem eq_of_map_error {r : Refusal} (h : o.map g = ⟨t, .error r⟩) : o = ⟨t, .error r⟩ := by
  obtain ⟨u, answer⟩ := o
  cases answer <;> cases h
  rfl

theorem eq_of_map_ok {b : β} (h : o.map g = ⟨t, .ok b⟩) : ∃ a, o = ⟨t, .ok a⟩ := by
  obtain ⟨u, answer⟩ := o
  cases answer <;> cases h
  exact ⟨_, rfl⟩

end Outcome

namespace Sheet

variable {s t : Sheet} {p : Position} {f : Formula}

/-- The formula comes to read the cell, by itself or through names and other formulas. -/
def ComesToRead (s : Sheet) (f : Formula) (p : Position) : Prop :=
  ∃ r ∈ f.references, ∃ u, r.Reads u ∧ ReflTransGen s.Feeds (.cell p) u

/-- The sheet with a cell that is in use and shows nothing. -/
def inUse (s : Sheet) (p : Position) : Sheet := s.withCells (s.cells.set p blank)

/-- The sheet with a formula in a cell, before anything is computed. -/
def holding (s : Sheet) (p : Position) (f : Formula) : Sheet :=
  (s.withCells (s.cells.set p (.ofFormula f))).markDirty [.cell p]

/-! ## Cells -/

theorem cell?_inUse_self (s : Sheet) (p : Position) : (s.inUse p).cell? p = some blank :=
  Matrix.get?_set_self ..

theorem cell?_inUse_of_ne {q : Position} (h : q ≠ p) : (s.inUse p).cell? q = s.cell? q :=
  Matrix.get?_set_of_ne _ _ h.symm

theorem cell?_holding_self (s : Sheet) (p : Position) (f : Formula) :
    (s.holding p f).cell? p = some (.ofFormula f) :=
  Matrix.get?_set_self ..

theorem cell?_holding_of_ne {q : Position} (h : q ≠ p) : (s.holding p f).cell? q = s.cell? q :=
  Matrix.get?_set_of_ne _ _ h.symm

theorem value_inUse (hp : s.cell? p = none) (q : Position) : (s.inUse p).value q = s.value q := by
  by_cases hq : q = p
  · subst hq
    rw [value_of_cell? (s.cell?_inUse_self q), value_eq_empty hp]
    rfl
  · exact value_congr (cell?_inUse_of_ne hq)

theorem OnGrid.inUse (hs : s.OnGrid) (hp : p.OnGrid) : (s.inUse p).OnGrid := by
  intro q hq
  by_cases hqp : q = p
  · exact hqp ▸ hp
  · rw [cell?_inUse_of_ne hqp] at hq
    exact hs q hq

theorem sameExtent_holding (s : Sheet) (p : Position) (f : Formula) :
    (s.inUse p).cells.SameExtent (s.holding p f).cells where
  axis := by
    show (s.cells.set p blank).axis = (s.cells.set p (.ofFormula f)).axis
    rw [Matrix.axis_set, Matrix.axis_set]
  vacant := by
    show (s.cells.set p blank).vacant = (s.cells.set p (.ofFormula f)).vacant
    rw [Matrix.vacant_set, Matrix.vacant_set]
  filled q := by
    show ((s.inUse p).cell? q).isSome = ((s.holding p f).cell? q).isSome
    by_cases hq : q = p
    · rw [hq, cell?_inUse_self, cell?_holding_self]
      rfl
    · rw [cell?_inUse_of_ne hq, cell?_holding_of_ne hq]

/-! ## Dependencies -/

theorem formula?_holding (s : Sheet) (p : Position) (f : Formula) :
    (s.holding p f).formula? p = some f :=
  s.formula?_set p (.ofFormula f)

theorem references_holding_of_ne {v : Vertex} (h : v ≠ .cell p) :
    (s.holding p f).references v = s.references v := by
  refine references_congr (t := s.holding p f) (fun q hq => ?_) fun _ _ => rfl
  exact formula?_withCells (Matrix.get?_set_of_ne _ _ fun hpq => h (by rw [hq, hpq]))

theorem feeds_holding_iff {u v : Vertex} (h : v ≠ .cell p) :
    (s.holding p f).Feeds u v ↔ s.Feeds u v := by
  unfold Feeds
  rw [references_holding_of_ne h]

theorem feeds_holding_cell_iff {u : Vertex} :
    (s.holding p f).Feeds u (.cell p) ↔ ∃ r ∈ f.references, r.Reads u := by
  unfold Feeds
  rw [references_cell (s.formula?_holding p f)]

/-- A way from the cell needs to pass it only at the start. -/
theorem reflTransGen_holding_iff (hp : s.formula? p = none) {v : Vertex} :
    ReflTransGen (s.holding p f).Feeds (.cell p) v ↔ ReflTransGen s.Feeds (.cell p) v := by
  have hnot (u : Vertex) : ¬ s.Feeds u (.cell p) := by
    rintro ⟨r, hr, -⟩
    have hformula := isFormula_of_mem_references hr
    rw [isFormula_eq_false.mpr hp] at hformula
    contradiction
  constructor
  · intro h
    induction h with
    | refl => exact .refl
    | @tail b c _ hbc ih =>
      by_cases hc : c = .cell p
      · rw [hc]
      · exact ih.tail ((feeds_holding_iff hc).mp hbc)
  · intro h
    refine ReflTransGen.mono (fun b c hbc => ?_) _ _ h
    have hc : c ≠ .cell p := by
      rintro rfl
      exact hnot b hbc
    exact (feeds_holding_iff hc).mpr hbc

/-- With the formula in place the cell feeds itself exactly if the formula comes to read it. -/
theorem transGen_holding_iff (hp : s.formula? p = none) :
    TransGen (s.holding p f).Feeds (.cell p) (.cell p) ↔ s.ComesToRead f p := by
  rw [TransGen.tail'_iff]
  constructor
  · rintro ⟨u, hu, hfeeds⟩
    obtain ⟨r, hr, hread⟩ := feeds_holding_cell_iff.mp hfeeds
    exact ⟨r, hr, u, hread, (reflTransGen_holding_iff hp).mp hu⟩
  · rintro ⟨r, hr, u, hread, hu⟩
    exact ⟨u, (reflTransGen_holding_iff hp).mpr hu, feeds_holding_cell_iff.mpr ⟨r, hr, hread⟩⟩

/-- Where a formula does not come to read its cell, nothing that it comes to read is marked. -/
theorem not_isAffected_of_feeds (hd : s.dirty = ∅) (hp : s.formula? p = none)
    (hno : ¬ s.ComesToRead f p) {q : Position}
    (hq : TransGen (s.holding p f).Feeds (.cell q) (.cell p)) :
    q ≠ p ∧ ¬ (s.holding p f).IsAffected (.cell q) := by
  have hacyclic : ¬ TransGen (s.holding p f).Feeds (.cell p) (.cell p) :=
    fun hc => hno ((transGen_holding_iff hp).mp hc)
  refine ⟨?_, ?_⟩
  · rintro rfl
    exact hacyclic hq
  · rintro ⟨d, hmem, hdq⟩
    obtain hmem | hmem := mem_markDirty.mp hmem
    · obtain rfl := List.mem_singleton.mp hmem
      exact hacyclic (TransGen.trans_right hdq hq)
    · have hempty : d ∈ s.dirty := hmem
      rw [hd] at hempty
      exact Std.ExtTreeSet.not_mem_empty hempty

/-! ## The trial -/

/-- What is left of the formula's sheet once the formula has been computed: its cell aside, all
holds what it held, and the formula has been given what it would read with its cell empty. -/
structure Tried (s : Sheet) (p : Position) (f : Formula) (u : Sheet) : Prop where
  value : u.value p = f.evaluate (u.sourceFor p)
  contents : ∀ q, q ≠ p → u.contents? q = s.contents? q
  names : u.names = s.names
  alike : (s.inUse p).Alike u f.references
  extent : (s.inUse p).cells.SameExtent u.cells
  onGrid : u.OnGrid

/-- A formula that does not come to read its cell is computed from what the sheet showed before. -/
theorem Computed.tried {g : Graph Vertex} (h : ((s.holding p f).withGraph g).Computed t)
    (hs : (s.holding p f).OnGrid) (hd : s.dirty = ∅) (hp : s.cell? p = none)
    (hno : ¬ s.ComesToRead f p) : s.Tried p f t where
  value := h.computed p f (isAffected_of_mem (mem_markDirty.mpr (.inl (List.mem_singleton_self _))))
    (s.formula?_holding p f)
  contents q hq := by
    have hcell : ((s.holding p f).withGraph g).cell? q = s.cell? q := cell?_holding_of_ne hq
    rw [h.sameInput.contents q]
    unfold contents?
    rw [hcell]
  names := h.revalued.names
  alike := by
    have hfunctions : t.functions = s.functions := h.revalued.functions
    have hnames : t.definition? = s.definition? := h.revalued.definition?
    refine ⟨hfunctions.symm, fun n _ => ?_, fun r hr g' hg q hq => ?_⟩
    · rw [hnames]
      rfl
    · have hr' : Follows s.definition? f.references r := hr
      have hfeeds : TransGen (s.holding p f).Feeds (.cell q) (.cell p) :=
        feeds_of_follows_cell (s := s.holding p f) (s.formula?_holding p f) hr' hg hq
      obtain ⟨hqp, hmarked⟩ := not_isAffected_of_feeds hd (formula?_eq_none hp) hno hfeeds
      refine value_congr ?_
      rw [cell?_inUse_of_ne hqp, h.unaffected q hmarked]
      exact (cell?_holding_of_ne hqp).symm
  extent := (s.sameExtent_holding p f).trans h.revalued.sameExtent
  onGrid := h.revalued.onGrid hs

/-- While calculation waits, a formula without a fault is put into an empty cell, unless it comes to
read the cell; then the cell is empty again. -/
theorem Sound.setFormula_waits (hs : s.Sound) (hlive : s.isLive = false) (hp : s.cell? p = none)
    (hgrid : p.OnGrid) (hf : f.diagnostics = []) :
    (s.ComesToRead f p ∧ ∃ back path, s.setFormula p f = ⟨back, .error (.circular path)⟩ ∧
        back.cell? = s.cell? ∧ back.names = s.names) ∨
      (¬ s.ComesToRead f p ∧ ∃ g, ((s.holding p f).withGraph g).Sound ∧
        s.setFormula p f = ⟨(s.holding p f).withGraph g, .ok ()⟩) := by
  have hplan : s.plan (.setFormula p f) =
      .check (s.holding p f) (.cell p) (s.withCells (s.cells.occupied p)) := by
    show s.planFormula p f = _
    unfold planFormula
    rw [hf]
    rfl
  have hop : (Operation.setFormula p f).OnGrid := by
    rintro q ⟨⟩
    exact hgrid
  have hcycle := transGen_holding_iff (s := s) (f := f) (formula?_eq_none hp)
  have hdone := hs.done hop
  rw [hplan] at hdone
  rcases hdone with ⟨hc, g, path, -, he⟩ | ⟨hno, g, hsound, he⟩
  · exact .inl ⟨hcycle.mp hc, _, path, Outcome.eq_of_map_error he,
      funext fun q => Matrix.get?_occupied s.cells p q, rfl⟩
  · have hwaits : ((s.holding p f).withGraph g).resettle =
        ⟨(s.holding p f).withGraph g, .ok 0⟩ := by
      have hlive' : ((s.holding p f).withGraph g).isLive = false := hlive
      rw [Sheet.resettle, hlive']
      rfl
    rw [hwaits] at he
    obtain ⟨_, hset⟩ := Outcome.eq_of_map_ok he
    exact .inr ⟨fun hc => hno (hcycle.mpr hc), g, hsound, hset⟩

/-- On a sheet that does not calculate by itself, a formula that comes in while calculation is paused
is refused if it comes to read its own cell; else it is in its cell once calculation is resumed. -/
theorem Sound.held (hs : s.Sound) (hauto : s.settings.autoCalculate = false)
    (hp : s.cell? p = none) (hgrid : p.OnGrid) (hf : f.diagnostics = []) :
    (s.ComesToRead f p ∧
        ∃ back path, s.pause.setFormula p f = ⟨back, .error (.circular path)⟩ ∧
          back.cell? = s.cell? ∧ back.names = s.names) ∨
      (¬ s.ComesToRead f p ∧ ∃ staged g, s.pause.setFormula p f = ⟨staged, .ok ()⟩ ∧
        staged.resume = ⟨(s.holding p f).withGraph g, .ok 0⟩) := by
  have hpause : Operation.pause.OnGrid := nofun
  have hpaused : s.pause.Sound := hs.apply hpause
  rcases hpaused.setFormula_waits (Bool.and_false _) hp hgrid hf with h | ⟨hno, g, -, hset⟩
  · exact .inl h
  · have hwaits : ¬ s.isLive = true := by
      unfold isLive
      rw [hauto]
      exact Bool.false_ne_true
    have hresume : ((s.pause.holding p f).withGraph g).resume =
        ⟨(s.holding p f).withGraph g, .ok 0⟩ := if_neg hwaits
    exact .inr ⟨hno, _, g, hset, hresume⟩

/-- On a sheet that is live and has nothing to calculate, a formula that comes in while calculation
is paused is refused if it comes to read its own cell; else it is computed once calculation is
resumed. -/
theorem Sound.tried (hs : s.Sound) (hlive : s.isLive = true) (hd : s.dirty = ∅)
    (hp : s.cell? p = none) (hgrid : p.OnGrid) (hf : f.diagnostics = []) :
    (s.ComesToRead f p ∧
        ∃ back path, s.pause.setFormula p f = ⟨back, .error (.circular path)⟩ ∧
          back.cell? = s.cell? ∧ back.names = s.names) ∨
      (¬ s.ComesToRead f p ∧ ∃ staged u n, s.pause.setFormula p f = ⟨staged, .ok ()⟩ ∧
        staged.resume = ⟨u, .ok n⟩ ∧ s.Tried p f u) := by
  have hpause : Operation.pause.OnGrid := nofun
  have hpaused : s.pause.Sound := hs.apply hpause
  rcases hpaused.setFormula_waits (Bool.and_false _) hp hgrid hf with h | ⟨hno, g, hsound, hset⟩
  · exact .inl h
  · have hsound' : ((s.holding p f).withGraph g).Sound := by
      have hstaged : ((s.pause.holding p f).withGraph g).Staged ((s.holding p f).withGraph g)
          fun _ => False := staged_of_eq rfl rfl rfl rfl
      exact hstaged.sound hsound hsound.linked fun _ => False.elim
    have hacyclic : ((s.holding p f).withGraph g).IsAcyclic := by
      have hnarrow : s.Narrows ((s.holding p f).withGraph g) (· = .cell p) :=
        fun u v huv hv => (feeds_holding_iff hv).mp huv
      refine (hs.isAcyclic hd).of_narrows hnarrow ?_
      rintro v rfl hv
      exact hno ((transGen_holding_iff (formula?_eq_none hp)).mp hv)
    obtain ⟨u, n, hu, hcomputed, -⟩ := hsound'.calculate_of_isAcyclic hacyclic
    have hresume : ((s.pause.holding p f).withGraph g).resume =
        ((s.holding p f).withGraph g).calculate := if_pos hlive
    exact .inr ⟨hno, _, u, n, hset, hresume.trans hu,
      hcomputed.tried hsound'.proper.onGrid hd hp hno⟩

/-- The value of the formula is the one that it has with its cell in use. -/
theorem Tried.evaluate (h : s.Tried p f t) (hs : (s.inUse p).OnGrid)
    (hf : Steady s.functions.find? f.expr.calls) : t.value p = (s.inUse p).evaluate f := by
  rw [h.value]
  exact (h.alike.evaluate_eq h.extent hs h.onGrid (Or.inr hf)).symm

/-- Where an empty cell in use leaves the ends of endless ranges as they are, it has no part in
values. -/
theorem evaluate_inUse (hp : s.cell? p = none)
    (hclip : ∀ r, Follows s.definition? f.references r → ∀ g ∈ r.regions, g.isBounded = false →
      (s.inUse p).cells.clipped? g = s.cells.clipped? g) :
    (s.inUse p).evaluate f = s.evaluate f := by
  have halike : (s.inUse p).Alike s f.references :=
    ⟨rfl, fun _ _ => rfl, fun _ _ _ _ q _ => value_inUse hp q⟩
  have hends (r : Reference) (hr : Follows s.definition? f.references r) (g : Region)
      (hg : g ∈ r.regions) : (s.inUse p).cells.clipped? g = s.cells.clipped? g := by
    cases hb : g.isBounded with
    | true => rw [Matrix.clipped?_of_isBounded hb, Matrix.clipped?_of_isBounded hb]
    | false => exact hclip r hr g hg hb
  exact Formula.evaluate_congr (halike.agreeOn _ _ fun r hr g hg => blockOf_congr (hends r hr g hg)
    fun _ _ q _ => value_inUse hp q) (halike.sameFunctions _) (Or.inl rfl)

end Sheet

end Spreadsheet
