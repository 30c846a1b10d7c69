import Spreadsheet.Proofs.Sheet.Agreement
import Spreadsheet.Proofs.Sheet.Circularity

/-! What a calculation computes, and in what order. The walk behind it starts from the edited
vertices and the regions around edited cells, so what it meets among the formulas is what depends on
an edit; each is met once, and none before what it reads. -/

namespace Spreadsheet

open Relation

/-- In an order, nothing depends on what comes later. -/
theorem Graph.InOrder.pairwise {V : Type} [Ord V] [Std.TransOrd V] {g : Graph V}
    {member : V → Bool} (closed : ∀ u v, g.Edge u v → member u = true → member v = true)
    {order : List V} (h : g.InOrder member order) (hm : ∀ v ∈ order, member v = true) :
    order.Pairwise fun later v => ¬ TransGen g.Edge later v := by
  induction order with
  | nil => exact .nil
  | cons v before ih =>
    have hlast := h.not_transGen closed (hm v List.mem_cons_self)
    refine .cons (fun u hu => hlast u (List.mem_cons_of_mem v hu)) (ih h.2.2 ?_)
    intro u hu
    exact hm u (List.mem_cons_of_mem v hu)

namespace Sheet

variable {s t : Sheet}

/-- The cells whose formulas a calculation computes, in the order in which it does. -/
def computations (s : Sheet) : List Position :=
  match s.schedule with
  | .ok order => (order.filterMap Vertex.cell?).filter s.isFormula
  | .error _ => []

/-! ## The order -/

/-- What a schedule computes is what is affected, in an order in which nothing reads what comes
after it. -/
theorem computations_spec (hs : s.Linked) (hd : ∀ d ∈ s.dirty, d.region? = none) {order : List Vertex}
    (ho : s.schedule = .ok order) :
    (∀ p, p ∈ s.computations ↔ s.isFormula p = true ∧ s.IsAffected (.cell p)) ∧
      s.computations.Nodup ∧
      s.computations.Pairwise fun p later => ¬ TransGen s.Feeds (.cell later) (.cell p) := by
  obtain ⟨hmem, horder⟩ := Graph.sortWithin_ok hs.mirrored ho
  have hcomp : s.computations = (order.filterMap Vertex.cell?).filter s.isFormula := by
    simp only [computations, ho]
  have hiff (p : Position) :
      p ∈ s.computations ↔ s.isFormula p = true ∧ s.IsAffected (.cell p) := by
    rw [hcomp, List.mem_filter, mem_filterMap_cell?, hmem, mem_affected hs hd rfl, and_comm]
  have hnodup : order.Nodup := List.nodup_reverse.mp horder.nodup
  refine ⟨hiff, ?_, ?_⟩
  · rw [hcomp]
    exact (nodup_filterMap_cell? hnodup).filter _
  · have closed (u v : Vertex) (he : s.graph.Edge u v) (hu : s.affected.contains u = true) :
        s.affected.contains v = true :=
      Std.ExtTreeSet.contains_iff_mem.mpr
        (affected_closed hs he (Std.ExtTreeSet.contains_iff_mem.mp hu))
    have hpair : order.Pairwise fun v later => ¬ TransGen s.graph.Edge later v := by
      refine List.pairwise_reverse.mp (horder.pairwise closed fun v hv => ?_)
      exact Std.ExtTreeSet.contains_iff_mem.mpr ((hmem v).mp (List.mem_reverse.mp hv))
    have hcells : (order.filterMap Vertex.cell?).Pairwise fun p later =>
        ¬ TransGen s.graph.Edge (.cell later) (.cell p) := by
      refine List.pairwise_filterMap.mpr (hpair.imp ?_)
      intro v later hno p hp q hq
      cases v <;> cases later <;> simp_all [Vertex.cell?]
    have hformulas := hcells.sublist (List.filter_sublist (p := s.isFormula))
    rw [← hcomp] at hformulas
    refine hformulas.imp_of_mem fun {p later} _ hlater hno hfeeds => hno (hs.transGen_edge ?_ hfeeds)
    rintro q e
    cases e
    exact ((hiff later).mp hlater).1

/-! ## The run -/

/-- A cell without a formula is passed over. -/
theorem evaluateCell_eq_self {p : Position} (h : s.isFormula p = false) : s.evaluateCell p = s := by
  have hr := revalued_evaluateCell s p
  have hcells : (s.evaluateCell p).cells = s.cells :=
    Matrix.ext_get? hr.axis.symm hr.vacant.symm (evaluateCell_of_not_formula h)
  rw [hr.rest, hcells]
  rfl

theorem evaluateCells_filter (ps : List Position) (s : Sheet) :
    ps.foldl evaluateCell s = (ps.filter s.isFormula).foldl evaluateCell s := by
  induction ps generalizing s with
  | nil => rfl
  | cons p ps ih =>
    have hsame : (s.evaluateCell p).isFormula = s.isFormula :=
      funext (revalued_evaluateCell s p).isFormula
    rw [List.foldl_cons, ih, hsame]
    by_cases hp : s.isFormula p = true
    · rw [List.filter_cons_of_pos hp, List.foldl_cons]
    · rw [List.filter_cons_of_neg hp, evaluateCell_eq_self (by simpa using hp)]

theorem value_evaluateCells_of_not_mem {ps : List Position} {q : Position} (h : q ∉ ps)
    (s : Sheet) : (ps.foldl evaluateCell s).value q = s.value q := by
  induction ps generalizing s with
  | nil => rfl
  | cons p ps ih =>
    obtain ⟨hqp, hq⟩ := not_or.mp (mt List.mem_cons.mpr h)
    rw [List.foldl_cons, ih hq, value_evaluateCell_of_ne (Ne.symm hqp)]

/-- What a cell shows after a run is what its formula gave when its turn came. -/
theorem value_evaluateCells {before after : List Position} {p : Position} {f : Formula}
    (hp : p ∉ after) (hf : s.formula? p = some f) :
    ((before ++ p :: after).foldl evaluateCell s).value p =
      f.evaluate ((before.foldl evaluateCell s).sourceFor p) := by
  rw [List.foldl_append, List.foldl_cons, value_evaluateCells_of_not_mem hp]
  exact value_evaluateCell (((revalued_evaluateCells before s).formula? p).trans hf)

theorem calculate_of_schedule {order : List Vertex} (ho : s.schedule = .ok order) :
    s.calculate = ⟨s.computations.foldl evaluateCell { s with dirty := ∅ },
      .ok s.computations.length⟩ := by
  have hcomp : s.computations = (order.filterMap Vertex.cell?).filter s.isFormula := by
    simp only [computations, ho]
  unfold calculate
  split
  · rename_i hempty
    -- nothing is edited, so nothing is in the order
    have hd : s.dirty = ∅ := Std.ExtTreeSet.isEmpty_iff.mp hempty
    have hnil : order = [] := by
      have hroots : s.roots = [] := by simp [roots, hd]
      have haffected : s.affected = ∅ := by simp [affected, Graph.closure, hroots]
      have hsort : Except.ok [] = s.schedule := by
        simp only [schedule, haffected]
        rfl
      rw [ho] at hsort
      cases hsort
      rfl
    have hs : ({ s with dirty := ∅ } : Sheet) = s := by rw [← hd]
    simp only [hcomp, hnil, hs]
    rfl
  · simp only [ho]
    unfold evaluateAll countFormulas
    rw [List.countP_eq_length_filter, ← hcomp, evaluateCells_filter, hcomp]
    rfl

/-- A calculation on a sheet whose graph has no cycle computes every formula that was edited or
that reads, directly or through others, something edited, and no other; each of them once, and after
all the others that it reads. What it comes to is what the formula gives on the sheet as it is when
its turn comes, and still gives on the sheet in the end. The calculation says how many there were, and
nothing waits any more. Except for their values everything is as before. -/
theorem calculation_scheduled (hs : s.Reachable) (ha : ∀ v, ¬ TransGen s.graph.Edge v v) :
    (∀ p, p ∈ s.computations ↔
        s.isFormula p = true ∧ ∃ d ∈ s.dirty, ReflTransGen s.Feeds d (.cell p)) ∧
      s.computations.Nodup ∧
      s.computations.Pairwise (fun p later => ¬ TransGen s.Feeds (.cell later) (.cell p)) ∧
      s.calculate = ⟨s.computations.foldl evaluateCell { s with dirty := ∅ },
        .ok s.computations.length⟩ ∧
      (∀ before p after f, s.computations = before ++ p :: after → s.formula? p = some f →
        s.calculate.sheet.value p =
          f.evaluate ((before.foldl evaluateCell { s with dirty := ∅ }).sourceFor p) ∧
        s.calculate.sheet.value p = f.evaluate (s.calculate.sheet.sourceFor p)) ∧
      s.calculate.sheet.dirty = ∅ ∧
      (∀ p, p ∉ s.computations → s.calculate.sheet.value p = s.value p) ∧
      (∀ p, s.calculate.sheet.contents? p = s.contents? p) ∧
      s.calculate.sheet.names = s.names ∧ s.calculate.sheet.formats = s.formats ∧
      s.calculate.sheet.graph = s.graph := by
  have hsound := hs.sound
  have hno (v : Vertex) (_ : s.IsAffected v) : ¬ TransGen s.Feeds v v := fun hv =>
    ha v ((hsound.linked.cycle_iff (region?_of_transGen hv)).mpr hv)
  obtain ⟨order, ho⟩ := (schedule_isOk hsound.linked hsound.dirty).mpr hno
  obtain ⟨hiff, hnodup, hpair⟩ := computations_spec hsound.linked hsound.dirty ho
  rcases calculate_spec hsound.linked hsound.dirty hsound.proper.onGrid with
    ⟨⟨v, hv, hc⟩, -⟩ | ⟨-, t, n, he, h, -⟩
  · exact absurd hc (hno v hv)
  · have hrun := calculate_of_schedule ho
    refine ⟨hiff, hnodup, hpair, hrun, fun before p after f hsplit hf => ⟨?_, ?_⟩, ?_⟩
    · rw [hsplit] at hnodup
      rw [hrun, hsplit]
      exact value_evaluateCells (List.nodup_cons.mp (List.nodup_append.mp hnodup).2.1).1 hf
    · have hp : p ∈ s.computations := by
        rw [hsplit]
        exact List.mem_append_right _ List.mem_cons_self
      rw [he]
      exact h.computed p f ((hiff p).mp hp).2 hf
    rw [he]
    refine ⟨h.dirty, fun p hp => ?_, h.revalued.sameInput.contents, ?_⟩
    · by_cases hf : s.isFormula p = true
      · exact value_congr (h.unaffected p fun hd => hp ((hiff p).mpr ⟨hf, hd⟩))
      · rcases h.revalued.cell p with e | ⟨f, v, w, hcell, -⟩
        · exact value_congr e
        · exact absurd (isFormula_of_formula? (formula?_of_cell? (s := s) hcell)) hf
    · rw [h.cells_eq]
      exact ⟨rfl, rfl, rfl⟩

/-- `total` stands for the first column, `=total` is in `B1` and `=B1` in `C1`. Filling `A1` makes
both formulas be computed, one after the other, though `A1` is no vertex of the graph. -/
theorem calculation_scheduled_through_name :
    let a : Ambient := ⟨.midnight 0, 0⟩
    let s := (Sheet.empty "Sheet1" default .empty a).after
      [⟨a, .define "total" (.reference (.single (.between (.column ⟨0, false⟩ true)
          (.column ⟨0, false⟩ true))))⟩,
        ⟨a, .setFormula ⟨0, 1⟩ (.ofExpr (.name "total"))⟩,
        ⟨a, .setFormula ⟨0, 2⟩ (.ofExpr (.reference (.ofPosition ⟨0, 1⟩)))⟩,
        ⟨a, .pause⟩, ⟨a, .setValue ⟨0, 0⟩ (.logical true)⟩]
    s.computations = [⟨0, 1⟩, ⟨0, 2⟩] ∧ s.calculate.answer = .ok 2 ∧
      s.calculate.sheet.value ⟨0, 2⟩ = .array [[.logical true]] ∧
      s.calculate.sheet.value ⟨0, 2⟩ =
        (Formula.ofExpr (.reference (.ofPosition ⟨0, 1⟩))).evaluate
          ((evaluateCell { s with dirty := ∅ } ⟨0, 1⟩).sourceFor ⟨0, 2⟩) ∧
      s.calculate.sheet.dirty = ∅ ∧ s.calculate.sheet.graph = s.graph := by
  intro a s
  have hcarried : s.CarriedAlong :=
    (((((CarriedAlong.settled (.empty "Sheet1" default .empty a) rfl).call
      ⟨a, .define "total" (.reference (.single (.between (.column ⟨0, false⟩ true)
          (.column ⟨0, false⟩ true))))⟩ (by decide) nofun).call
      ⟨a, .setFormula ⟨0, 1⟩ (.ofExpr (.name "total"))⟩ (by decide) nofun).call
      ⟨a, .setFormula ⟨0, 2⟩ (.ofExpr (.reference (.ofPosition ⟨0, 1⟩)))⟩ (by decide) nofun).call
      ⟨a, .pause⟩ (by decide) nofun).call
      ⟨a, .setValue ⟨0, 0⟩ (.logical true)⟩ (by decide) nofun
  have hacyclic := hcarried.reachable.sound.linked.graph_acyclic hcarried.isAcyclic
  obtain ⟨-, -, -, hcalculate, hvalue, hdirty, -, -, -, -, hgraph⟩ :=
    calculation_scheduled hcarried.reachable hacyclic
  have hrun : s.computations = [⟨0, 1⟩, ⟨0, 2⟩] := by decide +kernel
  have hformula : s.formula? ⟨0, 2⟩ = some (.ofExpr (.reference (.ofPosition ⟨0, 1⟩))) := by
    subst s a
    rfl
  obtain ⟨hturn, -⟩ := hvalue [⟨0, 1⟩] ⟨0, 2⟩ [] _ hrun hformula
  refine ⟨hrun, ?_, ?_, hturn, hdirty, hgraph⟩
  · rw [hcalculate, hrun]
    rfl
  · subst s a
    rfl

end Sheet

end Spreadsheet
