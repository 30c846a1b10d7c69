import Mathlib.Data.List.Nodup
import Spreadsheet.Proofs.Sheet.Affected
import Spreadsheet.Proofs.Sheet.Determined

/-! What a calculation does. It computes the affected formulas in an order in which each comes after
all that it reads, so no formula that has been computed reads one that is computed later, and in the
end every affected formula has the value that the sheet as it is then gives it. -/

namespace Spreadsheet.Sheet

open Relation

variable {s t : Sheet}

/-- `t` differs from `s` in the values of formulas at most. -/
structure Revalued (s t : Sheet) : Prop where
  rest : t = s.withCells t.cells
  axis : s.cells.axis = t.cells.axis
  vacant : s.cells.vacant = t.cells.vacant
  cell : ∀ p, t.cell? p = s.cell? p ∨
    ∃ f v w, s.cell? p = some ⟨.formula f, v⟩ ∧ t.cell? p = some ⟨.formula f, w⟩

namespace Revalued

theorem refl (s : Sheet) : s.Revalued s := ⟨rfl, rfl, rfl, fun _ => Or.inl rfl⟩

theorem trans {u : Sheet} (h : s.Revalued t) (h' : t.Revalued u) : s.Revalued u where
  rest := by
    rw [h'.rest, h.rest]
    rfl
  axis := h.axis.trans h'.axis
  vacant := h.vacant.trans h'.vacant
  cell p := by
    rcases h'.cell p with e | ⟨f, v, w, ht, hu⟩
    · rw [e]
      exact h.cell p
    · rcases h.cell p with e | ⟨f', v', w', hs, ht'⟩
      · exact Or.inr ⟨f, v, w, e ▸ ht, hu⟩
      · rw [ht'] at ht
        cases ht
        exact Or.inr ⟨f, v', w, hs, hu⟩

theorem formula? (h : s.Revalued t) (p : Position) : t.formula? p = s.formula? p := by
  unfold Sheet.formula?
  rcases h.cell p with e | ⟨f, v, w, hs, ht⟩
  · rw [e]
  · rw [hs, ht]
    rfl

theorem isFormula (h : s.Revalued t) (p : Position) : t.isFormula p = s.isFormula p := by
  unfold Sheet.isFormula
  rw [h.formula?]

theorem filled (h : s.Revalued t) (p : Position) : (s.cell? p).isSome = (t.cell? p).isSome := by
  rcases h.cell p with e | ⟨f, v, w, hs, ht⟩
  · rw [e]
  · rw [hs, ht]
    rfl

theorem sameExtent (h : s.Revalued t) : s.cells.SameExtent t.cells := ⟨h.axis, h.vacant, h.filled⟩

theorem onGrid (h : s.Revalued t) (hs : s.OnGrid) : t.OnGrid := fun p hp =>
  hs p (by rw [h.filled p, hp])

theorem names (h : s.Revalued t) : t.names = s.names := by rw [h.rest]; rfl

theorem definition? (h : s.Revalued t) : t.definition? = s.definition? := by rw [h.rest]; rfl

theorem functions (h : s.Revalued t) : t.functions = s.functions := by rw [h.rest]; rfl

theorem references (h : s.Revalued t) : t.references = s.references := by
  funext v
  exact references_congr (fun p _ => h.formula? p) fun n _ => by rw [h.names]

theorem feeds (h : s.Revalued t) : t.Feeds = s.Feeds := by
  funext u v
  unfold Feeds
  rw [h.references]

theorem linked (h : s.Revalued t) (hs : s.Linked) : t.Linked := by
  have hw := hs.reopen (t := t) (by rw [h.rest]; rfl)
    (fun v (_ : ¬ False) => congrFun h.references v) fun q (_ : ¬ False) => h.isFormula q
  have hg : t.graph = s.graph := by
    rw [h.rest]
    rfl
  unfold Linked
  rwa [hg]

end Revalued

/-- The sheets give a formula the same value when they agree on what feeds its cell. -/
theorem Revalued.alike (h : s.Revalued t) {p : Position} {f : Formula} (hf : s.formula? p = some f)
    (hv : ∀ q, TransGen s.Feeds (.cell q) (.cell p) → s.value q = t.value q) :
    s.Alike t f.references where
  functions := h.functions.symm
  names _ _ := by rw [h.definition?]
  value _ hr _ hg q hq := hv q (feeds_of_follows_cell hf hr hg hq)

theorem Revalued.evaluate_eq (h : s.Revalued t) (hgrid : s.OnGrid) {p : Position} {f : Formula}
    (hf : s.formula? p = some f)
    (hv : ∀ q, TransGen s.Feeds (.cell q) (.cell p) → s.value q = t.value q) :
    f.evaluate (s.sourceFor p) = f.evaluate (t.sourceFor p) := by
  have hambient : t.ambient = s.ambient := by rw [h.rest]; rfl
  unfold sourceFor
  rw [hambient]
  exact (h.alike hf hv).evaluate_eq h.sameExtent hgrid (h.onGrid hgrid) (Or.inl rfl)

/-! ## One cell -/

theorem cell?_evaluateCell (s : Sheet) (p q : Position) :
    (s.evaluateCell p).cell? q =
      if p = q then (s.cell? q).map (·.evaluated (s.sourceFor p)) else s.cell? q :=
  Matrix.get?_modify ..

theorem revalued_evaluateCell (s : Sheet) (p : Position) : s.Revalued (s.evaluateCell p) where
  rest := rfl
  axis := (Matrix.axis_modify ..).symm
  vacant := (Matrix.vacant_modify ..).symm
  cell q := by
    rw [cell?_evaluateCell]
    split
    · cases hc : s.cell? q with
      | none => exact Or.inl rfl
      | some c =>
        obtain ⟨contents, v⟩ := c
        cases contents with
        | value w => exact Or.inl rfl
        | formula f => exact Or.inr ⟨f, v, _, rfl, rfl⟩
    · exact Or.inl rfl

theorem evaluateCell_of_not_formula {p : Position} (h : s.isFormula p = false) (q : Position) :
    (s.evaluateCell p).cell? q = s.cell? q := by
  rw [cell?_evaluateCell]
  split
  · rename_i e
    subst e
    cases hc : s.cell? p with
    | none => rfl
    | some c =>
      obtain ⟨contents, v⟩ := c
      cases contents with
      | value w => rfl
      | formula f =>
        unfold isFormula formula? at h
        rw [hc] at h
        contradiction
  · rfl

theorem value_evaluateCell {p : Position} {f : Formula} (h : s.formula? p = some f) :
    (s.evaluateCell p).value p = f.evaluate (s.sourceFor p) := by
  unfold value
  rw [cell?_evaluateCell, if_pos rfl]
  obtain ⟨c, hc, hf⟩ := Option.bind_eq_some_iff.mp h
  rw [hc]
  obtain ⟨contents, v⟩ := c
  cases contents with
  | value w => contradiction
  | formula g =>
    cases hf
    rfl

theorem value_evaluateCell_of_ne {p q : Position} (h : p ≠ q) :
    (s.evaluateCell p).value q = s.value q := by
  unfold value
  rw [cell?_evaluateCell, if_neg h]

/-! ## All cells in order -/

theorem revalued_evaluateCells (ps : List Position) (s : Sheet) :
    s.Revalued (ps.foldl evaluateCell s) := by
  induction ps generalizing s with
  | nil => exact .refl s
  | cons p ps ih => exact (revalued_evaluateCell s p).trans (ih (s.evaluateCell p))

/-- The formulas of the cells in `order` have been computed, and nothing else has. -/
structure ComputedAlong (s t : Sheet) (order : List Vertex) : Prop where
  revalued : s.Revalued t
  untouched : ∀ p, .cell p ∉ order → t.cell? p = s.cell? p
  computed : ∀ p f, .cell p ∈ order → s.formula? p = some f →
    t.value p = f.evaluate (t.sourceFor p)

theorem evaluateAll_append (s : Sheet) (vs ws : List Vertex) :
    s.evaluateAll (vs ++ ws) = (s.evaluateAll vs).evaluateAll ws := by
  unfold evaluateAll
  rw [List.filterMap_append, List.foldl_append]

/-- One more formula is computed. None of those before reads it, nor does it read itself. -/
theorem ComputedAlong.evaluateCell {before : List Vertex} {p : Position}
    (h : s.ComputedAlong t before) (hgrid : s.OnGrid)
    (hlast : s.isFormula p = true →
      ∀ x ∈ Vertex.cell p :: before, ¬ TransGen s.Feeds (.cell p) x) :
    s.ComputedAlong (t.evaluateCell p) (.cell p :: before) := by
  have hr := revalued_evaluateCell t p
  refine ⟨h.revalued.trans hr, fun q hq => ?_, fun q f hq hf => ?_⟩
  · rw [← h.untouched q fun hm => hq (List.mem_cons_of_mem _ hm), cell?_evaluateCell, if_neg]
    rintro rfl
    exact hq List.mem_cons_self
  · have htf : t.formula? q = some f := (h.revalued.formula? q).trans hf
    have heval : f.evaluate (t.sourceFor q) = f.evaluate ((t.evaluateCell p).sourceFor q) := by
      refine hr.evaluate_eq (h.revalued.onGrid hgrid) htf fun x hx => ?_
      by_cases hxp : p = x
      · subst hxp
        by_cases hpf : s.isFormula p = true
        · rw [h.revalued.feeds] at hx
          exact absurd hx (hlast hpf _ hq)
        · unfold value
          rw [evaluateCell_of_not_formula]
          rw [h.revalued.isFormula]
          simpa using hpf
      · exact (value_evaluateCell_of_ne hxp).symm
    by_cases hqp : p = q
    · subst hqp
      rw [value_evaluateCell htf]
      exact heval
    · rw [value_evaluateCell_of_ne hqp, ← heval]
      refine h.computed q f ?_ hf
      rcases List.mem_cons.mp hq with e | hq
      · exact absurd (Vertex.cell.inj e).symm hqp
      · exact hq

theorem computedAlong_evaluateAll (hs : s.Linked) (hgrid : s.OnGrid) {member : Vertex → Bool}
    (closed : ∀ u v, s.graph.Edge u v → member u = true → member v = true) (order : List Vertex)
    (h : s.graph.InOrder member order) (hm : ∀ v ∈ order, member v = true) :
    s.ComputedAlong (s.evaluateAll order.reverse) order := by
  induction order with
  | nil => exact ⟨.refl s, fun _ _ => rfl, fun p f hp => absurd hp List.not_mem_nil⟩
  | cons v before ih =>
    have hb := ih h.2.2 fun x hx => hm x (List.mem_cons_of_mem v hx)
    have hlast := h.not_transGen closed (hm v List.mem_cons_self)
    rw [List.reverse_cons, evaluateAll_append]
    have hother (hv : ∀ p, v ≠ .cell p) :
        s.ComputedAlong (s.evaluateAll before.reverse) (v :: before) := by
      have hmem (p : Position) : Vertex.cell p ∈ v :: before ↔ .cell p ∈ before := by
        rw [List.mem_cons, or_iff_right fun e => hv p e.symm]
      exact ⟨hb.revalued, fun p hp => hb.untouched p fun hm => hp ((hmem p).mpr hm),
        fun p f hp => hb.computed p f ((hmem p).mp hp)⟩
    cases v with
    | region g => exact hother fun p e => nomatch e
    | name n => exact hother fun p e => nomatch e
    | cell p =>
      refine hb.evaluateCell hgrid fun hpf x hx hpx => hlast x hx (hs.transGen_edge ?_ hpx)
      rintro q e
      cases e
      exact hpf

/-! ## A calculation -/

/-- `t` is `s` with every affected formula computed. -/
structure Computed (s t : Sheet) : Prop where
  revalued : ({ s with dirty := ∅ } : Sheet).Revalued t
  unaffected : ∀ p, ¬ s.IsAffected (.cell p) → t.cell? p = s.cell? p
  computed : ∀ p f, s.IsAffected (.cell p) → s.formula? p = some f →
    t.value p = f.evaluate (t.sourceFor p)

theorem mem_filterMap_cell? {vs : List Vertex} {p : Position} :
    p ∈ vs.filterMap Vertex.cell? ↔ .cell p ∈ vs := by
  rw [List.mem_filterMap]
  constructor
  · intro h
    obtain ⟨v, hv, hp⟩ := h
    cases v with
    | cell q =>
      cases hp
      exact hv
    | region g => contradiction
    | name n => contradiction
  · intro h
    exact ⟨.cell p, h, rfl⟩

theorem nodup_filterMap_cell? {vs : List Vertex} (h : vs.Nodup) :
    (vs.filterMap Vertex.cell?).Nodup := by
  refine List.Nodup.filterMap ?_ h
  intro u v p hu hv
  cases u <;> cases v <;> simp_all [Vertex.cell?]

/-- There are `n` affected formulas. -/
def CountsAffected (s : Sheet) (n : Nat) : Prop :=
  ∃ ps : List Position, ps.Nodup ∧
    (∀ p, p ∈ ps ↔ s.IsAffected (.cell p) ∧ s.isFormula p = true) ∧ ps.length = n

theorem countFormulas_spec {order : List Vertex} (hn : order.Nodup)
    (hm : ∀ p, .cell p ∈ order ↔ s.IsAffected (.cell p)) :
    s.CountsAffected (s.countFormulas order) := by
  refine ⟨(order.filterMap Vertex.cell?).filter s.isFormula, ?_, fun p => ?_, ?_⟩
  · exact (nodup_filterMap_cell? hn).filter _
  · rw [List.mem_filter, mem_filterMap_cell?, hm]
  · unfold countFormulas
    exact List.countP_eq_length_filter.symm

/-- A calculation computes all that is affected, unless something affected would feed itself; then
it leaves the sheet as it was. -/
theorem calculate_spec (hs : s.Linked) (hd : ∀ d ∈ s.dirty, d.region? = none) (hgrid : s.OnGrid) :
    ((∃ v, s.IsAffected v ∧ TransGen s.Feeds v v) ∧
        ∃ path, s.calculate = ⟨s, .error (.circular path)⟩) ∨
      ((∀ v, s.IsAffected v → ¬ TransGen s.Feeds v v) ∧
        ∃ t n, s.calculate = ⟨t, .ok n⟩ ∧ s.Computed t ∧ s.CountsAffected n) := by
  unfold calculate
  split
  · rename_i hempty
    have hno (v : Vertex) : ¬ s.IsAffected v := by
      intro hsome
      obtain ⟨d, hmem, -⟩ := hsome
      rw [Std.ExtTreeSet.isEmpty_iff.mp hempty] at hmem
      exact Std.ExtTreeSet.not_mem_empty hmem
    have hs' : ({ s with dirty := ∅ } : Sheet) = s := by
      rw [← Std.ExtTreeSet.isEmpty_iff.mp hempty]
    refine Or.inr ⟨fun v hv => absurd hv (hno v), s, 0, rfl, ⟨?_, fun _ _ => rfl, fun p _ hp =>
      absurd hp (hno _)⟩, [], List.nodup_nil, fun p => ?_, rfl⟩
    · rw [hs']
      exact .refl s
    · simp [hno]
  · cases ho : s.schedule with
    | error path =>
      refine Or.inl ⟨?_, path, rfl⟩
      by_contra hno
      obtain ⟨order, h⟩ := (schedule_isOk hs hd).mpr fun v hv hc => hno ⟨v, hv, hc⟩
      rw [h] at ho
      contradiction
    | ok order =>
      refine Or.inr ⟨(schedule_isOk hs hd).mp ⟨order, ho⟩, _, _, rfl, ?_, ?_⟩
      all_goals
        obtain ⟨hmem, horder⟩ := Graph.sortWithin_ok hs.mirrored ho
        have hcell (p : Position) : .cell p ∈ order ↔ s.IsAffected (.cell p) :=
          (hmem _).trans (mem_affected hs hd rfl)
      · have closed (u v : Vertex) (he : s.graph.Edge u v) (hu : s.affected.contains u = true) :
            s.affected.contains v = true :=
          Std.ExtTreeSet.contains_iff_mem.mpr
            (affected_closed hs he (Std.ExtTreeSet.contains_iff_mem.mp hu))
        have h := computedAlong_evaluateAll (s := { s with dirty := ∅ }) hs hgrid closed
          order.reverse horder fun v hv =>
            Std.ExtTreeSet.contains_iff_mem.mpr ((hmem v).mp (List.mem_reverse.mp hv))
        rw [List.reverse_reverse] at h
        refine ⟨h.revalued, fun p hp => h.untouched p fun hm => ?_, fun p f hp hf =>
          h.computed p f (List.mem_reverse.mpr ((hcell p).mpr hp)) hf⟩
        exact hp ((hcell p).mp (List.mem_reverse.mp hm))
      · exact countFormulas_spec (List.nodup_reverse.mp horder.nodup) hcell

end Spreadsheet.Sheet
