import Spreadsheet.Proofs.Sheet.Sound

/-! Operations that cannot close a cycle. Whatever does not move cells about lets at most one vertex
come to read something new, and is refused when that vertex would feed itself. On a sheet without
cycles a calculation has nothing to report. -/

namespace Spreadsheet

open Relation

/-- Rows or columns come in or go out. -/
def Operation.isReshaping : Operation → Bool
  | .edit _ => true
  | _ => false

namespace Sheet

variable {s t : Sheet}

/-- Nothing feeds itself. -/
def IsAcyclic (s : Sheet) : Prop := ∀ v, ¬ TransGen s.Feeds v v

/-- Nothing comes to read something new in `t`, except what is `tested`. -/
def Narrows (s t : Sheet) (tested : Vertex → Prop) : Prop :=
  ∀ u v, t.Feeds u v → ¬ tested v → s.Feeds u v

theorem narrows_of_references {tested : Vertex → Prop}
    (h : ∀ v, ¬ tested v → t.references v = s.references v ∨ t.references v = []) :
    s.Narrows t tested := by
  rintro u v ⟨r, hr, hu⟩ hv
  rcases h v hv with he | he
  · exact ⟨r, he ▸ hr, hu⟩
  · rw [he] at hr
    exact absurd hr List.not_mem_nil

theorem IsAcyclic.of_narrows {tested : Vertex → Prop} (hs : s.IsAcyclic) (h : s.Narrows t tested)
    (ht : ∀ v, tested v → ¬ TransGen t.Feeds v v) : t.IsAcyclic := by
  intro v hv
  rcases transGen_or_through (S := s.Feeds) (D := tested) (fun a b hab _ hb => h a b hab hb) hv with
    hv' | ⟨w, hw, hvw, hwv⟩
  · exact hs v hv'
  · exact ht w hw (transGen_rotate hv hvw hwv)

theorem Sound.isAcyclic (hs : s.Sound) (hd : s.dirty = ∅) : s.IsAcyclic := by
  intro v hv
  obtain ⟨d, hd', -⟩ := hs.cycles v hv
  rw [hd] at hd'
  exact Std.ExtTreeSet.not_mem_empty hd'

/-- Where nothing feeds itself, the graph has no cycle either. -/
theorem Linked.graph_acyclic (hs : s.Linked) (ha : s.IsAcyclic) (v : Vertex) :
    ¬ TransGen s.graph.Edge v v := by
  intro h
  obtain ⟨w, -, -, hw⟩ := hs.exists_cycle h
  exact ha w hw

/-! ## Plans -/

/-- No sheet that the plan can lead to has something read anew, except what is tested. -/
def Plan.Narrows (s : Sheet) : Plan → Prop
  | .refuse _ => True
  | .leave t _ | .settle t _ | .calculate t => s.Narrows t fun _ => False
  | .check t v back => s.Narrows t (· = v) ∧ s.Narrows back fun _ => False

theorem narrows_refl (s : Sheet) : s.Narrows s fun _ => False := fun _ _ h _ => h

/-- Where a cell differs, it is tested or has no formula. -/
theorem narrows_of_formula? {tested : Vertex → Prop} (hn : t.names = s.names)
    (h : ∀ p, ¬ tested (.cell p) → t.formula? p = s.formula? p ∨ t.formula? p = none) :
    s.Narrows t tested := by
  refine narrows_of_references fun v hv => ?_
  cases v with
  | region g => exact Or.inl rfl
  | name n => exact Or.inl (references_congr nofun fun m _ => by rw [hn])
  | cell p =>
    rcases h p hv with he | he
    · exact Or.inl (references_congr (fun q hq => by cases hq; exact he) nofun)
    · exact Or.inr (by simp only [references, he]; rfl)

theorem planClear_narrows (s : Sheet) (p : Position) : (s.planClear p).Narrows s := by
  have h : s.Narrows (s.withCells (s.cells.remove p)) fun _ => False :=
    narrows_of_formula? rfl fun q _ => by
      by_cases hq : p = q
      · subst hq
        exact Or.inr (s.formula?_remove p)
      · exact Or.inl (formula?_withCells (Matrix.get?_remove_of_ne _ hq))
  unfold planClear
  split <;> exact h

theorem planValue_narrows (s : Sheet) (p : Position) (v : Value) :
    (s.planValue p v).Narrows s := by
  unfold planValue
  split
  · exact s.planClear_narrows p
  · refine narrows_of_formula? rfl fun q _ => ?_
    by_cases hq : p = q
    · subst hq
      exact Or.inr (s.formula?_set p (.ofValue v))
    · exact Or.inl (formula?_withCells (Matrix.get?_set_of_ne _ _ hq))

theorem planFormula_narrows (s : Sheet) (p : Position) (f : Formula) :
    (s.planFormula p f).Narrows s := by
  unfold planFormula
  split
  · trivial
  · refine ⟨narrows_of_formula? rfl fun q hq => Or.inl ?_, narrows_of_formula? rfl fun q _ =>
      Or.inl (formula?_withCells (Matrix.get?_occupied ..))⟩
    exact formula?_withCells (Matrix.get?_set_of_ne _ _ fun e => hq (by rw [e]))

theorem planContents_narrows (s : Sheet) (p : Position) (c : Option Contents) :
    (s.planContents p c).Narrows s := by
  cases c with
  | none => exact s.planClear_narrows p
  | some c =>
    cases c with
    | value v => exact s.planValue_narrows p v
    | formula f => exact s.planFormula_narrows p f

theorem planClearRegion_narrows (s : Sheet) (r : Region) :
    (s.plan (.clearRegion r)).Narrows s := by
  refine narrows_of_formula? rfl fun q _ => ?_
  by_cases hq : r.contains q = true
  · exact Or.inr (s.formula?_removeRegion hq)
  · have hget : (s.cells.removeRegion r).get? q = s.cells.get? q := by
      rw [Matrix.get?_removeRegion, if_neg hq]
    exact Or.inl (formula?_withCells hget)

theorem narrows_withNames {ns : Std.ExtTreeMap String Definition} {key : String}
    {tested : Vertex → Prop} (hn : ∀ n, n ≠ key → ns[n]? = s.names[n]?)
    (hkey : tested (.name key) ∨ ns[key]? = none) (vs : List Vertex) :
    s.Narrows ((s.withNames ns).markDirty vs) tested := by
  refine narrows_of_references fun v hv => ?_
  cases v with
  | region g => exact Or.inl rfl
  | cell p => exact Or.inl rfl
  | name n =>
    by_cases hnk : n = key
    · subst hnk
      refine Or.inr ?_
      simp only [references, markDirty, withNames, hkey.resolve_left hv]
      rfl
    · refine Or.inl (references_congr (fun p e => ?_) fun m e => ?_)
      · cases e
      · cases e
        exact hn n hnk

/-- Only an edit of the grid can make more than one vertex read something new. -/
theorem plan_narrows (s : Sheet) {op : Operation} (hop : op.isReshaping = false) :
    (s.plan op).Narrows s := by
  cases op with
  | setValue p v => exact s.planValue_narrows p v
  | setFormula p f => exact s.planFormula_narrows p f
  | setInput p text => exact s.planContents_narrows p _
  | clear p => exact s.planClear_narrows p
  | clearRegion r => exact s.planClearRegion_narrows r
  | copy source target => exact s.planContents_narrows target _
  | define name d =>
    change (s.planDefine name d).Narrows s
    unfold planDefine
    split
    · trivial
    · refine ⟨narrows_withNames (insert_getElem? d) (Or.inl ?_) _, s.narrows_refl⟩
      rfl
  | undefine name =>
    change (s.planUndefine name).Narrows s
    unfold planUndefine
    dsimp only
    split
    · exact narrows_withNames erase_getElem? (Or.inr (by simp)) _
    · exact s.narrows_refl
  | edit e => contradiction
  | setFormat r f => cases f <;> exact s.narrows_refl
  | pause => exact s.narrows_refl
  | resume => exact s.narrows_refl
  | setAutoCalculate on => exact s.narrows_refl
  | calculate => exact s.narrows_refl
  | calculateAll => exact s.narrows_refl
  | setFunctions functions => exact s.narrows_refl

/-! ## Calculations -/

theorem Sound.calculate_of_isAcyclic (hs : s.Sound) (ha : s.IsAcyclic) :
    ∃ t n, s.calculate = ⟨t, .ok n⟩ ∧ s.Computed t ∧ s.CountsAffected n := by
  rcases calculate_spec hs.linked hs.dirty hs.proper.onGrid with ⟨⟨v, -, hv⟩, -⟩ | ⟨-, h⟩
  · exact absurd hv (ha v)
  · exact h

theorem Computed.isAcyclic (h : s.Computed t) (ha : s.IsAcyclic) : t.IsAcyclic := by
  intro v hv
  rw [h.feeds] at hv
  exact ha v hv

/-- On a sheet without cycles, settling has no reason to fail. -/
theorem Sound.resettle_of_isAcyclic (hs : s.Sound) (ha : s.IsAcyclic) :
    ∃ t n, s.resettle = ⟨t, .ok n⟩ ∧ t.IsAcyclic := by
  unfold Sheet.resettle
  split
  · obtain ⟨t, n, he, h, -⟩ := hs.calculate_of_isAcyclic ha
    exact ⟨t, n, he, h.isAcyclic ha⟩
  · exact ⟨s, 0, rfl, ha⟩

end Sheet

end Spreadsheet
