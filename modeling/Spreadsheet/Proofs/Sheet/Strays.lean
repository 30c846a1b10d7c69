import Spreadsheet.Proofs.Sheet.Sound
import Spreadsheet.Proofs.Sheet.Upkeep

/-! The graph against the one that would be made anew. They agree after every operation, refused
ones included, except that emptying a region can leave strays: a formula in it that reads another
one directly is emptied first, takes that one out of the graph, and what only that one read
stays. -/

namespace Spreadsheet.Sheet

variable {s t : Sheet} {lax : Prop} {fresh loose : Vertex → Prop}

/-- No formula in the region is read as a cell by one that is emptied before it. -/
def IsLayered (s : Sheet) (r : Region) : Prop :=
  (s.cells.linesIn r).Pairwise fun c later => c.2.isFormula = true → later.2.isFormula = true →
    ¬ s.graph.Edge (.cell later.1) (.cell c.1)

instance (s : Sheet) (r : Region) : Decidable (s.IsLayered r) :=
  inferInstanceAs (Decidable (List.Pairwise _ _))

theorem Tidy.relax {lax' : Prop} (h : s.Tidy lax) (hl : lax → lax') : s.Tidy lax' where
  present := h.present
  used v hc hv := (h.used v hc hv).imp_left hl

/-! ## Settling -/

theorem Tidy.markDirty (h : s.Tidy lax) (vs : List Vertex) : (s.markDirty vs).Tidy lax := h

theorem Revalued.tidy (hr : s.Revalued t) (h : s.Tidy lax) : t.Tidy lax := by
  refine h.congr (by rw [hr.rest]; rfl) ?_
  funext v
  cases v with
  | cell p => exact hr.isFormula p
  | region r => rfl
  | name n =>
    show t.names.contains n = s.names.contains n
    rw [hr.names]

theorem Tidy.calculate (h : s.Tidy lax) : s.calculate.sheet.Tidy lax := by
  unfold Sheet.calculate
  split
  · exact h
  · split
    · exact h
    · have hr := revalued_evaluateCells (List.filterMap Vertex.cell? ‹List Vertex›)
        { s with dirty := ∅ }
      exact hr.tidy h

theorem Tidy.settle (h : s.Tidy lax) : s.settle.sheet.Tidy lax := by
  unfold Sheet.settle
  split
  · exact h.calculate
  · exact h

/-! ## Cells -/

theorem holds_withCells {m : Matrix Cell} {p : Position}
    (hm : ∀ q, q ≠ p → m.get? q = s.cells.get? q) (v : Vertex) (hv : v ≠ .cell p) :
    (s.withCells m).holds v = s.holds v := by
  cases v with
  | cell q => exact isFormula_congr (formula?_withCells (hm q fun e => hv (e ▸ rfl)))
  | region r => rfl
  | name n => rfl

theorem Tidy.withCells (h : s.Tidy lax) {m : Matrix Cell}
    (hm : ∀ q, (s.withCells m).formula? q = s.formula? q) : (s.withCells m).Tidy lax := by
  refine h.congr rfl (funext fun v => ?_)
  cases v with
  | cell q => exact isFormula_congr (hm q)
  | region r => rfl
  | name n => rfl

theorem Tidy.linkFormula (h : s.Tidy lax) (hs : s.Linked) {m : Matrix Cell} {p : Position}
    {f : Formula} (hm : ∀ q, q ≠ p → m.get? q = s.cells.get? q)
    (hf : (s.withCells m).formula? p = some f) : ((s.withCells m).linkFormula p f).Tidy lax := by
  have hp : (s.withCells m).holds (.cell p) = true := isFormula_of_formula? hf
  have h₁ := linkFormula_tidy (s := s.withCells m) (h.reheld (holds_withCells hm))
    (hs.open_cell hm) rfl hf (fun _ _ => wants_of_not_holds) (fun _ e => Or.inl e)
    (fun q e => by rw [e]; exact isFormula_of_formula? hf)
  rw [linkFormula_eq]
  refine h₁.mono (fun v _ hx => hx.2 hx.1) fun v hv hx => ?_
  rw [hx, hp] at hv
  contradiction

theorem Tidy.unlinkCell (h : s.Tidy lax) (hs : s.Linked) {m : Matrix Cell} {p : Position}
    (hm : ∀ q, q ≠ p → m.get? q = s.cells.get? q) (hf : (s.withCells m).isFormula p = false) :
    ((s.withCells m).unlinkCell p).Tidy lax := by
  have h₁ := unlinkCell_tidy (s := s.withCells m) (h.reheld (holds_withCells hm))
    (hs.open_cell hm) rfl hf (fun _ _ => wants_of_not_holds) (wants_of_not_holds hf)
    (fun u e => by rw [e]; rfl) (fun q e => by rw [e]) (Or.inr fun _ e hne => absurd e hne)
  rw [unlinkCell_eq]
  refine h₁.mono (fun v hv hx => ?_) fun v _ hx => hx.2 hx.1
  rw [hx] at hv
  exact absurd (hv.symm.trans hf) (by simp)

/-- Pruning a graph that is in step leaves nothing loose of what it looks at. -/
theorem Linked.prune_tidy (hs : s.Linked) (vs : List Vertex)
    (h : s.graph.Tidy s.holds lax fresh loose) :
    (s.prune vs).graph.Tidy s.holds lax fresh fun u => loose u ∧ u ∉ vs := by
  refine Sheet.prune_tidy vs h hs.mirrored fun c _ hheld u hu => Or.inl ?_
  obtain ⟨q, rfl, hq⟩ := source_of_not_holds hs (fun _ _ => wants_of_not_holds hheld) id hu
  exact hq.resolve_left id

theorem Tidy.prune (h : s.Tidy lax) (hs : s.Linked) (vs : List Vertex) : (s.prune vs).Tidy lax := by
  have h₁ := hs.prune_tidy vs h
  unfold Tidy
  rw [prune_eq]
  exact h₁.mono (fun _ _ => id) fun _ _ hx => hx.1

theorem clear_tidy (hs : s.Linked) (h : s.Tidy lax) (p : Position) :
    (s.clear p).sheet.Tidy lax := by
  have hoff (q : Position) (hq : q ≠ p) : (s.cells.remove p).get? q = s.cells.get? q :=
    Matrix.get?_remove_of_ne _ hq.symm
  have hnone := s.formula?_remove p
  have hsame (hp : s.formula? p = none) (q : Position) :
      (s.withCells (s.cells.remove p)).formula? q = s.formula? q := by
    by_cases hqp : q = p
    · rw [hqp, hnone, hp]
    · exact formula?_withCells (hoff q hqp)
  unfold clear
  cases hc : s.cell? p with
  | none => exact h.withCells (hsame (formula?_eq_none hc))
  | some c =>
    refine Tidy.settle ?_
    unfold clearQuietly
    split
    · exact (h.unlinkCell hs hoff (isFormula_eq_false.mpr hnone)).markDirty _
    · rename_i hcf
      have hp : s.formula? p = none := by
        rw [formula?_of_cell? hc]
        simpa [Cell.isFormula] using hcf
      exact ((h.withCells (hsame hp)).prune (hs.withCells (hsame hp)) _).markDirty _

theorem setValue_tidy (hs : s.Linked) (h : s.Tidy lax) (p : Position) (v : Value) :
    (s.setValue p v).sheet.Tidy lax := by
  have hoff (q : Position) (hq : q ≠ p) : (s.cells.set p (.ofValue v)).get? q = s.cells.get? q :=
    Matrix.get?_set_of_ne _ _ hq.symm
  have hnone : (s.withCells (s.cells.set p (.ofValue v))).formula? p = none := s.formula?_set p _
  unfold setValue
  split
  · exact clear_tidy hs h p
  · dsimp only
    refine Tidy.settle (Tidy.markDirty ?_ _)
    split
    · exact h.unlinkCell hs hoff (isFormula_eq_false.mpr hnone)
    · rename_i hf
      have hp : s.formula? p = none := isFormula_eq_false.mp (by simpa using hf)
      refine h.withCells fun q => ?_
      by_cases hqp : q = p
      · rw [hqp, hnone, hp]
      · exact formula?_withCells (hoff q hqp)

/-- Whatever is put back into a cell, what the formula before it read is let go. -/
theorem Tidy.restoreCell (h : s.Tidy lax) (hs : s.Linked) (p : Position) (old : Option Cell) :
    (s.restoreCell p old).Tidy lax := by
  cases old with
  | none =>
    exact h.unlinkCell hs (fun q hq => Matrix.get?_remove_of_ne _ hq.symm)
      (isFormula_eq_false.mpr (s.formula?_remove p))
  | some old =>
    have hoff (q : Position) (hq : q ≠ p) : (s.cells.set p old).get? q = s.cells.get? q :=
      Matrix.get?_set_of_ne _ _ hq.symm
    unfold Sheet.restoreCell
    dsimp only
    split
    · rename_i f hf
      exact h.linkFormula hs hoff ((s.formula?_set p old).trans hf)
    · rename_i hf
      exact h.unlinkCell hs hoff (isFormula_eq_false.mpr ((s.formula?_set p old).trans hf))

theorem setFormula_tidy (hs : s.Linked) (h : s.Tidy lax) (p : Position) (f : Formula) :
    (s.setFormula p f).sheet.Tidy lax := by
  have hoff (q : Position) (hq : q ≠ p) : (s.cells.set p (.ofFormula f)).get? q = s.cells.get? q :=
    Matrix.get?_set_of_ne _ _ hq.symm
  have hf : (s.withCells (s.cells.set p (.ofFormula f))).formula? p = some f := s.formula?_set p _
  have hlinked := hs.linkFormula hoff hf
  have htidy := h.linkFormula hs hoff hf
  unfold setFormula
  split
  · exact h
  · dsimp only
    split
    · exact htidy.restoreCell hlinked p _
    · exact (htidy.markDirty _).settle

theorem setContents_tidy (hs : s.Linked) (h : s.Tidy lax) (p : Position) (c : Option Contents) :
    (s.setContents p c).sheet.Tidy lax := by
  cases c with
  | none => exact clear_tidy hs h p
  | some c =>
    cases c with
    | value v => exact setValue_tidy hs h p v
    | formula f => exact setFormula_tidy hs h p f

/-! ## Regions -/

theorem edge_of_clearQuietly (hg : s.graph.Mirrored) {p : Position} {c : Cell} {a b : Vertex}
    (h : (s.clearQuietly p c).graph.Edge a b) : s.graph.Edge a b := by
  unfold clearQuietly at h
  split at h
  · exact edge_of_unlinkCell hg h
  · exact edge_of_prune _ hg h

/-- The formulas among cells that wait to be forgotten. -/
def Awaits (gone : List (Position × Cell)) (v : Vertex) : Prop :=
  ∃ c ∈ gone, c.2.isFormula = true ∧ v = .cell c.1

/-- Forgetting one of the cells that wait leaves the others as they are, unless it reads one of
them. -/
theorem clearQuietly_tidy {c : Position × Cell} {gone : List (Position × Cell)}
    (hw : s.graph.Wired s.wants s.isFormula (Awaits (c :: gone))
      fun q => ∃ d ∈ c :: gone, d.2.isFormula = true ∧ q = d.1)
    (hf : ∀ d ∈ c :: gone, s.isFormula d.1 = false)
    (hcell : ∀ d ∈ c :: gone, d.1 = c.1 → d.2 = c.2)
    (h : s.graph.Tidy s.holds lax (fun _ => False) (Awaits (c :: gone)))
    (hlayer : lax ∨ ∀ d ∈ gone, c.2.isFormula = true → d.2.isFormula = true →
      ¬ s.graph.Edge (.cell d.1) (.cell c.1)) :
    (s.clearQuietly c.1 c.2).graph.Tidy s.holds lax (fun _ => False) (Awaits gone) := by
  have hc := hf c List.mem_cons_self
  unfold clearQuietly
  split
  · rename_i hcf
    have h₁ := unlinkCell_tidy h hw ⟨c, List.mem_cons_self, hcf, rfl⟩ hc
      (fun _ _ => wants_of_not_holds) (wants_of_not_holds hc) ?_ ?_ ?_
    · refine h₁.mono (fun _ _ => id) fun v _ hx => ?_
      exact exists_formula_of_cons (f := Vertex.cell) hx.1 fun _ => hx.2
    · rintro u ⟨d, -, -, rfl⟩
      rfl
    · rintro q ⟨d, hd, hdf, rfl⟩
      exact ⟨d, hd, hdf, rfl⟩
    · refine hlayer.imp_right fun hno u hu hne he => ?_
      obtain ⟨d, hd, hdf, rfl⟩ :=
        exists_formula_of_cons (f := Vertex.cell) hu fun _ => hne
      exact hno d hd hcf hdf he
  · rename_i hcf
    -- a constant reads nothing, and no formula waits in its place
    have hopen : ¬ Awaits (c :: gone) (.cell c.1) := by
      rintro ⟨d, hd, hdf, e⟩
      rw [hcell d hd (Vertex.cell.inj e).symm] at hdf
      exact hcf hdf
    have h₁ := pruneOne_tidy h hw.mirrored (v := .cell c.1) fun _ u hu => by
      have hmem := (hw.reads _ rfl hopen u).mp hu
      exact absurd hmem (wants_of_not_holds (v := .cell c.1) hc u)
    refine h₁.mono (fun _ _ => id) fun v _ hx => ?_
    exact exists_formula_of_cons (f := Vertex.cell) hx.1 fun h => absurd h hcf

theorem foldl_clearQuietly_tidy (gone : List (Position × Cell))
    (hw : s.graph.Wired s.wants s.isFormula (Awaits gone)
      fun q => ∃ d ∈ gone, d.2.isFormula = true ∧ q = d.1)
    (hf : ∀ d ∈ gone, s.isFormula d.1 = false)
    (hcell : ∀ c ∈ gone, ∀ d ∈ gone, d.1 = c.1 → d.2 = c.2)
    (h : s.graph.Tidy s.holds lax (fun _ => False) (Awaits gone))
    (hlayer : lax ∨ gone.Pairwise fun c later => c.2.isFormula = true →
      later.2.isFormula = true → ¬ s.graph.Edge (.cell later.1) (.cell c.1)) :
    (gone.foldl (fun s c => s.clearQuietly c.1 c.2) s).Tidy lax := by
  induction gone generalizing s with
  | nil =>
    refine h.mono (fun _ _ => id) fun v _ hx => ?_
    obtain ⟨c, hc, -⟩ := hx
    exact List.not_mem_nil hc
  | cons c gone ih =>
    have hw₁ := clearQuietly_wired hw (hf c List.mem_cons_self)
    have h₁ := clearQuietly_tidy hw hf (hcell c List.mem_cons_self) h
      (hlayer.imp_right fun hp => (List.pairwise_cons.mp hp).1)
    have hedge (a b : Vertex) : (s.clearQuietly c.1 c.2).graph.Edge a b → s.graph.Edge a b :=
      edge_of_clearQuietly hw.mirrored
    have he := clearQuietly_eq s c.1 c.2
    generalize (s.clearQuietly c.1 c.2).graph = g₁ at hw₁ h₁ hedge he
    rw [List.foldl_cons, he]
    refine ih (s := (s.markDirty [.cell c.1]).withGraph g₁) hw₁
      (fun d hd => hf d (List.mem_cons_of_mem c hd))
      (fun d hd d' hd' => hcell d (List.mem_cons_of_mem c hd) d' (List.mem_cons_of_mem c hd')) h₁
      (hlayer.imp_right fun hp => ?_)
    exact (List.pairwise_cons.mp hp).2.imp fun hno hdf hlater he => hno hdf hlater (hedge _ _ he)

theorem clearRegion_tidy (hs : s.Linked) (h : s.Tidy lax) (r : Region)
    (hlayer : lax ∨ s.IsLayered r) : (s.clearRegion r).sheet.Tidy lax := by
  have hsame (q : Position) (hq : ¬ Awaits (s.cells.linesIn r) (.cell q)) :
      (s.withCells (s.cells.removeRegion r)).formula? q = s.formula? q :=
    formula?_removeRegion_of_not fun ⟨c, hc, hcf, e⟩ => hq ⟨c, hc, hcf, by rw [e]⟩
  have hw := hs.reopen_removeRegion r
  have hheld (v : Vertex) (hv : ¬ Awaits (s.cells.linesIn r) v) :
      (s.withCells (s.cells.removeRegion r)).holds v = s.holds v := by
    cases v with
    | cell q => exact isFormula_congr (hsame q hv)
    | region r => rfl
    | name n => rfl
  have hf (c : Position × Cell) (hc : c ∈ s.cells.linesIn r) :
      (s.withCells (s.cells.removeRegion r)).isFormula c.1 = false :=
    isFormula_eq_false.mpr (s.formula?_removeRegion (Matrix.mem_linesIn.mp hc).2)
  have h₁ := h.reheld hheld
  have h₂ := foldl_clearQuietly_tidy (s := s.withCells (s.cells.removeRegion r))
    (s.cells.linesIn r) hw hf (fun c hc d hd e => ?_) (h₁.mono (fun v hv hx => ?_) fun _ _ => id)
    hlayer
  · exact h₂.settle
  · have hget := (Matrix.mem_linesIn.mp hd).1
    rw [e, (Matrix.mem_linesIn.mp hc).1] at hget
    exact (Option.some.inj hget).symm
  · obtain ⟨c, hc, -, rfl⟩ := hx
    exact absurd (hv.symm.trans (hf c hc)) (by simp)

/-! ## Names -/

section

variable {names : Std.ExtTreeMap String Definition} {key : String}

theorem holds_withNames (hn : ∀ n, n ≠ key → names[n]? = s.names[n]?) (v : Vertex)
    (hv : v ≠ .name key) : (s.withNames names).holds v = s.holds v := by
  cases v with
  | cell p => rfl
  | region r => rfl
  | name n =>
    show names.contains n = s.names.contains n
    rw [Std.ExtTreeMap.contains_eq_isSome_getElem?, Std.ExtTreeMap.contains_eq_isSome_getElem?,
      hn n fun e => hv (e ▸ rfl)]

/-- One name is defined otherwise; what it stood for is let go, and its vertex is in question. -/
theorem Tidy.linkName (h : s.Tidy lax) (hs : s.Linked) (key : String)
    (names names' : Std.ExtTreeMap String Definition)
    (hn : ∀ n, n ≠ key → names[n]? = s.names[n]?) (hn' : ∀ n, n ≠ key → names'[n]? = s.names[n]?)
    (ps : List Vertex) (hps : names'.contains key = true ∨ ps = []) :
    ((s.withNames names').link (.name key) ps).graph.Tidy (s.withNames names').holds lax
      (fun _ => False) (· = .name key) := by
  have hopen : s.graph.Wired (s.withNames names).wants s.isFormula (· = .name key)
      fun _ => False :=
    hs.reopen (t := s.withNames names) rfl
      (fun v hv => references_congr (fun _ _ => rfl) fun n e => hn n fun e' => hv (e' ▸ e))
      fun _ _ => rfl
  have h₁ := link_tidy (s := s.withNames names') (v := .name key) ps
    (h.reheld (holds_withNames hn')) hopen rfl rfl (fun u hu hheld => ?_) hps
    (fun _ e => Or.inl e) nofun
  · exact h₁.mono (fun _ _ hx => hx.2 hx.1) fun _ _ hx => hx.elim id id
  · have hsame : (s.withNames names).holds u = (s.withNames names').holds u :=
      (holds_withNames hn u hu).trans (holds_withNames hn' u hu).symm
    exact wants_of_not_holds (hsame.trans hheld)

theorem Tidy.unlinkName (h : s.Tidy lax) (hs : s.Linked) (key : String) :
    (((s.withNames (s.names.erase key)).link (.name key) []).prune [.name key]).Tidy lax := by
  have hnone : (s.names.erase key)[key]? = none := by simp
  have hlinked := linkName_planned hs erase_getElem? (precedents_of_undefined hnone) (Or.inr hnone)
  have h₁ := h.linkName hs key (s.names.erase key) (s.names.erase key) erase_getElem?
    erase_getElem? [] (Or.inr rfl)
  have hholds : ((s.withNames (s.names.erase key)).link (.name key) []).holds =
      (s.withNames (s.names.erase key)).holds := by
    rw [link_eq]
    rfl
  rw [← hholds] at h₁
  have h₂ := hlinked.prune_tidy [.name key] h₁
  unfold Tidy
  rw [prune_eq]
  refine h₂.mono (fun _ _ => id) fun v _ hx => hx.2 ?_
  rw [hx.1]
  exact List.mem_singleton_self _

theorem Tidy.linkDefined (h : s.Tidy lax) (hs : s.Linked) (key : String) (d : Definition) :
    ((s.withNames (s.names.insert key d)).linkName key d).Tidy lax := by
  have hheld : (s.names.insert key d).contains key = true := by simp
  have h₁ := h.linkName hs key (s.names.insert key d) (s.names.insert key d) (insert_getElem? d)
    (insert_getElem? d) (s.precedents (referencesOf d)) (Or.inl hheld)
  have he : (s.withNames (s.names.insert key d)).linkName key d =
      (s.withNames (s.names.insert key d)).withGraph
        ((s.withNames (s.names.insert key d)).link (.name key)
          (s.precedents (referencesOf d))).graph := link_eq _ _ _
  rw [he]
  refine h₁.mono (fun _ _ => id) fun v hv e => ?_
  rw [e] at hv
  exact absurd (hheld.symm.trans hv) (by simp)

theorem Tidy.restoreName (h : s.Tidy lax) (hs : s.Linked) (hkey : s.names.contains key = true)
    (old : Option Definition) : (s.restoreName key old).Tidy lax := by
  cases old with
  | none => exact h.unlinkName hs key
  | some old =>
    -- the name is linked while it still stands for what is given up
    have h₁ := h.linkName hs key (s.names.insert key old) s.names (insert_getElem? old)
      (fun _ _ => rfl) (s.precedents (referencesOf old)) (Or.inl hkey)
    have he : s.restoreName key (some old) = (s.withNames (s.names.insert key old)).withGraph
        (s.link (.name key) (s.precedents (referencesOf old))).graph :=
      congrArg (fun y : Sheet => y.withNames (s.names.insert key old)) (link_eq _ _ _)
    have hholds : (s.withNames (s.names.insert key old)).holds = s.holds := by
      funext v
      by_cases hv : v = .name key
      · rw [hv]
        show (s.names.insert key old).contains key = s.names.contains key
        rw [hkey]
        simp
      · exact holds_withNames (insert_getElem? old) v hv
    rw [he]
    show (s.link (.name key) (s.precedents (referencesOf old))).graph.Tidy
      (s.withNames (s.names.insert key old)).holds lax (fun _ => False) fun _ => False
    rw [hholds]
    refine h₁.mono (fun _ _ => id) fun v hv e => ?_
    rw [e] at hv
    exact absurd (hkey.symm.trans hv) (by simp)

end

theorem define_tidy (hs : s.Linked) (h : s.Tidy lax) (name : String) (d : Definition) :
    (s.define name d).sheet.Tidy lax := by
  unfold define
  split
  · exact h
  · dsimp only
    generalize Text.upperAscii name = key
    have hlinked := linkDefined hs key d
    have htidy := h.linkDefined hs key d
    have hkey :
        ((s.withNames (s.names.insert key d)).linkName key d).names.contains key = true := by
      have he : ((s.withNames (s.names.insert key d)).linkName key d).names =
          s.names.insert key d := by
        show ((s.withNames (s.names.insert key d)).link (.name key) _).names = _
        rw [link_eq]
        rfl
      rw [he]
      simp
    split
    · exact htidy.restoreName hlinked hkey _
    · exact (htidy.markDirty _).settle

theorem undefine_tidy (hs : s.Linked) (h : s.Tidy lax) (name : String) :
    (s.undefine name).sheet.Tidy lax := by
  unfold undefine
  dsimp only
  split
  · exact ((h.unlinkName hs _).markDirty _).settle
  · exact h

/-! ## Everything -/

theorem edit_tidy (h : s.Tidy lax) (e : Edit) : (s.edit e).sheet.Tidy lax := by
  unfold edit
  split
  · exact h
  · exact (((relinked_tidy _).relax False.elim).markDirty _).settle

theorem apply_tidy (hs : s.Linked) (h : s.Tidy lax) {op : Operation}
    (hop : lax ∨ ∀ r, op = .clearRegion r → s.IsLayered r) : (s.apply op).sheet.Tidy lax := by
  cases op with
  | setValue p v => exact setValue_tidy hs h p v
  | setFormula p f => exact setFormula_tidy hs h p f
  | setInput p text =>
    -- unfolded by hand: up to reduction the text would be read
    simp only [apply, Outcome.map, setInput]
    exact setContents_tidy hs h p _
  | clear p => exact clear_tidy hs h p
  | clearRegion r => exact clearRegion_tidy hs h r (hop.imp_right fun hl => hl r rfl)
  | copy source target => exact setContents_tidy hs h target _
  | define name d => exact define_tidy hs h name d
  | undefine name => exact undefine_tidy hs h name
  | edit e => exact edit_tidy h e
  | setFormat r f => cases f <;> exact h
  | pause => exact h
  | resume =>
    show s.resume.sheet.Tidy lax
    unfold resume
    dsimp only
    split
    · exact Tidy.calculate h
    · exact h
  | setAutoCalculate on => exact h
  | calculate => exact h.calculate
  | calculateAll => exact (h.markDirty _).calculate
  | setFunctions functions => exact Tidy.calculate h

theorem tidy_empty (name : String) (settings : Settings) (functions : Registry)
    (ambient : Ambient) : (Sheet.empty name settings functions ambient).Tidy lax := by
  have hheld (v : Vertex) : (Sheet.empty name settings functions ambient).holds v = false := by
    cases v with
    | cell p =>
      exact isFormula_eq_false.mpr (formula?_eq_none (Matrix.get?_empty ..))
    | region r => rfl
    | name n => exact Std.ExtTreeMap.contains_empty
  refine ⟨fun v hv => absurd (hv.symm.trans (hheld v)) (by simp), fun v hc => ?_⟩
  have hnone := Graph.contains_empty (V := Vertex) v
  exact absurd (hc.symm.trans hnone) (by simp)

theorem Reachable.tidy (h : s.Reachable) : s.Tidy True := by
  induction h with
  | empty name settings functions ambient => exact tidy_empty name settings functions ambient
  | call hs c _ ih => exact apply_tidy (hs.sound.withAmbient c.ambient).linked ih (Or.inl trivial)

/-- The sheets that an empty one can become while regions are only emptied in layers. -/
inductive Tended : Sheet → Prop
  | empty (name : String) (settings : Settings) (functions : Registry) (ambient : Ambient) :
    Tended (.empty name settings functions ambient)
  | call {s : Sheet} (hs : Tended s) (c : Call) (hc : c.operation.OnGrid)
    (hr : ∀ r, c.operation = .clearRegion r → s.IsLayered r) : Tended (s.call c).sheet

theorem Tended.reachable (h : s.Tended) : s.Reachable := by
  induction h with
  | empty name settings functions ambient => exact .empty name settings functions ambient
  | call _ c hc _ ih => exact ih.call c hc

theorem Tended.tidy (h : s.Tended) : s.Tidy False := by
  induction h with
  | empty name settings functions ambient => exact tidy_empty name settings functions ambient
  | call hs c _ hr ih =>
    exact apply_tidy (hs.reachable.sound.withAmbient c.ambient).linked ih (Or.inr hr)

/-- What is a vertex on a tended sheet holds a formula or a definition, or one of these reads it. -/
theorem Tidy.contains_iff (h : s.Tidy False) (hs : s.Linked) (v : Vertex) :
    s.graph.contains v = true ↔ s.holds v = true ∨ ∃ w, v ∈ s.wants w := by
  constructor
  · intro hc
    by_cases hv : s.holds v = true
    · exact Or.inl hv
    · rcases h.used v hc (by simpa using hv) with hf | hf | ⟨w, hw⟩
      · exact hf.elim
      · exact hf.elim
      · cases w with
        | region r => exact Or.inl (hs.holds_of_edge hw)
        | cell p => exact Or.inr ⟨_, (hs.reads _ rfl id v).mp hw⟩
        | name n => exact Or.inr ⟨_, (hs.reads _ rfl id v).mp hw⟩
  · rintro (hv | ⟨w, hw⟩)
    · exact h.contains hv
    · have hregion : w.region? = none := by
        cases w with
        | region r => exact absurd hw (wants_of_not_holds rfl v)
        | _ => rfl
      exact hs.mirrored.source_mem ((hs.reads w hregion id v).mpr hw)

/-- As long as regions are emptied in layers, the graph is at any time the one that would be made
anew, refused formulas and definitions included: its vertices are the formula cells, the defined
names and what these read. After any operations whatever it is that graph with strays besides,
which hold nothing and are read by nothing. -/
theorem graph_eq_relinked (hs : s.Reachable) :
    (s.Tended → s.graph = s.relinked.graph ∧
      ∀ v, s.graph.contains v = true ↔ s.holds v = true ∨ ∃ w, v ∈ s.wants w) ∧
    (∀ v, s.relinked.graph.contains v = true ↔ s.graph.contains v = true ∧ ¬ s.IsStray v) ∧
    ∀ u v, s.relinked.graph.Edge u v ↔ s.graph.Edge u v ∧ ¬ s.IsStray v := by
  have hlinked := hs.sound.linked
  refine ⟨fun ht => ?_, relinked_swept hlinked hs.tidy⟩
  exact ⟨(graph_eq_relinked_iff hlinked).mpr ht.tidy, ht.tidy.contains_iff hlinked⟩

/-- `A1` reads `C1`, `B1` reads `A1`, `=B1` in `A1` is refused, and both cells are emptied at once:
nothing stays. -/
theorem graph_eq_relinked_after_refusal :
    let a : Ambient := ⟨.midnight 0, 0⟩
    let read (p : Position) : Formula := .ofExpr (.reference (.ofPosition p))
    let s := (Sheet.empty "Sheet1" default .empty a).after
      [⟨a, .setFormula ⟨0, 0⟩ (read ⟨0, 2⟩)⟩, ⟨a, .setFormula ⟨0, 1⟩ (read ⟨0, 0⟩)⟩]
    let refused := s.call ⟨a, .setFormula ⟨0, 0⟩ (read ⟨0, 1⟩)⟩
    let cleared := refused.sheet.call ⟨a, .clearRegion (.corners 0 0 0 1)⟩
    refused.answer ≠ .ok .done ∧ refused.sheet.graph = refused.sheet.relinked.graph ∧
      cleared.sheet.graph = cleared.sheet.relinked.graph ∧ cleared.sheet.graph.size = 0 := by
  intro a read s refused cleared
  have hs : s.Tended := ((Tended.empty "Sheet1" default .empty a).call
    ⟨a, .setFormula ⟨0, 0⟩ (read ⟨0, 2⟩)⟩ (by decide) nofun).call
      ⟨a, .setFormula ⟨0, 1⟩ (read ⟨0, 0⟩)⟩ (by decide) nofun
  have hrefused : refused.sheet.Tended :=
    hs.call ⟨a, .setFormula ⟨0, 0⟩ (read ⟨0, 1⟩)⟩ (by decide) nofun
  have hlayered : refused.sheet.IsLayered (.corners 0 0 0 1) := by decide +kernel
  have hcleared : cleared.sheet.Tended :=
    hrefused.call ⟨a, .clearRegion (.corners 0 0 0 1)⟩ (by decide) fun r hr => by
      cases hr
      exact hlayered
  exact ⟨by decide +kernel, ((graph_eq_relinked hrefused.reachable).1 hrefused).1,
    ((graph_eq_relinked hcleared.reachable).1 hcleared).1, by decide +kernel⟩

/-- `A1` reads `B1`, `B1` reads `C1`, and both are emptied at once. `A1` goes first and takes `B1`
out of the graph, and nobody asks any more what `B1` read: `C1` stays. -/
theorem stray_after_clearRegion :
    ∃ s : Sheet, s.Reachable ∧ s.graph.contains (.cell ⟨0, 2⟩) = true ∧
      s.relinked.graph.contains (.cell ⟨0, 2⟩) = false := by
  refine ⟨(Sheet.empty "Sheet1" default .empty ⟨.midnight 0, 0⟩).after
    [⟨⟨.midnight 0, 0⟩, .setFormula ⟨0, 0⟩ (.ofExpr (.reference (.ofPosition ⟨0, 1⟩)))⟩,
      ⟨⟨.midnight 0, 0⟩, .setFormula ⟨0, 1⟩ (.ofExpr (.reference (.ofPosition ⟨0, 2⟩)))⟩,
      ⟨⟨.midnight 0, 0⟩, .clearRegion (.corners 0 0 0 1)⟩], ?_, ?_, ?_⟩
  · exact (Reachable.empty _ _ _ _).after (by decide)
  · decide +kernel
  · decide +kernel

end Spreadsheet.Sheet
