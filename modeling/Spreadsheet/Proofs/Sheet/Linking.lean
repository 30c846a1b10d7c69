import Spreadsheet.Proofs.Sheet.Wiring
import Spreadsheet.Sheet.Editing

/-! What edits do to the graph. A cell whose contents change is the only thing that the graph is
wrong about until it is linked or unlinked; emptying a region leaves the graph wrong about every
formula in it, and each is unlinked in turn; and a graph that is made anew is at first wrong about
everything that reads anything. -/

namespace Spreadsheet.Sheet

variable {s t : Sheet} {w : Vertex → List Vertex} {X : Vertex → Prop} {Y : Position → Prop}

theorem mem_regionsAround {p : Position} {v : Vertex} :
    v ∈ s.regionsAround p ↔
      ∃ r, v = .region r ∧ s.graph.contains v = true ∧ r.contains p = true := by
  unfold regionsAround
  rw [List.mem_filter, Graph.mem_vertices]
  constructor
  · intro h
    obtain ⟨hv, hp⟩ := h
    cases v with
    | region r => exact ⟨r, rfl, hv, hp⟩
    | cell q => contradiction
    | name n => contradiction
  · intro h
    obtain ⟨r, rfl, hv, hp⟩ := h
    exact ⟨hv, hp⟩

theorem linkFormula_eq (s : Sheet) (p : Position) (f : Formula) :
    s.linkFormula p f = s.withGraph (s.linkFormula p f).graph :=
  congrArg (·.withGraph (s.linkFormula p f).graph) (link_eq s _ _)

/-- A linked formula cell reads what its formula refers to, and is read by the regions around it. -/
theorem linkFormula_spec {p : Position} {f : Formula} (h : s.graph.Wired w s.isFormula X Y)
    (hX : X (.cell p)) (hf : s.formula? p = some f)
    (hw : ∀ v, v.region? = none → ¬ X v → s.holds v = false → ∀ u, u ∉ w v)
    (hp : ∀ u, u ∈ w (.cell p) ↔ u ∈ s.precedents f.references) :
    (s.linkFormula p f).graph.Wired w s.isFormula (fun v => X v ∧ v ≠ .cell p)
      fun q => Y q ∧ q ≠ p := by
  have hformula : s.isFormula p = true := isFormula_of_formula? hf
  obtain ⟨hlinked, hedge⟩ := link_spec (v := .cell p) (s.precedents f.references) h hX rfl hw
    (Or.inl hformula)
  have hclosed := hlinked.close fun u => (hedge u).trans (hp u).symm
  exact hclosed.join hformula fun _ => mem_regionsAround

/-- The regions that count a cell. -/
def regionsOver (s : Sheet) (p : Position) : List Vertex :=
  ((s.graph.removePrecedents (.cell p)).dependentsOf (.cell p)).filter fun r => r.region?.isSome

/-- The sheet while a cell is unlinked, before anything is pruned. -/
def detach (s : Sheet) (p : Position) : Sheet :=
  s.withGraph ((s.regionsOver p).foldl (fun g r => g.removeEdge (.cell p) r)
    (s.graph.removePrecedents (.cell p)))

theorem mem_regionsOver (hg : s.graph.Mirrored) {p : Position} {v : Vertex} :
    v ∈ s.regionsOver p ↔ s.graph.Edge (.cell p) v ∧ v.region?.isSome = true := by
  unfold regionsOver
  rw [List.mem_filter, hg.removePrecedents.mem_dependentsOf, Graph.edge_removePrecedents]
  refine and_congr_left fun hv => and_iff_right ?_
  rintro rfl
  contradiction

theorem edge_detach (hg : s.graph.Mirrored) {p : Position} {a b : Vertex} :
    (s.detach p).graph.Edge a b ↔
      ¬ (a = .cell p ∧ b ∈ s.regionsOver p) ∧ b ≠ .cell p ∧ s.graph.Edge a b := by
  have h := (Graph.foldl_removeEdge_spec (.cell p) (s.regionsOver p) _
    (hg.removePrecedents (x := .cell p))).2.1 a b
  rw [Graph.edge_removePrecedents] at h
  exact h

/-- A cell without a formula reads nothing, and no region counts it. -/
theorem detach_spec {p : Position} (h : s.graph.Wired w s.isFormula X Y)
    (hX : X (.cell p)) (hf : s.isFormula p = false) (hp : ∀ u, u ∉ w (.cell p)) :
    (s.detach p).graph.Wired w s.isFormula (fun v => X v ∧ v ≠ .cell p) fun q => Y q ∧ q ≠ p := by
  have hnone (u : Vertex) : ¬ (s.graph.removePrecedents (.cell p)).Edge u (.cell p) := fun hu =>
    absurd rfl (Graph.edge_removePrecedents.mp hu).1
  have hclosed := (h.removePrecedents hX rfl).close fun u =>
    ⟨fun hu => absurd hu (hnone u), fun hu => absurd hu (hp u)⟩
  have hmem (r : Region) : Vertex.region r ∈ s.regionsOver p ↔
      (s.graph.removePrecedents (.cell p)).Edge (.cell p) (.region r) := by
    rw [mem_regionsOver h.mirrored, Graph.edge_removePrecedents]
    exact (and_iff_left rfl).trans (and_iff_right (Vertex.region_ne rfl r)).symm
  have hregion (v : Vertex) (hv : v ∈ s.regionsOver p) : v.region? ≠ none :=
    Option.isSome_iff_ne_none.mp ((mem_regionsOver h.mirrored).mp hv).2
  exact hclosed.leave hf hregion hmem

theorem unlinkCell_eq_prune (s : Sheet) (p : Position) :
    s.unlinkCell p =
      (s.detach p).prune (s.graph.precedentsOf (.cell p) ++ s.regionsOver p ++ [.cell p]) := rfl

theorem unlinkCell_eq (s : Sheet) (p : Position) :
    s.unlinkCell p = s.withGraph (s.unlinkCell p).graph := prune_eq _ _

theorem unlinkCell_spec {p : Position} (h : s.graph.Wired w s.isFormula X Y)
    (hX : X (.cell p)) (hf : s.isFormula p = false)
    (hw : ∀ v, v.region? = none → ¬ X v → s.holds v = false → ∀ u, u ∉ w v)
    (hp : ∀ u, u ∉ w (.cell p)) :
    (s.unlinkCell p).graph.Wired w s.isFormula (fun v => X v ∧ v ≠ .cell p)
      fun q => Y q ∧ q ≠ p := by
  refine (prune_wired (s := s.detach p) (b := .cell p) _ (detach_spec h hX hf hp)
    (fun v hv hXv hheld u => ?_) (Or.inr fun a ha => ?_)).1
  · by_cases hvp : v = .cell p
    · subst hvp
      exact hp u
    · exact hw v hv (fun hx => hXv ⟨hx, hvp⟩) hheld u
  · exact absurd rfl ((edge_detach h.mirrored).mp ha).2.1

/-! ## One cell -/

theorem Linked.pruneOne (h : s.Linked) (v : Vertex) : (s.pruneOne v).Linked := by
  rw [pruneOne_eq]
  exact pruneOne_wired h (fun _ _ _ => wants_of_not_holds) v

theorem Linked.prune (h : s.Linked) (vs : List Vertex) : (s.prune vs).Linked := by
  induction vs generalizing s with
  | nil => exact h
  | cons v vs ih => exact ih (h.pruneOne v)

/-- The contents of one cell are changed. -/
theorem Linked.open_cell (h : s.Linked) {m : Matrix Cell} {p : Position}
    (hm : ∀ q, q ≠ p → m.get? q = s.cells.get? q) :
    s.graph.Wired (s.withCells m).wants (s.withCells m).isFormula (· = .cell p) (· = p) := by
  have hformula (q : Position) (hq : q ≠ p) : (s.withCells m).formula? q = s.formula? q :=
    formula?_withCells (hm q hq)
  refine h.reopen rfl (fun v hv => references_congr (fun q e => ?_) fun _ _ => rfl) fun q hq => ?_
  · exact hformula q fun e' => hv (e' ▸ e)
  · exact isFormula_congr (hformula q hq)

theorem Linked.linkFormula (h : s.Linked) {m : Matrix Cell} {p : Position} {f : Formula}
    (hm : ∀ q, q ≠ p → m.get? q = s.cells.get? q) (hf : (s.withCells m).formula? p = some f) :
    ((s.withCells m).linkFormula p f).Linked := by
  have hw := linkFormula_spec (s := s.withCells m) (h.open_cell hm) rfl hf
    (fun _ _ _ => wants_of_not_holds) fun u => by
      unfold wants
      rw [references_cell hf]
  rw [linkFormula_eq]
  exact Graph.Wired.mono hw (fun v _ => ⟨fun hx => hx.2 hx.1, rfl⟩) fun q _ =>
    ⟨fun hx => hx.2 hx.1, rfl⟩

theorem Linked.unlinkCell (h : s.Linked) {m : Matrix Cell} {p : Position}
    (hm : ∀ q, q ≠ p → m.get? q = s.cells.get? q) (hf : (s.withCells m).isFormula p = false) :
    ((s.withCells m).unlinkCell p).Linked := by
  have hw := unlinkCell_spec (s := s.withCells m) (h.open_cell hm) rfl hf
    (fun _ _ _ => wants_of_not_holds) (wants_of_not_holds hf)
  rw [unlinkCell_eq]
  exact Graph.Wired.mono hw (fun v _ => ⟨fun hx => hx.2 hx.1, rfl⟩) fun q _ =>
    ⟨fun hx => hx.2 hx.1, rfl⟩

/-- A cell that had no formula and gets none is none of the business of the graph. -/
theorem Linked.withCells (h : s.Linked) {m : Matrix Cell}
    (hm : ∀ q, (s.withCells m).formula? q = s.formula? q) : (s.withCells m).Linked :=
  h.reopen rfl (fun _ _ => references_congr (fun q _ => hm q) fun _ _ => rfl) fun q _ =>
    isFormula_congr (hm q)

/-! ## A region -/

theorem clearQuietly_eq (s : Sheet) (p : Position) (c : Cell) :
    s.clearQuietly p c = (s.markDirty [.cell p]).withGraph (s.clearQuietly p c).graph := by
  unfold clearQuietly
  split
  · exact congrArg (·.markDirty [.cell p]) (unlinkCell_eq s p)
  · exact congrArg (·.markDirty [.cell p]) (prune_eq s _)

theorem markDirty_cons (s : Sheet) (v : Vertex) (vs : List Vertex) :
    (s.markDirty [v]).markDirty vs = s.markDirty (v :: vs) := rfl

/-- What is at one of the formulas among some cells is at one of the rest, if not at the first. -/
theorem exists_formula_of_cons {α : Type} {f : Position → α} {c : Position × Cell}
    {gone : List (Position × Cell)} {a : α}
    (h : ∃ d ∈ c :: gone, d.2.isFormula = true ∧ a = f d.1)
    (hc : c.2.isFormula = true → a ≠ f c.1) : ∃ d ∈ gone, d.2.isFormula = true ∧ a = f d.1 := by
  obtain ⟨d, hd, hdf, rfl⟩ := h
  rcases List.mem_cons.mp hd with rfl | hd
  · exact absurd rfl (hc hdf)
  · exact ⟨d, hd, hdf, rfl⟩

/-- A cell that has been emptied is forgotten, while others wait for that. -/
theorem clearQuietly_wired {c : Position × Cell} {gone : List (Position × Cell)}
    (h : s.graph.Wired s.wants s.isFormula
      (fun v => ∃ d ∈ c :: gone, d.2.isFormula = true ∧ v = .cell d.1)
      fun q => ∃ d ∈ c :: gone, d.2.isFormula = true ∧ q = d.1)
    (hc : s.isFormula c.1 = false) :
    (s.clearQuietly c.1 c.2).graph.Wired s.wants s.isFormula
      (fun v => ∃ d ∈ gone, d.2.isFormula = true ∧ v = .cell d.1)
      fun q => ∃ d ∈ gone, d.2.isFormula = true ∧ q = d.1 := by
  unfold clearQuietly
  split
  · rename_i hcf
    have hw := unlinkCell_spec h ⟨c, List.mem_cons_self, hcf, rfl⟩ hc
      (fun _ _ _ => wants_of_not_holds) (wants_of_not_holds hc)
    refine hw.mono (fun v hv => ⟨fun hx => hv ?_, rfl⟩) fun q hq => ⟨fun hx => hq ?_, rfl⟩
    · exact exists_formula_of_cons (f := Vertex.cell) hx.1 fun _ => hx.2
    · exact exists_formula_of_cons (f := id) hx.1 fun _ => hx.2
  · rename_i hcf
    have hw := pruneOne_wired h (fun _ _ _ => wants_of_not_holds) (.cell c.1)
    refine hw.mono (fun v hv => ⟨fun hx => hv ?_, rfl⟩) fun q hq => ⟨fun hx => hq ?_, rfl⟩
    · exact exists_formula_of_cons (f := Vertex.cell) hx fun h => absurd h hcf
    · exact exists_formula_of_cons (f := id) hx fun h => absurd h hcf

/-- Cells that have been emptied are forgotten one by one. -/
theorem foldl_clearQuietly_spec (gone : List (Position × Cell))
    (h : s.graph.Wired s.wants s.isFormula
      (fun v => ∃ c ∈ gone, c.2.isFormula = true ∧ v = .cell c.1)
      fun q => ∃ c ∈ gone, c.2.isFormula = true ∧ q = c.1)
    (hf : ∀ c ∈ gone, s.isFormula c.1 = false) :
    ∃ g, gone.foldl (fun s c => s.clearQuietly c.1 c.2) s =
        (s.markDirty (gone.map fun c => .cell c.1)).withGraph g ∧
      ((s.markDirty (gone.map fun c => .cell c.1)).withGraph g).Linked := by
  induction gone generalizing s with
  | nil => exact ⟨s.graph, rfl, h.mono (fun v _ => ⟨by simp, rfl⟩) fun q _ => ⟨by simp, rfl⟩⟩
  | cons c gone ih =>
    have h₁ := clearQuietly_wired h (hf c List.mem_cons_self)
    have he := clearQuietly_eq s c.1 c.2
    generalize (s.clearQuietly c.1 c.2).graph = g₁ at h₁ he
    obtain ⟨g, hg, hlinked⟩ := ih (s := (s.markDirty [.cell c.1]).withGraph g₁) h₁
      fun d hd => hf d (List.mem_cons_of_mem c hd)
    refine ⟨g, ?_, hlinked⟩
    rw [List.foldl_cons, he, hg]
    rfl

/-! ## Names -/

def withNames (s : Sheet) (ns : Std.ExtTreeMap String Definition) : Sheet := { s with names := ns }

/-- A vertex that reads what it is to read is no longer in question. -/
theorem link_wired {v : Vertex} (ps : List Vertex) (h : s.graph.Wired w s.isFormula X Y)
    (hv : v.region? = none)
    (hw : ∀ u, u.region? = none → u ≠ v → s.holds u = false → ∀ a, a ∉ w u)
    (hps : s.holds v = true ∨ ps = []) (hwv : ∀ u, u ∈ w v ↔ u ∈ ps) :
    (s.link v ps).graph.Wired w s.isFormula (fun u => X u ∧ u ≠ v) Y := by
  have h' : s.graph.Wired w s.isFormula (fun u => X u ∨ u = v) Y :=
    h.mono (fun u hu => ⟨fun hx => hu (Or.inl hx), rfl⟩) fun q hq => ⟨hq, rfl⟩
  obtain ⟨h₁, hedge⟩ := link_spec (v := v) ps h' (Or.inr rfl) hv
    (fun u hu hx => hw u hu fun e => hx (Or.inr e)) hps
  have hclosed := h₁.close fun u => (hedge u).trans (hwv u).symm
  exact hclosed.mono (fun u hu => ⟨fun hx => hu ⟨hx.1.resolve_right hx.2, hx.2⟩, rfl⟩)
    fun q hq => ⟨hq, rfl⟩

/-- One name is defined otherwise. While it is linked, the names may still be those of before. -/
theorem Linked.linkName (h : s.Linked) {ns ns' : Std.ExtTreeMap String Definition} {key : String}
    (hn : ∀ n, n ≠ key → ns[n]? = s.names[n]?) (hn' : ∀ n, n ≠ key → ns'[n]? = s.names[n]?)
    (hheld : ns'.contains key = true ∨ ns[key]? = none) :
    ((s.withNames ns).withGraph ((s.withNames ns').link (.name key)
      (s.precedents ((s.withNames ns).references (.name key)))).graph).Linked := by
  have hopen : s.graph.Wired (s.withNames ns).wants s.isFormula (· = .name key) fun _ => False :=
    h.reopen (t := s.withNames ns) rfl
      (fun v hv => references_congr (fun _ _ => rfl) fun n e => hn n fun e' => hv (e' ▸ e))
      fun _ _ => rfl
  have hholds (u : Vertex) (hu : u ≠ .name key) :
      (s.withNames ns').holds u = (s.withNames ns).holds u := by
    cases u with
    | cell p => rfl
    | region r => rfl
    | name n =>
      have hne : n ≠ key := fun e => hu (e ▸ rfl)
      change ns'.contains n = ns.contains n
      rw [Std.ExtTreeMap.contains_eq_isSome_getElem?, Std.ExtTreeMap.contains_eq_isSome_getElem?,
        hn n hne, hn' n hne]
  have hnil (he : ns[key]? = none) :
      s.precedents ((s.withNames ns).references (.name key)) = [] := by
    have href : (s.withNames ns).references (.name key) = [] := by
      simp [references, withNames, he]
    rw [href, List.eq_nil_iff_forall_not_mem]
    exact not_mem_precedents_nil
  have hwired := link_wired (s := s.withNames ns') (v := .name key)
    (s.precedents ((s.withNames ns).references (.name key))) hopen rfl
    (fun u _ hne hheld => wants_of_not_holds ((hholds u hne).symm.trans hheld))
    (hheld.imp id hnil) fun _ => Iff.rfl
  exact Graph.Wired.mono hwired (fun v _ => ⟨fun hx => hx.2 hx.1, rfl⟩) fun _ _ => ⟨id, rfl⟩

/-! ## Everything -/

theorem mem_formulas {p : Position} {f : Formula} :
    (p, f) ∈ s.formulas ↔ s.formula? p = some f := by
  unfold formulas formula? cell?
  simp only [List.mem_filterMap, Option.map_eq_some_iff, Prod.exists, Prod.mk.injEq,
    Option.bind_eq_some_iff]
  constructor
  · intro h
    obtain ⟨q, c, hc, g, hg, rfl, rfl⟩ := h
    exact ⟨c, Matrix.mem_toList.mp hc, hg⟩
  · intro h
    obtain ⟨c, hc, hf⟩ := h
    exact ⟨p, c, Matrix.mem_toList.mpr hc, f, hf, rfl, rfl⟩

/-- What is true of all that formulas and definitions refer to is true of what any vertex refers
to. -/
theorem forall_references {P : Reference → Prop} (hf : ∀ c ∈ s.formulas, ∀ r ∈ c.2.references, P r)
    (hn : ∀ d ∈ s.names.toList, ∀ r ∈ referencesOf d.2, P r) (v : Vertex) :
    ∀ r ∈ s.references v, P r := by
  intro r hr
  cases v with
  | region g => exact absurd hr List.not_mem_nil
  | cell p =>
    obtain ⟨f, hp⟩ := Option.isSome_iff_exists.mp (isFormula_of_mem_references hr)
    rw [references_cell hp] at hr
    exact hf (p, f) (mem_formulas.mpr hp) r hr
  | name n =>
    unfold references at hr
    cases hd : s.names[n]? with
    | none => simp [hd] at hr
    | some d =>
      simp only [hd, Option.map_some, Option.getD_some] at hr
      exact hn (n, d) (Std.ExtTreeMap.mem_toList_iff_getElem?_eq_some.mpr hd) r hr

theorem linkName_wired {n : String} {d : Definition} (hd : s.names[n]? = some d)
    (h : s.graph.Wired s.wants s.isFormula X Y) :
    (s.linkName n d).graph.Wired s.wants s.isFormula (fun v => X v ∧ v ≠ .name n) Y :=
  link_wired (v := .name n) (s.precedents (referencesOf d)) h rfl
    (fun _ _ _ => wants_of_not_holds)
    (Or.inl (by
      change s.names.contains n = true
      rw [Std.ExtTreeMap.contains_eq_isSome_getElem?, hd]
      rfl)) fun u => by simp [wants, references, hd]

theorem foldl_linkName_spec (l : List (String × Definition)) (g : Graph Vertex)
    (hl : ∀ c ∈ l, s.names[c.1]? = some c.2)
    (h : g.Wired s.wants s.isFormula X fun _ => False) :
    ∃ g', l.foldl (fun s d => s.linkName d.1 d.2) (s.withGraph g) = s.withGraph g' ∧
      g'.Wired s.wants s.isFormula (fun v => X v ∧ ∀ c ∈ l, v ≠ .name c.1) fun _ => False := by
  induction l generalizing g X with
  | nil =>
    exact ⟨g, rfl, h.mono (fun v hv => ⟨fun hx => hv ⟨hx, by simp⟩, rfl⟩) fun _ _ => ⟨id, rfl⟩⟩
  | cons c l ih =>
    have h₁ := linkName_wired (s := s.withGraph g) (hl c List.mem_cons_self) h
    obtain ⟨g', hg', hwired⟩ := ih _ (fun d hd => hl d (List.mem_cons_of_mem c hd)) h₁
    refine ⟨g', ?_, hwired.mono (fun v hv => ⟨?_, rfl⟩) fun _ _ => ⟨id, rfl⟩⟩
    · rw [List.foldl_cons, ← hg']
      exact congrArg (l.foldl fun s d => s.linkName d.1 d.2) (link_eq _ _ _)
    · intro he
      obtain ⟨⟨hx, hne⟩, hrest⟩ := he
      refine hv ⟨hx, fun d hd => ?_⟩
      rcases List.mem_cons.mp hd with rfl | hd
      · exact hne
      · exact hrest d hd

/-- Where no region is wrong about its members, linking a formula makes none so. -/
theorem linkFormula_wired {p : Position} {f : Formula} (hf : s.formula? p = some f)
    (h : s.graph.Wired s.wants s.isFormula X fun _ => False) :
    (s.linkFormula p f).graph.Wired s.wants s.isFormula (fun v => X v ∧ v ≠ .cell p)
      fun _ => False := by
  have hopen : s.graph.Wired s.wants s.isFormula (fun v => X v ∨ v = .cell p) fun _ => False :=
    h.mono (fun v hv => ⟨fun hx => hv (Or.inl hx), rfl⟩) fun _ _ => ⟨id, rfl⟩
  have h₁ := linkFormula_spec (p := p) (f := f) hopen (Or.inr rfl) hf
    (fun _ _ _ => wants_of_not_holds) fun u => by
      unfold wants
      rw [references_cell hf]
  exact h₁.mono (fun v hv => ⟨fun hx => hv ⟨hx.1.resolve_right hx.2, hx.2⟩, rfl⟩)
    fun _ hq => ⟨fun hy => hy.1, rfl⟩

theorem foldl_linkFormula_spec (l : List (Position × Formula)) (g : Graph Vertex)
    (hl : ∀ c ∈ l, s.formula? c.1 = some c.2)
    (h : g.Wired s.wants s.isFormula X fun _ => False) :
    ∃ g', l.foldl (fun s c => s.linkFormula c.1 c.2) (s.withGraph g) = s.withGraph g' ∧
      g'.Wired s.wants s.isFormula (fun v => X v ∧ ∀ c ∈ l, v ≠ .cell c.1) fun _ => False := by
  induction l generalizing g X with
  | nil =>
    exact ⟨g, rfl, h.mono (fun v hv => ⟨fun hx => hv ⟨hx, by simp⟩, rfl⟩) fun _ _ => ⟨id, rfl⟩⟩
  | cons c l ih =>
    have h₁ := linkFormula_wired (s := s.withGraph g) (hl c List.mem_cons_self) h
    obtain ⟨g', hg', hwired⟩ := ih _ (fun d hd => hl d (List.mem_cons_of_mem c hd)) h₁
    refine ⟨g', ?_, hwired.mono (fun v hv => ⟨?_, rfl⟩) fun _ _ => ⟨id, rfl⟩⟩
    · rw [List.foldl_cons, ← hg']
      exact congrArg (l.foldl fun s c => s.linkFormula c.1 c.2) (linkFormula_eq _ _ _)
    · intro he
      obtain ⟨⟨hx, hne⟩, hrest⟩ := he
      refine hv ⟨hx, fun d hd => ?_⟩
      rcases List.mem_cons.mp hd with rfl | hd
      · exact hne
      · exact hrest d hd

/-- An empty graph is wrong about what reads something, and about nothing else. -/
theorem wired_empty (s : Sheet) :
    (Graph.empty : Graph Vertex).Wired s.wants s.isFormula (fun v => s.references v ≠ [])
      fun _ => False where
  mirrored := Graph.mirrored_empty
  reads v _ hX u := by
    have href : s.references v = [] := not_not.mp hX
    unfold wants
    rw [href]
    exact ⟨fun he => absurd he (Graph.not_edge_empty u v),
      fun hu => absurd hu (not_mem_precedents_nil u)⟩
  members r hr := by
    rw [Graph.contains_empty] at hr
    contradiction
  within r u hu := absurd hu (Graph.not_edge_empty u _)

/-- A graph that is made anew is in step. -/
theorem relinked_spec (s : Sheet) :
    s.relinked = s.withGraph s.relinked.graph ∧ s.relinked.Linked := by
  obtain ⟨g₁, he₁, h₁⟩ := foldl_linkName_spec s.names.toList .empty
    (fun c hc => Std.ExtTreeMap.mem_toList_iff_getElem?_eq_some.mp hc) s.wired_empty
  obtain ⟨g₂, he₂, h₂⟩ := foldl_linkFormula_spec s.formulas g₁ (fun c hc => mem_formulas.mp hc) h₁
  have he : s.relinked = s.withGraph g₂ := by
    rw [← he₂, ← he₁]
    have hformulas : (s.names.toList.foldl (fun s d => s.linkName d.1 d.2)
        (s.withGraph .empty)).formulas = s.formulas := by
      rw [he₁]
      rfl
    rw [← hformulas]
    rfl
  rw [he]
  refine ⟨rfl, Graph.Wired.mono h₂ (fun v _ => ⟨?_, rfl⟩) fun _ _ => ⟨id, rfl⟩⟩
  intro h
  obtain ⟨⟨href, hnames⟩, hformulas⟩ := h
  apply href
  cases v with
  | region r => rfl
  | cell p =>
    cases hf : s.formula? p with
    | none => simp [references, hf]
    | some f => exact absurd rfl (hformulas (p, f) (mem_formulas.mpr hf))
  | name n =>
    cases hd : s.names[n]? with
    | none => simp [references, hd]
    | some d =>
      exact absurd rfl (hnames (n, d) (Std.ExtTreeMap.mem_toList_iff_getElem?_eq_some.mpr hd))

end Spreadsheet.Sheet
