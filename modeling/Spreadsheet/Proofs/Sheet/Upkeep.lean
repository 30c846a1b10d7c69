import Spreadsheet.Proofs.Sheet.Operation

/-! Which vertices a graph keeps. Whatever holds a formula or a definition is a vertex, and any
other vertex is there because something reads it. An edit takes readers away; what they read is
looked at and dropped, and nothing further has to go, as a dropped vertex reads nothing but formula
cells. The exception is a region that is emptied: a cell that is still to be unlinked may be
dropped before it is asked what it read. -/

namespace Spreadsheet

/-- All that is `held` is a vertex, unless it is `fresh`, and each vertex is held or read, unless it
is `loose`. Where strays are tolerated (`lax`), vertices may also stay for no reason. -/
structure Graph.Tidy (g : Graph Vertex) (held : Vertex → Bool) (lax : Prop)
    (fresh loose : Vertex → Prop) : Prop where
  present : ∀ v, held v = true → fresh v ∨ g.contains v = true
  used : ∀ v, g.contains v = true → held v = false → lax ∨ loose v ∨ ∃ w, g.Edge v w

namespace Graph.Tidy

variable {g g' : Graph Vertex} {held held' : Vertex → Bool} {lax : Prop}
  {fresh fresh' loose loose' : Vertex → Prop}

theorem mono (h : g.Tidy held lax fresh loose) (hf : ∀ v, held v = true → fresh v → fresh' v)
    (hl : ∀ v, held v = false → loose v → loose' v) : g.Tidy held lax fresh' loose' where
  present v hv := (h.present v hv).imp_left (hf v hv)
  used v hc hv := (h.used v hc hv).imp_right (Or.imp_left (hl v hv))

/-- Where something comes to be held it is fresh, and what is held no longer is loose. -/
theorem reheld (h : g.Tidy held lax (fun _ => False) fun _ => False) {X : Vertex → Prop}
    (hX : ∀ v, ¬ X v → held' v = held v) : g.Tidy held' lax X X where
  present v hv := by
    by_cases hx : X v
    · exact Or.inl hx
    · exact Or.inr ((h.present v (hX v hx ▸ hv)).resolve_left id)
  used v hc hv := by
    by_cases hx : X v
    · exact Or.inr (Or.inl hx)
    · refine (h.used v hc (hX v hx ▸ hv)).imp_right fun hu => Or.inr ?_
      exact hu.resolve_left id

/-- A graph that grows keeps what it had. -/
theorem grow (h : g.Tidy held lax fresh loose)
    (hcontains : ∀ v, g.contains v = true → g'.contains v = true)
    (hedge : ∀ v w, g.Edge v w → g'.Edge v w)
    (hpresent : ∀ v, held v = true → fresh v → fresh' v ∨ g'.contains v = true)
    (hloose : ∀ v, held v = false → loose v → loose' v ∨ ∃ w, g'.Edge v w)
    (hnew : ∀ v, held v = false → g'.contains v = true →
      g.contains v = true ∨ loose' v ∨ ∃ w, g'.Edge v w) :
    g'.Tidy held lax fresh' loose' where
  present v hv := by
    rcases h.present v hv with hf | hc
    · exact hpresent v hv hf
    · exact Or.inr (hcontains v hc)
  used v hc hv := by
    rcases hnew v hv hc with hc | hn
    · rcases h.used v hc hv with hlax | hl | ⟨w, hw⟩
      · exact Or.inl hlax
      · exact Or.inr (hloose v hv hl)
      · exact Or.inr (Or.inr ⟨w, hedge v w hw⟩)
    · exact Or.inr hn

theorem removePrecedents (h : g.Tidy held lax fresh loose) (v : Vertex) :
    (g.removePrecedents v).Tidy held lax fresh fun u => loose u ∨ u ∈ g.precedentsOf v where
  present u hu := (h.present u hu).imp_right Graph.contains_removePrecedents.mpr
  used u hc hu := by
    rcases h.used u (Graph.contains_removePrecedents.mp hc) hu with hlax | hl | ⟨w, hw⟩
    · exact Or.inl hlax
    · exact Or.inr (Or.inl (Or.inl hl))
    · by_cases hwv : w = v
      · exact Or.inr (Or.inl (Or.inr (Graph.mem_precedentsOf.mpr (hwv ▸ hw))))
      · exact Or.inr (Or.inr ⟨w, Graph.edge_removePrecedents.mpr ⟨hwv, hw⟩⟩)

theorem addEdges (h : g.Tidy held lax fresh loose) (hg : g.Mirrored) (ps : List Vertex)
    (v : Vertex) :
    (g.addEdges ps v).Tidy held lax (fun u => fresh u ∧ u ≠ v)
      fun u => (loose u ∧ u ∉ ps) ∨ u = v := by
  have hedge (u w : Vertex) : (g.addEdges ps v).Edge u w ↔ (u ∈ ps ∧ w = v) ∨ g.Edge u w :=
    Graph.edge_addEdges hg
  have hcontains (u : Vertex) :
      (g.addEdges ps v).contains u = true ↔ u ∈ ps ∨ u = v ∨ g.contains u = true :=
    Graph.contains_addEdges hg
  refine h.grow (fun u hu => (hcontains u).mpr (Or.inr (Or.inr hu)))
    (fun u w hu => (hedge u w).mpr (Or.inr hu)) (fun u _ hf => ?_) (fun u _ hl => ?_)
    fun u _ hc => ?_
  · by_cases huv : u = v
    · exact Or.inr ((hcontains u).mpr (Or.inr (Or.inl huv)))
    · exact Or.inl ⟨hf, huv⟩
  · by_cases hu : u ∈ ps
    · exact Or.inr ⟨v, (hedge u v).mpr (Or.inl ⟨hu, rfl⟩)⟩
    · exact Or.inl (Or.inl ⟨hl, hu⟩)
  · rcases (hcontains u).mp hc with hu | hu | hu
    · exact Or.inr (Or.inr ⟨v, (hedge u v).mpr (Or.inl ⟨hu, rfl⟩)⟩)
    · exact Or.inr (Or.inl (Or.inr hu))
    · exact Or.inl hu

/-- Regions that are vertices come to read a formula cell. -/
theorem join (h : g.Tidy held lax fresh loose) (hg : g.Mirrored) {p : Position} (vs : List Vertex)
    (hp : held (.cell p) = true) (hvs : ∀ v ∈ vs, g.contains v = true) :
    (vs.foldl (fun g r => g.addEdge (.cell p) r) g).Tidy held lax fresh loose := by
  obtain ⟨-, he, hc⟩ := Graph.foldl_addEdge_spec (fun _ : Vertex => .cell p) id vs g hg
  refine h.grow (fun v hv => (hc v).mpr (Or.inr hv)) (fun v w hv => (he v w).mpr (Or.inr hv))
    (fun _ _ => Or.inl) (fun _ _ => Or.inl) fun v hv hcv => Or.inl ?_
  rcases (hc v).mp hcv with ⟨r, hr, e | e⟩ | hv'
  · rw [e, hp] at hv
    contradiction
  · exact e ▸ hvs r hr
  · exact hv'

/-- A loose cell may be read by fewer. -/
theorem leave (h : g.Tidy held lax fresh loose) (hg : g.Mirrored) {p : Position} {vs : List Vertex}
    (hp : loose (.cell p)) :
    (vs.foldl (fun g r => g.removeEdge (.cell p) r) g).Tidy held lax fresh loose := by
  obtain ⟨-, he, hc⟩ := Graph.foldl_removeEdge_spec (.cell p) vs g hg
  refine ⟨fun v hv => (h.present v hv).imp_right (hc v).mpr, fun v hcv hv => ?_⟩
  rcases h.used v ((hc v).mp hcv) hv with hlax | hl | ⟨w, hw⟩
  · exact Or.inl hlax
  · exact Or.inr (Or.inl hl)
  · by_cases hvp : v = .cell p
    · exact Or.inr (Or.inl (hvp ▸ hp))
    · exact Or.inr (Or.inr ⟨w, (he v w).mpr ⟨fun hn => hvp hn.1, hw⟩⟩)

end Graph.Tidy

namespace Sheet

variable {s t : Sheet} {w : Vertex → List Vertex} {X : Vertex → Prop} {Y : Position → Prop}
  {lax : Prop} {fresh loose : Vertex → Prop}

/-! ## Pruning -/

/-- What is looked at is not loose afterwards. What it read, if it is dropped, has to be held or to
be loose and looked at later. -/
theorem pruneOne_tidy (h : s.graph.Tidy s.holds lax fresh loose) (hg : s.graph.Mirrored)
    {v : Vertex}
    (hv : s.holds v = false → ∀ u, s.graph.Edge u v → s.holds u = true ∨ lax ∨ loose u ∧ u ≠ v) :
    (s.pruneOne v).graph.Tidy s.holds lax fresh fun u => loose u ∧ u ≠ v := by
  unfold pruneOne
  split
  · rename_i hdrop
    simp only [Bool.and_eq_true, Bool.not_eq_true'] at hdrop
    refine ⟨fun u hu => (h.present u hu).imp_right fun hc => ?_, fun u hc hu => ?_⟩
    · refine Graph.contains_removeVertex.mpr ⟨?_, hc⟩
      rintro rfl
      rw [hdrop.2] at hu
      contradiction
    · obtain ⟨huv, hc⟩ := Graph.contains_removeVertex.mp hc
      rcases h.used u hc hu with hlax | hl | ⟨a, ha⟩
      · exact Or.inl hlax
      · exact Or.inr (Or.inl ⟨hl, huv⟩)
      · by_cases hav : a = v
        · subst hav
          rcases hv hdrop.2 u ha with hheld | hlax | hl
          · rw [hheld] at hu
            contradiction
          · exact Or.inl hlax
          · exact Or.inr (Or.inl hl)
        · exact Or.inr (Or.inr ⟨a, (Graph.edge_removeVertex hg).mpr ⟨huv, hav, ha⟩⟩)
  · rename_i hkeep
    refine ⟨h.present, fun u hc hu => ?_⟩
    by_cases huv : u = v
    · subst huv
      -- it stays because it is read
      have hread : ¬ (s.graph.dependentsOf u).isEmpty = true := by
        intro he
        exact hkeep (by rw [hc, he, hu]; rfl)
      rw [Graph.isEmpty_dependentsOf hg] at hread
      obtain ⟨a, ha⟩ := not_forall_not.mp hread
      exact Or.inr (Or.inr ⟨a, ha⟩)
    · exact (h.used u hc hu).imp_right (Or.imp_left fun hl => ⟨hl, huv⟩)

theorem mirrored_pruneOne (hg : s.graph.Mirrored) (v : Vertex) :
    (s.pruneOne v).graph.Mirrored := by
  rcases pruneOne_cases hg v with he | ⟨-, he, -⟩
  · rwa [he]
  · rw [he]
    exact hg.removeVertex

theorem edge_of_pruneOne (hg : s.graph.Mirrored) {v a b : Vertex}
    (h : (s.pruneOne v).graph.Edge a b) : s.graph.Edge a b := by
  rcases pruneOne_cases hg v with he | ⟨-, he, hedge⟩
  · rwa [he] at h
  · rw [he] at h
    exact ((hedge a b).mp h).2

theorem holds_pruneOne (s : Sheet) (v : Vertex) : (s.pruneOne v).holds = s.holds := by
  rw [pruneOne_eq]
  rfl

theorem edge_of_prune (vs : List Vertex) (hg : s.graph.Mirrored) {a b : Vertex}
    (h : (s.prune vs).graph.Edge a b) : s.graph.Edge a b := by
  induction vs generalizing s with
  | nil => exact h
  | cons v vs ih => exact edge_of_pruneOne hg (ih (mirrored_pruneOne hg v) h)

theorem prune_tidy (vs : List Vertex) (h : s.graph.Tidy s.holds lax fresh loose)
    (hg : s.graph.Mirrored)
    (hvs : ∀ v ∈ vs, s.holds v = false → ∀ u, s.graph.Edge u v →
      s.holds u = true ∨ lax ∨ loose u ∧ u ∉ vs) :
    (s.prune vs).graph.Tidy s.holds lax fresh fun u => loose u ∧ u ∉ vs := by
  induction vs generalizing s loose with
  | nil => exact h.mono (fun _ _ => id) fun v _ hl => ⟨hl, List.not_mem_nil⟩
  | cons v vs ih =>
    have h₁ := pruneOne_tidy h hg (v := v) fun hv u hu => by
      rcases hvs v List.mem_cons_self hv u hu with hheld | hlax | ⟨hl, hn⟩
      · exact Or.inl hheld
      · exact Or.inr (Or.inl hlax)
      · exact Or.inr (Or.inr ⟨hl, fun e => hn (e ▸ List.mem_cons_self)⟩)
    have hholds := s.holds_pruneOne v
    have h₂ := ih (s := s.pruneOne v) (hholds ▸ h₁) (mirrored_pruneOne hg v) fun c hc hheld u hu => by
      rw [hholds] at hheld ⊢
      rcases hvs c (List.mem_cons_of_mem v hc) hheld u (edge_of_pruneOne hg hu) with
        hheld | hlax | ⟨hl, hn⟩
      · exact Or.inl hheld
      · exact Or.inr (Or.inl hlax)
      · rw [List.mem_cons, not_or] at hn
        exact Or.inr (Or.inr ⟨⟨hl, hn.1⟩, hn.2⟩)
    rw [hholds] at h₂
    refine h₂.mono (fun _ _ => id) fun u _ hu => ?_
    obtain ⟨⟨hl, huv⟩, hn⟩ := hu
    exact ⟨hl, by simp [huv, hn]⟩

/-- What nothing holds reads formula cells at most. -/
theorem source_of_not_holds (h : s.graph.Wired w s.isFormula X Y) {u v : Vertex}
    (hw : v.region? = none → ¬ X v → ∀ a, a ∉ w v) (hX : ¬ X v) (hu : s.graph.Edge u v) :
    ∃ q, u = .cell q ∧ (Y q ∨ s.isFormula q = true) := by
  cases v with
  | region r =>
    obtain ⟨q, rfl, -⟩ := h.within r u hu
    refine ⟨q, rfl, ?_⟩
    by_cases hY : Y q
    · exact Or.inl hY
    · exact Or.inr ((h.members r hu.target_mem q hY).mp hu).2
  | cell p => exact absurd ((h.reads _ rfl hX u).mp hu) (hw rfl hX u)
  | name n => exact absurd ((h.reads _ rfl hX u).mp hu) (hw rfl hX u)

/-! ## Linking -/

theorem linkMembers_tidy (h : s.graph.Tidy s.holds lax fresh loose)
    (hw : s.graph.Wired w s.isFormula X Y) (v : Vertex) :
    (s.linkMembers v).graph.Tidy s.holds lax fresh fun u => loose u ∨ u = v := by
  have hsame : s.graph.Tidy s.holds lax fresh fun u => loose u ∨ u = v :=
    h.mono (fun _ _ => id) fun _ _ => Or.inl
  unfold linkMembers
  split
  · rename_i r
    split
    · exact hsame
    · obtain ⟨-, he, hc⟩ := Graph.foldl_addEdge_spec (fun c : Position × Cell => .cell c.1)
        (fun _ => Vertex.region r) ((s.cellsIn r).filter (·.2.isFormula)) s.graph hw.mirrored
      refine hsame.grow (fun u hu => (hc u).mpr (Or.inr hu)) (fun a b ha => (he a b).mpr (Or.inr ha))
        (fun _ _ => Or.inl) (fun _ _ => Or.inl) fun u hu hcu => ?_
      rcases (hc u).mp hcu with ⟨c, hmem, e | e⟩ | hu'
      · have hformula := (mem_formulasIn.mp ⟨c, hmem, rfl⟩).2
        rw [e] at hu
        exact absurd (hformula.symm.trans hu) (by simp)
      · exact Or.inr (Or.inl (Or.inr e))
      · exact Or.inl hu'
  · exact hsame

theorem foldl_linkMembers_tidy (vs : List Vertex) (h : s.graph.Tidy s.holds lax fresh loose)
    (hw : s.graph.Wired w s.isFormula X Y) :
    (vs.foldl linkMembers s).graph.Tidy s.holds lax fresh fun u => loose u ∨ u ∈ vs := by
  induction vs generalizing s loose with
  | nil => exact h.mono (fun _ _ => id) fun _ _ => Or.inl
  | cons v vs ih =>
    have he := s.linkMembers_eq v
    have hholds : (s.linkMembers v).holds = s.holds := by
      rw [he]
      rfl
    have hformula : (s.linkMembers v).isFormula = s.isFormula := by
      rw [he]
      rfl
    have h₁ := linkMembers_tidy h hw v
    have hw₁ := (linkMembers_spec hw v).1
    rw [← hholds] at h₁
    rw [← hformula] at hw₁
    have h₂ := ih h₁ hw₁
    rw [hholds] at h₂
    refine h₂.mono (fun _ _ => id) fun u _ hu => ?_
    rcases hu with (hl | rfl) | hu
    · exact Or.inl hl
    · exact Or.inr List.mem_cons_self
    · exact Or.inr (List.mem_cons_of_mem v hu)

theorem attach_tidy {v : Vertex} (ps : List Vertex) (h : s.graph.Tidy s.holds lax fresh loose)
    (hw : s.graph.Wired w s.isFormula X Y) (hX : X v) (hv : v.region? = none) :
    (s.attach v ps).graph.Tidy s.holds lax (fun u => fresh u ∧ u ≠ v)
      fun u => loose u ∨ u ∈ s.graph.precedentsOf v ∨ u = v := by
  have hw₁ := hw.removePrecedents hX hv
  have h₂ := foldl_linkMembers_tidy (s := s.withGraph (s.graph.removePrecedents v)) ps
    (h.removePrecedents v) hw₁
  have hw₂ := (foldl_linkMembers_spec (s := s.withGraph (s.graph.removePrecedents v)) ps hw₁).1
  unfold attach
  dsimp only
  generalize ps.foldl linkMembers (s.withGraph (s.graph.removePrecedents v)) = s₂ at *
  refine (h₂.addEdges hw₂.mirrored ps v).mono (fun _ _ => id) fun u _ hu => ?_
  rcases hu with ⟨(hl | hold) | hps, hn⟩ | rfl
  · exact Or.inl hl
  · exact Or.inr (Or.inl hold)
  · exact absurd hps hn
  · exact Or.inr (Or.inr rfl)

/-- What a vertex read before it is linked stays only if something else reads it. -/
theorem link_tidy {v : Vertex} (ps : List Vertex) (h : s.graph.Tidy s.holds lax fresh loose)
    (hw : s.graph.Wired w s.isFormula X Y) (hX : X v) (hv : v.region? = none)
    (hkeep : ∀ u, ¬ X u → s.holds u = false → ∀ a, a ∉ w u)
    (hps : s.holds v = true ∨ ps = [])
    (hXheld : ∀ u, X u → u = v ∨ s.holds u = true) (hY : ∀ q, Y q → s.isFormula q = true) :
    (s.link v ps).graph.Tidy s.holds lax (fun u => fresh u ∧ u ≠ v) fun u => loose u ∨ u = v := by
  obtain ⟨hw₃, hv₃⟩ := attach_spec ps hw hX hv
  have h₃ := attach_tidy ps h hw hX hv
  have hholds := s.holds_attach v ps
  have hformula : (s.attach v ps).isFormula = s.isFormula := by
    rw [attach_eq]
    rfl
  rw [← hformula] at hw₃
  rw [← hholds] at h₃ ⊢
  rw [link_eq_prune]
  refine (prune_tidy _ h₃ hw₃.mirrored fun c _ hheld u hu => Or.inl ?_).mono (fun _ _ => id)
    fun u _ hu => ?_
  · rw [hholds] at hheld ⊢
    have hXc : ¬ X c := by
      intro hx
      rcases hXheld c hx with rfl | hh
      · have hnil := hps.resolve_left (by simp [hheld])
        have hmem := (hv₃ u).mp hu
        rw [hnil] at hmem
        exact List.not_mem_nil hmem
      · exact absurd (hh.symm.trans hheld) (by simp)
    obtain ⟨q, rfl, hq⟩ := source_of_not_holds hw₃ (fun _ hx => hkeep c hx hheld) hXc hu
    rw [hformula] at hq
    exact hq.elim (hY q) id
  · obtain ⟨hl | hold | rfl, hn⟩ := hu
    · exact Or.inl hl
    · exact absurd hold hn
    · exact Or.inr rfl

theorem linkFormula_tidy {p : Position} {f : Formula} (h : s.graph.Tidy s.holds lax fresh loose)
    (hw : s.graph.Wired w s.isFormula X Y) (hX : X (.cell p)) (hf : s.formula? p = some f)
    (hkeep : ∀ u, ¬ X u → s.holds u = false → ∀ a, a ∉ w u)
    (hXheld : ∀ u, X u → u = .cell p ∨ s.holds u = true) (hY : ∀ q, Y q → s.isFormula q = true) :
    (s.linkFormula p f).graph.Tidy s.holds lax (fun u => fresh u ∧ u ≠ .cell p) loose := by
  have hp : s.holds (.cell p) = true := isFormula_of_formula? hf
  have h₁ := link_tidy (v := .cell p) (s.precedents f.references) h hw hX rfl hkeep (Or.inl hp)
    hXheld hY
  have hw₁ := (link_spec (v := .cell p) (s.precedents f.references) hw hX rfl
    (fun u _ => hkeep u) (Or.inl hp)).1
  have hjoin := h₁.join hw₁.mirrored
    ((s.link (.cell p) (s.precedents f.references)).regionsAround p) hp
    fun v hv => (mem_regionsAround.mp hv).choose_spec.2.1
  refine hjoin.mono (fun _ _ => id) fun u hu hl => hl.resolve_right ?_
  rintro rfl
  rw [hp] at hu
  contradiction

/-! ## Unlinking -/

theorem mirrored_detach (hg : s.graph.Mirrored) (p : Position) : (s.detach p).graph.Mirrored := by
  have h := (Graph.foldl_removeEdge_spec (.cell p) (s.regionsOver p) _
    (hg.removePrecedents (x := .cell p))).1
  exact h

theorem edge_of_unlinkCell (hg : s.graph.Mirrored) {p : Position} {a b : Vertex}
    (h : (s.unlinkCell p).graph.Edge a b) : s.graph.Edge a b := by
  rw [unlinkCell_eq_prune] at h
  exact ((edge_detach hg).mp (edge_of_prune _ (mirrored_detach hg p) h)).2.2

/-- What waits to be unlinked is not dropped with another cell, unless that one reads it. -/
theorem unlinkCell_tidy {p : Position} (h : s.graph.Tidy s.holds lax fresh X)
    (hw : s.graph.Wired w s.isFormula X Y) (hX : X (.cell p)) (hf : s.isFormula p = false)
    (hkeep : ∀ u, ¬ X u → s.holds u = false → ∀ a, a ∉ w u) (hp : ∀ u, u ∉ w (.cell p))
    (hregion : ∀ u, X u → u.region? = none) (hY : ∀ q, Y q → X (.cell q))
    (hlayer : lax ∨ ∀ u, X u → u ≠ .cell p → ¬ s.graph.Edge u (.cell p)) :
    (s.unlinkCell p).graph.Tidy s.holds lax fresh fun u => X u ∧ u ≠ .cell p := by
  have hw₁ := detach_spec hw hX hf hp
  have h₁ : (s.detach p).graph.Tidy s.holds lax fresh
      fun u => X u ∨ u ∈ s.graph.precedentsOf (.cell p) :=
    (h.removePrecedents (.cell p)).leave hw.mirrored.removePrecedents (Or.inl hX)
  rw [unlinkCell_eq_prune]
  generalize hvs : s.graph.precedentsOf (.cell p) ++ s.regionsOver p ++ [.cell p] = vs
  have hmem (u : Vertex) : u ∈ vs ↔
      s.graph.Edge u (.cell p) ∨ u ∈ s.regionsOver p ∨ u = .cell p := by
    rw [← hvs]
    simp [Graph.mem_precedentsOf]
  have hover (u : Vertex) (hu : u.region? = none) : u ∉ s.regionsOver p := by
    intro hin
    have hr := ((mem_regionsOver hw.mirrored).mp hin).2
    rw [hu] at hr
    contradiction
  rcases hlayer with hlax | hlayer
  · exact ((prune_tidy vs h₁ hw₁.mirrored fun _ _ _ _ _ =>
      Or.inr (Or.inl hlax)).mono (fun _ _ => id) fun u _ hu => by
        obtain ⟨hl | hold, hn⟩ := hu
        · exact ⟨hl, fun e => hn ((hmem u).mpr (Or.inr (Or.inr e)))⟩
        · exact absurd ((hmem u).mpr (Or.inl (Graph.mem_precedentsOf.mp hold))) hn)
  · have hwaits (u : Vertex) (hu : X u) (hup : u ≠ .cell p) : u ∉ vs := by
      rw [hmem]
      rintro (he | hr | e)
      · exact hlayer u hu hup he
      · exact hover u (hregion u hu) hr
      · exact hup e
    refine (prune_tidy vs h₁ hw₁.mirrored fun c hc hheld u hu => ?_).mono (fun _ _ => id)
      fun u _ hu => ?_
    · have hXc : ¬ (X c ∧ c ≠ .cell p) := fun hx => hwaits c hx.1 hx.2 hc
      have hreads (hx : ¬ (X c ∧ c ≠ .cell p)) (a : Vertex) : a ∉ w c := by
        by_cases hcp : c = .cell p
        · rw [hcp]
          exact hp a
        · exact hkeep c (fun hXc => hx ⟨hXc, hcp⟩) hheld a
      obtain ⟨q, rfl, hq⟩ := source_of_not_holds (s := s.detach p) hw₁ (fun _ => hreads) hXc hu
      rcases hq with ⟨hYq, hqp⟩ | hq
      · have hne : Vertex.cell q ≠ .cell p := fun e => hqp (Vertex.cell.inj e)
        exact Or.inr (Or.inr ⟨Or.inl (hY q hYq), hwaits _ (hY q hYq) hne⟩)
      · exact Or.inl hq
    · obtain ⟨hl | hold, hn⟩ := hu
      · exact ⟨hl, fun e => hn ((hmem u).mpr (Or.inr (Or.inr e)))⟩
      · exact absurd ((hmem u).mpr (Or.inl (Graph.mem_precedentsOf.mp hold))) hn

/-! ## Sheets -/

/-- The vertices of the graph are what is held and what is read, and perhaps (`lax`) strays. -/
def Tidy (s : Sheet) (lax : Prop) : Prop :=
  s.graph.Tidy s.holds lax (fun _ => False) fun _ => False

/-- Nothing reads the vertex, and nothing keeps it. -/
def IsStray (s : Sheet) (v : Vertex) : Prop := s.holds v = false ∧ ∀ w, ¬ s.graph.Edge v w

theorem Tidy.contains (h : s.Tidy lax) {v : Vertex} (hv : s.holds v = true) :
    s.graph.contains v = true :=
  (h.present v hv).resolve_left id

theorem tidy_iff (h : s.Tidy True) :
    s.Tidy False ↔ ∀ v, s.graph.contains v = true → ¬ s.IsStray v := by
  constructor
  · intro hs v hv hstray
    rcases hs.used v hv hstray.1 with hf | hf | ⟨w, hw⟩
    · exact hf
    · exact hf
    · exact hstray.2 w hw
  · intro hs
    refine ⟨h.present, fun v hv hheld => Or.inr (Or.inr ?_)⟩
    by_contra hno
    exact hs v hv ⟨hheld, not_exists.mp hno⟩

theorem Tidy.weaken (h : s.Tidy lax) : s.Tidy True where
  present := h.present
  used _ _ _ := Or.inl trivial

theorem Tidy.congr (h : s.Tidy lax) (hg : t.graph = s.graph) (hh : t.holds = s.holds) :
    t.Tidy lax := by
  unfold Tidy
  rw [hg, hh]
  exact h

/-- A region reads formula cells. -/
theorem Linked.holds_of_edge (hs : s.Linked) {r : Region} {u : Vertex}
    (h : s.graph.Edge u (.region r)) : s.holds u = true := by
  obtain ⟨q, rfl, -⟩ := hs.within r u h
  exact ((hs.members r h.target_mem q id).mp h).2

/-- The graph of a sheet without strays is what remains of any graph that is in step with the same
contents once the strays are taken out. -/
theorem Linked.swept (hs : s.Linked) (h : s.Tidy True) (ht : t.Linked) (h' : t.Tidy False)
    (hreferences : t.references = s.references) (hsettings : t.settings = s.settings)
    (hholds : t.holds = s.holds) :
    (∀ v, t.graph.contains v = true ↔ s.graph.contains v = true ∧ ¬ s.IsStray v) ∧
      ∀ u v, t.graph.Edge u v ↔ s.graph.Edge u v ∧ ¬ s.IsStray v := by
  have hwants : t.wants = s.wants := by
    funext v
    unfold wants precedents verticesRead verticesOf
    rw [hreferences, hsettings]
  have hread {v : Vertex} (hv : v.region? = none) (u : Vertex) :
      t.graph.Edge u v ↔ s.graph.Edge u v := by
    rw [hs.reads v hv id, ht.reads v hv id, hwants]
  have hcontains (v : Vertex) :
      t.graph.contains v = true ↔ s.graph.contains v = true ∧ ¬ s.IsStray v := by
    cases hv : s.holds v with
    | true =>
      have hstray : ¬ s.IsStray v := fun hx => absurd (hv.symm.trans hx.1) (by simp)
      simp [h.contains hv, h'.contains (hholds ▸ hv), hstray]
    | false =>
      constructor
      · intro hc
        rcases h'.used v hc (hholds ▸ hv) with hf | hf | ⟨w, hw⟩
        · exact hf.elim
        · exact hf.elim
        · have hregion : w.region? = none := by
            cases w with
            | region r => exact absurd (ht.holds_of_edge hw) (by simp [hholds, hv])
            | _ => rfl
          have hw' := (hread hregion v).mp hw
          exact ⟨hs.mirrored.source_mem hw', fun hx => hx.2 w hw'⟩
      · rintro ⟨hc, hstray⟩
        have hsome : ∃ w, s.graph.Edge v w := by
          by_contra hno
          exact hstray ⟨hv, not_exists.mp hno⟩
        obtain ⟨w, hw⟩ := hsome
        have hregion : w.region? = none := by
          cases w with
          | region r => exact absurd (hs.holds_of_edge hw) (by simp [hv])
          | _ => rfl
        exact ht.mirrored.source_mem ((hread hregion v).mpr hw)
  refine ⟨hcontains, fun u v => ?_⟩
  by_cases hv : v.region? = none
  · rw [hread hv]
    refine (and_iff_left_of_imp fun he hx => ?_).symm
    exact wants_of_not_holds hx.1 u ((hs.reads v hv id u).mp he)
  · cases v with
    | cell p => exact absurd rfl hv
    | name n => exact absurd rfl hv
    | region r =>
      constructor
      · intro he
        obtain ⟨hc, hstray⟩ := (hcontains _).mp he.target_mem
        obtain ⟨q, rfl, -⟩ := ht.within r u he
        have hmem := (ht.members r he.target_mem q id).mp he
        have hq : s.isFormula q = true := by
          have := ht.holds_of_edge he
          rwa [hholds] at this
        exact ⟨(hs.members r hc q id).mpr ⟨hmem.1, hq⟩, hstray⟩
      · rintro ⟨he, hstray⟩
        have hc := (hcontains _).mpr ⟨he.target_mem, hstray⟩
        obtain ⟨q, rfl, -⟩ := hs.within r u he
        have hmem := (hs.members r he.target_mem q id).mp he
        have hq : t.holds (.cell q) = true := by
          rw [hholds]
          exact hs.holds_of_edge he
        exact (ht.members r hc q id).mpr ⟨hmem.1, hq⟩

/-- The contents leave no choice of a graph without strays. -/
theorem Linked.graph_eq (hs : s.Linked) (h : s.Tidy False) (ht : t.Linked) (h' : t.Tidy False)
    (hreferences : t.references = s.references) (hsettings : t.settings = s.settings)
    (hholds : t.holds = s.holds) : t.graph = s.graph := by
  obtain ⟨hcontains, hedge⟩ := hs.swept h.weaken ht h' hreferences hsettings hholds
  have hstray := (tidy_iff h.weaken).mp h
  refine ht.mirrored.ext hs.mirrored (fun v => ?_) fun u v => ?_
  · exact (hcontains v).trans (and_iff_left_of_imp (hstray v))
  · exact (hedge u v).trans (and_iff_left_of_imp fun he => hstray v he.target_mem)

/-! ## A graph that is made anew -/

theorem holds_of_references {v : Vertex} (h : s.references v ≠ []) : s.holds v = true := by
  by_contra hv
  exact h (references_of_not_holds (by simpa using hv))

theorem holds_of_name {n : String} {d : Definition} (h : s.names[n]? = some d) :
    s.holds (.name n) = true := by
  show s.names.contains n = true
  rw [Std.ExtTreeMap.contains_eq_isSome_getElem?, h]
  rfl

/-- The graph is in step but for things that are held, and regions are right about their members. -/
theorem linkName_tidy {n : String} {d : Definition} (hd : s.names[n]? = some d)
    (hw : s.graph.Wired s.wants s.isFormula X fun _ => False)
    (hX : ∀ v, X v → s.holds v = true) (h : s.graph.Tidy s.holds lax fresh loose) :
    (s.linkName n d).graph.Tidy s.holds lax (fun v => fresh v ∧ v ≠ .name n) loose := by
  have hheld := holds_of_name hd
  have hopen : s.graph.Wired s.wants s.isFormula (fun v => X v ∨ v = .name n) fun _ => False :=
    hw.mono (fun v hv => ⟨fun hx => hv (Or.inl hx), rfl⟩) fun _ _ => ⟨id, rfl⟩
  have h₁ := link_tidy (v := .name n) (s.precedents (referencesOf d)) h hopen (Or.inr rfl) rfl
    (fun _ _ => wants_of_not_holds) (Or.inl hheld) (fun u hu => hu.symm.imp_right (hX u)) nofun
  refine h₁.mono (fun _ _ => id) fun u hu hl => hl.resolve_right ?_
  rintro rfl
  rw [hheld] at hu
  contradiction

theorem linkFormula_tidy_of_held {p : Position} {f : Formula} (hf : s.formula? p = some f)
    (hw : s.graph.Wired s.wants s.isFormula X fun _ => False)
    (hX : ∀ v, X v → s.holds v = true) (h : s.graph.Tidy s.holds lax fresh loose) :
    (s.linkFormula p f).graph.Tidy s.holds lax (fun v => fresh v ∧ v ≠ .cell p) loose := by
  have hopen : s.graph.Wired s.wants s.isFormula (fun v => X v ∨ v = .cell p) fun _ => False :=
    hw.mono (fun v hv => ⟨fun hx => hv (Or.inl hx), rfl⟩) fun _ _ => ⟨id, rfl⟩
  exact linkFormula_tidy h hopen (Or.inr rfl) hf (fun _ _ => wants_of_not_holds)
    (fun u hu => hu.symm.imp_right (hX u)) nofun

theorem foldl_linkName_tidy (l : List (String × Definition)) (g : Graph Vertex)
    (hl : ∀ c ∈ l, s.names[c.1]? = some c.2)
    (hw : g.Wired s.wants s.isFormula X fun _ => False)
    (hX : ∀ v, X v → s.holds v = true) (h : g.Tidy s.holds lax fresh loose) :
    (l.foldl (fun s d => s.linkName d.1 d.2) (s.withGraph g)).graph.Tidy s.holds lax
      (fun v => fresh v ∧ ∀ c ∈ l, v ≠ .name c.1) loose := by
  induction l generalizing g X fresh with
  | nil => exact h.mono (fun v _ hf => ⟨hf, by simp⟩) fun _ _ => id
  | cons c l ih =>
    have hc := hl c List.mem_cons_self
    have hw₁ := linkName_wired (s := s.withGraph g) hc hw
    have h₁ := linkName_tidy (s := s.withGraph g) hc hw hX h
    have he : (s.withGraph g).linkName c.1 c.2 =
        s.withGraph ((s.withGraph g).linkName c.1 c.2).graph := link_eq _ _ _
    rw [List.foldl_cons, he]
    refine (ih _ (fun d hd => hl d (List.mem_cons_of_mem c hd)) hw₁ (fun v hv => hX v hv.1)
      h₁).mono (fun v _ hv => ?_) fun _ _ => id
    obtain ⟨⟨hf, hne⟩, hrest⟩ := hv
    refine ⟨hf, fun d hd => ?_⟩
    rcases List.mem_cons.mp hd with rfl | hd
    · exact hne
    · exact hrest d hd

theorem foldl_linkFormula_tidy (l : List (Position × Formula)) (g : Graph Vertex)
    (hl : ∀ c ∈ l, s.formula? c.1 = some c.2)
    (hw : g.Wired s.wants s.isFormula X fun _ => False)
    (hX : ∀ v, X v → s.holds v = true) (h : g.Tidy s.holds lax fresh loose) :
    (l.foldl (fun s c => s.linkFormula c.1 c.2) (s.withGraph g)).graph.Tidy s.holds lax
      (fun v => fresh v ∧ ∀ c ∈ l, v ≠ .cell c.1) loose := by
  induction l generalizing g X fresh with
  | nil => exact h.mono (fun v _ hf => ⟨hf, by simp⟩) fun _ _ => id
  | cons c l ih =>
    have hc := hl c List.mem_cons_self
    have hw₁ := linkFormula_wired (s := s.withGraph g) hc hw
    have h₁ := linkFormula_tidy_of_held (s := s.withGraph g) hc hw hX h
    have he : (s.withGraph g).linkFormula c.1 c.2 =
        s.withGraph ((s.withGraph g).linkFormula c.1 c.2).graph := linkFormula_eq _ _ _
    rw [List.foldl_cons, he]
    refine (ih _ (fun d hd => hl d (List.mem_cons_of_mem c hd)) hw₁ (fun v hv => hX v hv.1)
      h₁).mono (fun v _ hv => ?_) fun _ _ => id
    obtain ⟨⟨hf, hne⟩, hrest⟩ := hv
    refine ⟨hf, fun d hd => ?_⟩
    rcases List.mem_cons.mp hd with rfl | hd
    · exact hne
    · exact hrest d hd

/-- A graph that is made anew has no strays. -/
theorem relinked_tidy (s : Sheet) : s.relinked.Tidy False := by
  have hnames : ∀ c ∈ s.names.toList, s.names[c.1]? = some c.2 := fun c hc =>
    Std.ExtTreeMap.mem_toList_iff_getElem?_eq_some.mp hc
  have h₀ : (Graph.empty : Graph Vertex).Tidy s.holds False (fun v => s.holds v = true)
      fun _ => False := by
    refine ⟨fun v hv => Or.inl hv, fun v hv => ?_⟩
    rw [Graph.contains_empty] at hv
    contradiction
  have hX (v : Vertex) (hv : s.references v ≠ []) : s.holds v = true := holds_of_references hv
  have h₁ := foldl_linkName_tidy s.names.toList .empty hnames s.wired_empty hX h₀
  obtain ⟨g, he, hw⟩ := foldl_linkName_spec s.names.toList .empty hnames s.wired_empty
  rw [he] at h₁
  have h₂ := foldl_linkFormula_tidy s.formulas g (fun c hc => mem_formulas.mp hc) hw
    (fun v hv => hX v hv.1) h₁
  have hr : s.relinked = s.formulas.foldl (fun s c => s.linkFormula c.1 c.2) (s.withGraph g) := by
    have hformulas : (s.names.toList.foldl (fun s d => s.linkName d.1 d.2)
        (s.withGraph .empty)).formulas = s.formulas := by
      rw [he]
      rfl
    rw [← he, ← hformulas]
    rfl
  have hholds : s.relinked.holds = s.holds := by
    rw [(relinked_spec s).1]
    rfl
  unfold Tidy
  rw [hholds, hr]
  refine h₂.mono (fun v hv hf => ?_) fun _ _ => id
  obtain ⟨⟨-, hname⟩, hcell⟩ := hf
  cases v with
  | region r => contradiction
  | cell p =>
    obtain ⟨f, hf⟩ := Option.isSome_iff_exists.mp hv
    exact hcell (p, f) (mem_formulas.mpr hf) rfl
  | name n =>
    have hsome : s.names.contains n = true := hv
    rw [Std.ExtTreeMap.contains_eq_isSome_getElem?] at hsome
    obtain ⟨d, hd⟩ := Option.isSome_iff_exists.mp hsome
    exact hname (n, d) (Std.ExtTreeMap.mem_toList_iff_getElem?_eq_some.mpr hd) rfl

/-- Making the graph anew takes the strays out, and changes nothing else. -/
theorem relinked_swept (hs : s.Linked) (h : s.Tidy True) :
    (∀ v, s.relinked.graph.contains v = true ↔ s.graph.contains v = true ∧ ¬ s.IsStray v) ∧
      ∀ u v, s.relinked.graph.Edge u v ↔ s.graph.Edge u v ∧ ¬ s.IsStray v := by
  obtain ⟨he, hl⟩ := relinked_spec s
  refine hs.swept h hl s.relinked_tidy ?_ ?_ ?_ <;> rw [he] <;> rfl

theorem graph_eq_relinked_iff (hs : s.Linked) :
    s.graph = s.relinked.graph ↔ s.Tidy False := by
  constructor
  · intro he
    refine s.relinked_tidy.congr he ?_
    rw [(relinked_spec s).1]
    rfl
  · intro ht
    obtain ⟨he, hl⟩ := relinked_spec s
    refine (hs.graph_eq ht hl s.relinked_tidy ?_ ?_ ?_).symm <;> rw [he] <;> rfl

end Sheet

end Spreadsheet
