import Spreadsheet.Proofs.Sheet.Circularity
import Spreadsheet.Proofs.Sheet.Orderly

/-! Sheets whose graph is kept well: it is in step with the contents, and has neither strays nor
cycles. Contents leave no choice of such a graph. Whether or not the sheet calculates at once, an
operation on it does what it plans, or is refused and leaves what the sheet held; what it is refused
for follows from what the sheet holds, and calculations never fail. -/

namespace Spreadsheet.Sheet

open Relation

variable {s t u x restored : Sheet}

namespace SameHoldings

theorem symm (h : s.SameHoldings t) : t.SameHoldings s :=
  ⟨fun p => (h.contents p).symm, h.names.symm, h.formats.symm⟩

theorem references (h : s.SameHoldings t) : t.references = s.references := by
  funext v
  exact references_congr (fun p _ => h.formula? p) fun n _ => by rw [h.names]

theorem feeds (h : s.SameHoldings t) : t.Feeds = s.Feeds := by
  funext u v
  unfold Feeds
  rw [h.references]

theorem holds (h : s.SameHoldings t) : t.holds = s.holds := by
  funext v
  cases v with
  | cell p => exact isFormula_congr (h.formula? p)
  | region r => rfl
  | name n =>
    show t.names.contains n = s.names.contains n
    rw [h.names]

end SameHoldings

/-- The sheets hold the same, have the same settings, and are paused as often. -/
structure SameStanding (s t : Sheet) : Prop where
  holdings : s.SameHoldings t
  settings : t.settings = s.settings
  pauseDepth : t.pauseDepth = s.pauseDepth

namespace SameStanding

theorem refl (s : Sheet) : s.SameStanding s := ⟨.refl s, rfl, rfl⟩

theorem trans (h : s.SameStanding t) (h' : t.SameStanding u) : s.SameStanding u :=
  ⟨h.holdings.trans h'.holdings, h'.settings.trans h.settings, h'.pauseDepth.trans h.pauseDepth⟩

theorem withGraph (s : Sheet) (g : Graph Vertex) : s.SameStanding (s.withGraph g) :=
  ⟨⟨fun _ => rfl, rfl, rfl⟩, rfl, rfl⟩

end SameStanding

theorem Unchanged.sameStanding (h : s.Unchanged t) : s.SameStanding t where
  holdings := by
    refine ⟨fun p => ?_, h.names, h.formats⟩
    unfold contents?
    rw [h.cell]
  settings := h.settings
  pauseDepth := h.pauseDepth

theorem Revalued.sameStanding (h : s.Revalued t) : s.SameStanding t where
  holdings := h.sameHoldings
  settings := by
    rw [h.rest]
    rfl
  pauseDepth := by
    rw [h.rest]
    rfl

/-! ## Calculations -/

/-- Where nothing feeds itself, a calculation computes all that waits. -/
theorem Linked.calculate_of_isAcyclic (hs : s.Linked) (ha : s.IsAcyclic) :
    ∃ t n, s.calculate = ⟨t, .ok n⟩ ∧ t.Linked ∧ t.IsAcyclic ∧ s.SameStanding t ∧ t.dirty = ∅ := by
  unfold calculate
  split
  · rename_i hempty
    exact ⟨s, 0, rfl, hs, ha, .refl s, Std.ExtTreeSet.isEmpty_iff.mp hempty⟩
  · obtain ⟨order, horder⟩ : ∃ order, s.schedule = .ok order :=
      (Graph.sortWithin_isOk hs.mirrored fun _ _ => affected_closed hs).mpr fun v _ =>
        hs.graph_acyclic ha v
    have hr := revalued_evaluateCells (order.filterMap Vertex.cell?) { s with dirty := ∅ }
    have hstanding := hr.sameStanding
    rw [horder]
    refine ⟨_, _, rfl, hr.linked hs, fun v hv => ha v ?_, ⟨⟨hstanding.holdings.contents,
      hstanding.holdings.names, hstanding.holdings.formats⟩, hstanding.settings,
      hstanding.pauseDepth⟩, ?_⟩
    · rw [evaluateAll, hr.feeds] at hv
      exact hv
    · rw [evaluateAll, hr.rest]
      rfl

theorem Linked.resettle_of_isAcyclic (hs : s.Linked) (ha : s.IsAcyclic) :
    ∃ t n, s.resettle = ⟨t, .ok n⟩ ∧ t.Linked ∧ t.IsAcyclic ∧ s.SameStanding t ∧
      (s.isLive = true → t.dirty = ∅) := by
  unfold resettle
  split
  · obtain ⟨t, n, he, hlinked, hacyclic, hstanding, hdirty⟩ := hs.calculate_of_isAcyclic ha
    exact ⟨t, n, he, hlinked, hacyclic, hstanding, fun _ => hdirty⟩
  · rename_i hwaits
    exact ⟨s, 0, rfl, hs, ha, .refl s, fun hlive => absurd hlive hwaits⟩

/-! ## Sheets that are kept well -/

/-- The graph is in step, has no strays, and nothing feeds itself. -/
structure WellKept (s : Sheet) : Prop where
  linked : s.Linked
  tidy : s.Tidy False
  acyclic : s.IsAcyclic

/-- A sheet is kept well if its graph has no cycle and is the one that would be made anew. -/
theorem wellKept_of_graph (ha : ∀ v, ¬ TransGen s.graph.Edge v v) (hg : s.graph = s.relinked.graph) :
    s.WellKept := by
  have hlinked : s.Linked := by
    obtain ⟨he, hl⟩ := relinked_spec s
    rw [he, ← hg] at hl
    exact hl
  exact ⟨hlinked, (graph_eq_relinked_iff hlinked).mp hg, fun v hv =>
    ha v ((hlinked.cycle_iff (region?_of_transGen hv)).mpr hv)⟩

/-- What holds the same under the same settings has the same graph, if neither has strays. -/
theorem Linked.graph_eq_of_holdings (hs : s.Linked) (hts : s.Tidy False) (ht : t.Linked)
    (htt : t.Tidy False) (h : s.SameHoldings t) (hset : t.settings = s.settings) :
    t.graph = s.graph :=
  hs.graph_eq hts ht htt h.references hset h.holds

/-- What is calculated or paused differently is kept as well. -/
theorem WellKept.congr (h : s.WellKept) (hg : t.graph = s.graph) (hset : t.settings = s.settings)
    (hst : s.SameHoldings t) : t.WellKept where
  linked := by
    unfold Linked
    rw [hg]
    exact h.linked.reopen hset (fun v _ => congrFun hst.references v)
      fun q _ => congrFun hst.holds (.cell q)
  tidy := h.tidy.congr hg hst.holds
  acyclic v := by
    rw [hst.feeds]
    exact h.acyclic v

theorem WellKept.withAmbient (h : s.WellKept) (a : Ambient) : (s.withAmbient a).WellKept :=
  h.congr rfl rfl (.withAmbient s a)

/-! ## Operations -/

/-- The sheet that comes of the plan, up to the graph and what is computed, unless it is refused. -/
def Plan.Intends : Plan → Sheet → Prop
  | .refuse _, _ => False
  | .leave t _, x | .settle t _, x | .calculate t, x | .check t _ _, x => x = t

/-- On a sheet that is kept well an operation does what it plans; or it brings in a formula or a
definition, is refused, and leaves what the sheet held. -/
theorem WellKept.apply (h : s.WellKept) {op : Operation} (hop : op.isReshaping = false)
    (hr : ∀ r, op = .clearRegion r → s.IsLayered r) :
    (s.apply op).sheet.WellKept ∧
      ((∃ x a, (s.plan op).Intends x ∧ (s.apply op).answer = .ok a ∧
          x.SameStanding (s.apply op).sheet) ∨
        ∃ r, op.isInstalling = true ∧ (s.apply op).answer = .error r ∧
          s.SameStanding (s.apply op).sheet) := by
  have htidy := apply_tidy h.linked h.tidy (.inr hr)
  have hplan := (s.plan_narrows hop).isAcyclic h.acyclic
  have hback := s.plan_fallsBack op
  have hdone := apply_fulfilled h.linked op
  generalize s.plan op = plan at hplan hback hdone
  cases plan with
  | refuse r =>
    have he : s.apply op = ⟨s, .error r⟩ := hdone
    rw [he]
    exact ⟨h, .inr ⟨r, hback.1, rfl, .refl s⟩⟩
  | leave x answer =>
    obtain ⟨g, hlinked, he⟩ := hdone
    rw [he] at htidy ⊢
    exact ⟨⟨hlinked, htidy, hplan⟩, .inl ⟨x, answer, rfl, rfl, .withGraph x g⟩⟩
  | settle x answer =>
    obtain ⟨g, hlinked, he⟩ := hdone
    obtain ⟨u, n, hu, hul, hua, hstanding, -⟩ := hlinked.resettle_of_isAcyclic hplan
    rw [he, hu] at htidy ⊢
    exact ⟨⟨hul, htidy, hua⟩, .inl ⟨x, answer n, rfl, rfl, (SameStanding.withGraph x g).trans
      hstanding⟩⟩
  | calculate x =>
    obtain ⟨g, hlinked, he⟩ := hdone
    obtain ⟨u, n, hu, hul, hua, hstanding, -⟩ := hlinked.calculate_of_isAcyclic hplan
    rw [he, hu] at htidy ⊢
    exact ⟨⟨hul, htidy, hua⟩, .inl ⟨x, .count n, rfl, rfl, (SameStanding.withGraph x g).trans
      hstanding⟩⟩
  | check x v back =>
    rcases hdone with ⟨-, g, path, hlinked, he⟩ | ⟨hno, g, hlinked, he⟩
    · rw [he] at htidy ⊢
      exact ⟨⟨hlinked, htidy, hplan.2⟩, .inr ⟨.circular path, hback.1, rfl,
        hback.2.1.sameStanding.trans (.withGraph back g)⟩⟩
    · obtain ⟨u, n, hu, hul, hua, hstanding, -⟩ := hlinked.resettle_of_isAcyclic (hplan.1 hno)
      rw [he, hu] at htidy ⊢
      exact ⟨⟨hul, htidy, hua⟩, .inl ⟨x, .done, rfl, rfl, (SameStanding.withGraph x g).trans
        hstanding⟩⟩

/-- To resume calculation is never refused. -/
theorem WellKept.resume (h : s.WellKept) :
    ∃ t n, s.resume = ⟨t, .ok n⟩ ∧ s.SameHoldings t ∧ t.pauseDepth = s.pauseDepth - 1 ∧
      (s.settings.autoCalculate = true → s.pauseDepth ≤ 1 → t.dirty = ∅) := by
  have hlowered : ({ s with pauseDepth := s.pauseDepth - 1 } : Sheet).WellKept :=
    h.congr rfl rfl ⟨fun _ => rfl, rfl, rfl⟩
  obtain ⟨t, n, he, -, -, hstanding, hdirty⟩ :=
    hlowered.linked.resettle_of_isAcyclic hlowered.acyclic
  refine ⟨t, n, he, ⟨hstanding.holdings.contents, hstanding.holdings.names,
    hstanding.holdings.formats⟩, hstanding.pauseDepth, fun hauto hdepth => hdirty ?_⟩
  unfold isLive
  rw [hauto, Nat.sub_eq_zero_of_le hdepth]
  rfl

/-! ## Answers -/

theorem eq_ok_of_map {x : Except Refusal Unit} {g : Unit → Answer} {a : Answer}
    (h : x.map g = .ok a) : x = .ok () := by
  cases x with
  | ok _ => rfl
  | error r => cases h

theorem eq_error_of_map {x : Except Refusal Unit} {g : Unit → Answer} {r : Refusal}
    (h : x.map g = .error r) : x = .error r := by
  cases x with
  | ok _ => cases h
  | error r' =>
    cases h
    rfl

/-! ## Formulas and definitions that are checked -/

/-- The sheet with a formula in a cell, as it is searched for what reads itself. -/
def linkedFormula (s : Sheet) (p : Position) (f : Formula) : Sheet :=
  (s.withCells (s.cells.set p (.ofFormula f))).linkFormula p f

/-- The sheet with a definition, as it is searched for what reads itself. -/
def linkedName (s : Sheet) (key : String) (d : Definition) : Sheet :=
  (s.withNames (s.names.insert key d)).linkName key d

theorem linkedFormula_eq (s : Sheet) (p : Position) (f : Formula) :
    s.linkedFormula p f =
      (s.withCells (s.cells.set p (.ofFormula f))).withGraph (s.linkedFormula p f).graph :=
  linkFormula_eq _ p f

theorem linkedName_eq (s : Sheet) (key : String) (d : Definition) :
    s.linkedName key d = (s.withNames (s.names.insert key d)).withGraph (s.linkedName key d).graph :=
  link_eq _ _ _

theorem narrows_linkedFormula (s : Sheet) (p : Position) (f : Formula) :
    s.Narrows (s.linkedFormula p f) (· = .cell p) := by
  rw [linkedFormula_eq]
  exact narrows_of_formula? rfl fun q hq => .inl
    (formula?_withCells (Matrix.get?_set_of_ne _ _ fun e => hq (by rw [e])))

theorem narrows_linkedName (s : Sheet) (key : String) (d : Definition) :
    s.Narrows (s.linkedName key d) (· = .name key) := by
  rw [linkedName_eq]
  have hn : s.Narrows ((s.withNames (s.names.insert key d)).markDirty []) (· = .name key) := by
    refine narrows_withNames (insert_getElem? d) (.inl ?_) []
    rfl
  exact hn

/-- What is said of a formula or definition that is in place at a vertex. -/
def verdict (s : Sheet) (v : Vertex) : Except Refusal Unit :=
  match s.graph.cycleFrom? v with
  | some path => .error (.circular path)
  | none => .ok ()

/-- What holds the same is judged the same, if neither graph has strays. -/
theorem Linked.verdict_eq (hs : s.Linked) (hts : s.Tidy False) (ht : t.Linked) (htt : t.Tidy False)
    (h : s.SameHoldings t) (hset : t.settings = s.settings) (v : Vertex) :
    t.verdict v = s.verdict v := by
  unfold verdict
  rw [hs.graph_eq_of_holdings hts ht htt h hset]

theorem answer_settle (hs : s.Linked) (ha : s.IsAcyclic) : s.settle.answer = .ok () := by
  unfold settle
  split
  · obtain ⟨t, n, he, -⟩ := hs.calculate_of_isAcyclic ha
    rw [he]
    rfl
  · rfl

/-- Only a cycle through what comes in is held against it. -/
theorem answer_checked {v : Vertex} (hx : x.Linked) (hv : v.region? = none) (ha : s.IsAcyclic)
    (hn : s.Narrows x (· = v)) :
    (match x.graph.cycleFrom? v with
      | some path => (⟨restored, .error (.circular path)⟩ : Outcome Unit)
      | none => (x.markDirty [v]).settle).answer = x.verdict v := by
  unfold verdict
  cases hc : x.graph.cycleFrom? v with
  | some path => rfl
  | none =>
    have hno : ¬ TransGen x.Feeds v v := fun h => by
      have hsome := (hx.cycleFrom?_isSome hv).mpr h
      rw [hc] at hsome
      contradiction
    have hacyclic : x.IsAcyclic := ha.of_narrows hn fun _ e => e ▸ hno
    exact answer_settle (hx.markDirty [v]) hacyclic

namespace WellKept

theorem linkedFormula (h : s.WellKept) (p : Position) (f : Formula) :
    (s.linkedFormula p f).Linked ∧ (s.linkedFormula p f).Tidy False := by
  have hoff (q : Position) (hq : q ≠ p) : (s.cells.set p (.ofFormula f)).get? q = s.cells.get? q :=
    Matrix.get?_set_of_ne _ _ hq.symm
  have hf : (s.withCells (s.cells.set p (.ofFormula f))).formula? p = some f := s.formula?_set p _
  exact ⟨h.linked.linkFormula hoff hf, h.tidy.linkFormula h.linked hoff hf⟩

theorem linkedName (h : s.WellKept) (key : String) (d : Definition) :
    (s.linkedName key d).Linked ∧ (s.linkedName key d).Tidy False :=
  ⟨linkDefined h.linked key d, h.tidy.linkDefined h.linked key d⟩

theorem answer_setFormula (h : s.WellKept) (p : Position) {f : Formula} (hf : f.diagnostics = []) :
    (s.setFormula p f).answer = (s.linkedFormula p f).verdict (.cell p) := by
  unfold setFormula
  rw [hf]
  exact answer_checked (h.linkedFormula p f).1 rfl h.acyclic (s.narrows_linkedFormula p f)

theorem answer_define (h : s.WellKept) {name : String} (d : Definition)
    (hname : isName name = true) :
    (s.define name d).answer =
      (s.linkedName (Text.upperAscii name) d).verdict (.name (Text.upperAscii name)) := by
  unfold define
  rw [hname]
  exact answer_checked (h.linkedName _ d).1 rfl h.acyclic (s.narrows_linkedName _ d)

/-- Nothing is held against what brings in no formula and no definition. -/
theorem exists_answer (h : s.WellKept) (op : Operation) (hop : op.isReshaping = false)
    (hr : ∀ r, op = .clearRegion r → s.IsLayered r) (hi : op.isInstalling = false) :
    ∃ a, (s.apply op).answer = .ok a := by
  rcases (h.apply hop hr).2 with ⟨x, a, -, ha, -⟩ | ⟨r, hi', -⟩
  · exact ⟨a, ha⟩
  · rw [hi] at hi'
    contradiction

theorem answer_clear (h : s.WellKept) (p : Position) : (s.clear p).answer = .ok () := by
  obtain ⟨a, ha⟩ := h.exists_answer (.clear p) rfl nofun rfl
  exact eq_ok_of_map ha

theorem answer_setValue (h : s.WellKept) (p : Position) (v : Value) :
    (s.setValue p v).answer = .ok () := by
  obtain ⟨a, ha⟩ := h.exists_answer (.setValue p v) rfl nofun rfl
  exact eq_ok_of_map ha

end WellKept

end Spreadsheet.Sheet
