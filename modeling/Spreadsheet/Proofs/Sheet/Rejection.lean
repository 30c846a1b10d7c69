import Spreadsheet.Proofs.Sheet.Keeping

/-! Formulas and definitions that are refused. They are put in and linked first, and taken out again
when they turn out to close a cycle. On a sheet without cycles and strays they are refused exactly
for that, and taking them out leaves everything as it was, the graph included. One thing is not put
back: where a formula was tried in a line that was in use though it was empty, the line goes out of
use with it. -/

namespace Spreadsheet

open Relation

namespace Sheet

variable {s t : Sheet}

/-- The sheet with a formula in a cell, unless the formula has a fault. -/
def withFormula? (s : Sheet) (p : Position) (f : Formula) : Option (Sheet × Vertex) :=
  if f.diagnostics.isEmpty then some (s.withCells (s.cells.set p (.ofFormula f)), .cell p) else none

/-- The sheet with a formula or definition that comes in where it belongs, and whose it is; unless
it is no formula that comes in, or one with a fault, or a definition of what is no name. -/
def installed? (s : Sheet) : Operation → Option (Sheet × Vertex)
  | .setFormula p f => s.withFormula? p f
  | .setInput p text =>
    ((Contents.ofInput? s.settings.datePatterns text).bind (·.formula?)).bind (s.withFormula? p)
  | .copy source target =>
    ((s.copied? source target).bind (·.formula?)).bind (s.withFormula? target)
  | .define name d =>
    if isName name then
      some (s.withNames (s.names.insert (Text.upperAscii name) d), .name (Text.upperAscii name))
    else none
  | _ => none

theorem withFormula?_withAmbient (s : Sheet) (a : Ambient) (p : Position) (f : Formula) :
    (s.withAmbient a).withFormula? p f =
      (s.withFormula? p f).map fun i => (i.1.withAmbient a, i.2) := by
  unfold withFormula?
  split <;> rfl

/-- What comes in does not depend on what volatile functions see. -/
theorem installed?_withAmbient (s : Sheet) (a : Ambient) (op : Operation) :
    (s.withAmbient a).installed? op = (s.installed? op).map fun i => (i.1.withAmbient a, i.2) := by
  have hbind (o : Option Formula) (p : Position) :
      o.bind ((s.withAmbient a).withFormula? p) =
        (o.bind (s.withFormula? p)).map fun i => (i.1.withAmbient a, i.2) := by
    cases o with
    | none => rfl
    | some f => exact s.withFormula?_withAmbient a p f
  cases op with
  | setFormula p f => exact s.withFormula?_withAmbient a p f
  | setInput p text => exact hbind _ p
  | copy source target => exact hbind _ target
  | define name d =>
    unfold installed?
    dsimp only
    split <;> rfl
  | _ => rfl

/-! ## Plans -/

/-- Where something comes in, it is checked, and if nothing comes in, nothing is checked. -/
def Plan.Installs (installed : Option (Sheet × Vertex)) : Plan → Prop
  | .check t v _ => ∃ u, installed = some (u, v) ∧ t.Feeds = u.Feeds
  | .refuse r => installed = none ∧ ∀ path, r ≠ .circular path
  | .leave .. | .settle .. | .calculate _ => installed = none

theorem planClear_installs (s : Sheet) (p : Position) : (s.planClear p).Installs none := by
  unfold planClear
  split <;> rfl

theorem planValue_installs (s : Sheet) (p : Position) (v : Value) :
    (s.planValue p v).Installs none := by
  unfold planValue
  split
  · exact s.planClear_installs p
  · rfl

theorem planFormula_installs (s : Sheet) (p : Position) (f : Formula) :
    (s.planFormula p f).Installs (s.withFormula? p f) := by
  unfold planFormula withFormula?
  cases f.diagnostics with
  | nil => exact ⟨_, rfl, rfl⟩
  | cons d ds => exact ⟨rfl, nofun⟩

theorem planContents_installs (s : Sheet) (p : Position) (c : Option Contents) :
    (s.planContents p c).Installs ((c.bind (·.formula?)).bind (s.withFormula? p)) := by
  cases c with
  | none => exact s.planClear_installs p
  | some c =>
    cases c with
    | value v => exact s.planValue_installs p v
    | formula f => exact s.planFormula_installs p f

theorem planDefine_installs (s : Sheet) (name : String) (d : Definition) :
    (s.planDefine name d).Installs (s.installed? (.define name d)) := by
  show (s.planDefine name d).Installs (if isName name then
    some (s.withNames (s.names.insert (Text.upperAscii name) d), .name (Text.upperAscii name))
    else none)
  unfold planDefine
  cases isName name with
  | true => exact ⟨_, rfl, rfl⟩
  | false => exact ⟨rfl, nofun⟩

theorem plan_installs (s : Sheet) {op : Operation} (hop : op.isInstalling = true) :
    (s.plan op).Installs (s.installed? op) := by
  cases op with
  | setFormula p f => exact s.planFormula_installs p f
  | setInput p text => exact s.planContents_installs p _
  | copy source target => exact s.planContents_installs target _
  | define name d => exact s.planDefine_installs name d
  | _ => contradiction

/-! ## Operations -/

/-- On a sheet without cycles only what comes in can be circular. -/
theorem Sound.circular_iff (hs : s.Sound) (ha : s.IsAcyclic) {op : Operation}
    (hop : op.isInstalling = true) (hgrid : op.OnGrid) :
    (∃ path, (s.apply op).answer = .error (.circular path)) ↔
      ∃ t v, s.installed? op = some (t, v) ∧ TransGen t.Feeds v v := by
  have hplan : (s.plan op).IsAcyclic := ha.plan hs.proper.onGrid fun e he => by
    rw [he] at hop
    contradiction
  have hinstalls := s.plan_installs hop
  have hdone := hs.done hgrid
  generalize s.plan op = plan at hplan hinstalls hdone
  have hnone (h : s.installed? op = none) :
      ¬ ∃ t v, s.installed? op = some (t, v) ∧ TransGen t.Feeds v v := by
    rintro ⟨t, v, hsome, -⟩
    rw [h] at hsome
    contradiction
  cases plan with
  | refuse r =>
    have he : s.apply op = ⟨s, .error r⟩ := hdone
    rw [he]
    refine iff_of_false ?_ (hnone hinstalls.1)
    rintro ⟨path, h⟩
    cases h
    exact hinstalls.2 path rfl
  | leave t answer =>
    obtain ⟨g, -, he⟩ := hdone
    rw [he]
    exact iff_of_false nofun (hnone hinstalls)
  | settle t answer =>
    obtain ⟨g, hsound, he⟩ := hdone
    obtain ⟨u, n, hr, -⟩ := hsound.resettle_of_isAcyclic hplan
    rw [he, hr]
    exact iff_of_false nofun (hnone hinstalls)
  | calculate t =>
    obtain ⟨g, hsound, he⟩ := hdone
    obtain ⟨u, n, hr, -⟩ := hsound.calculate_of_isAcyclic hplan
    rw [he, hr]
    exact iff_of_false nofun (hnone hinstalls)
  | check t v back =>
    obtain ⟨u, hu, hfeeds⟩ := hinstalls
    have hcircular : (∃ t v, s.installed? op = some (t, v) ∧ TransGen t.Feeds v v) ↔
        TransGen t.Feeds v v := by
      rw [hfeeds]
      constructor
      · rintro ⟨t', v', hsome, h⟩
        rw [hu] at hsome
        cases hsome
        exact h
      · exact fun h => ⟨u, v, hu, h⟩
    rw [hcircular]
    rcases hdone with ⟨hc, g, path, -, he⟩ | ⟨hno, g, hsound, he⟩
    · rw [he]
      exact iff_of_true ⟨path, rfl⟩ hc
    · obtain ⟨w, n, hr, -⟩ := hsound.resettle_of_isAcyclic (hplan.1 hno)
      rw [he, hr]
      exact iff_of_false nofun hno

/-- What shows and holds the same has the same graph, if neither has strays. -/
theorem Unchanged.graph_eq (h : s.Unchanged t) (hs : s.Linked) (ht : t.Linked)
    (hts : s.Tidy False) (htt : t.Tidy False) : t.graph = s.graph :=
  hs.graph_eq_of_holdings hts ht htt h.sameStanding.holdings h.settings

theorem Operation.tried_eq_self_iff {op : Operation} {m : Matrix Cell} :
    op.tried m = m ↔ ∀ p ∈ op.target?, p.index m.axis ∉ m.vacant := by
  unfold Operation.tried
  cases op.target? with
  | none => exact iff_of_true rfl nofun
  | some p => exact Matrix.occupied_eq_self_iff.trans (by simp)

theorem RefusedCells.eq_iff {op : Operation} {r : Refusal} {m : Matrix Cell}
    (h : s.RefusedCells op r m) : m = s.cells ↔ ∀ path, r = .circular path →
      ∀ p ∈ op.target?, p.index s.cells.axis ∉ s.cells.vacant := by
  by_cases hr : ∃ path, r = .circular path
  · obtain ⟨path, hpath⟩ := hr
    rw [h.circular path hpath, Operation.tried_eq_self_iff]
    exact ⟨fun hv _ _ => hv, fun hv => hv path hpath⟩
  · rw [h.faulty (not_exists.mp hr)]
    exact iff_of_true rfl fun path hpath => absurd ⟨path, hpath⟩ hr

/-- On a sheet whose graph has no cycle and no strays, a formula or definition is refused as
circular exactly if with it in place its cell or name would read itself; and whatever is refused,
for whatever reason, leaves what cells hold, the names, the formats, the marks and the graph as they
were. The stored grid is the very same unless the line of a formula that was tried was in use though
it was empty. -/
theorem refusal_exact (hs : s.Reachable) (ha : ∀ v, ¬ TransGen s.graph.Edge v v)
    (hg : s.graph = s.relinked.graph) (c : Call) (hc : c.operation.isInstalling = true)
    (hgrid : c.operation.OnGrid) :
    ((∃ path, (s.call c).answer = .error (.circular path)) ↔
      ∃ t v, s.installed? c.operation = some (t, v) ∧ TransGen t.Feeds v v) ∧
    ∀ r, (s.call c).answer = .error r →
      (∀ p, (s.call c).sheet.cell? p = s.cell? p) ∧
      (s.call c).sheet.names = s.names ∧ (s.call c).sheet.formats = s.formats ∧
      (s.call c).sheet.dirty = s.dirty ∧ (s.call c).sheet.pauseDepth = s.pauseDepth ∧
      (s.call c).sheet.graph = s.graph ∧
      s.RefusedCells c.operation r (s.call c).sheet.cells ∧
      ((s.call c).sheet.cells = s.cells ↔ ∀ path, r = .circular path →
        ∀ p ∈ c.operation.target?, p.index s.cells.axis ∉ s.cells.vacant) := by
  have hsound := hs.sound.withAmbient c.ambient
  have hlinked := hs.sound.linked
  have hacyclic : s.IsAcyclic := fun v hv =>
    ha v ((hlinked.cycle_iff (region?_of_transGen hv)).mpr hv)
  have htidy : s.Tidy False := (graph_eq_relinked_iff hlinked).mp hg
  have hedit (e : Edit) (he : c.operation = .edit e) : s.IsCarried e := by
    rw [he] at hc
    contradiction
  have hregion (r : Region) (he : c.operation = .clearRegion r) : s.IsLayered r := by
    rw [he] at hc
    contradiction
  have hinstalled : (∃ t v, (s.withAmbient c.ambient).installed? c.operation = some (t, v) ∧
      TransGen t.Feeds v v) ↔
        ∃ t v, s.installed? c.operation = some (t, v) ∧ TransGen t.Feeds v v := by
    rw [installed?_withAmbient]
    cases s.installed? c.operation with
    | none => simp
    | some i =>
      constructor
      · rintro ⟨t, v, h, hv⟩
        cases h
        exact ⟨i.1, i.2, rfl, hv⟩
      · rintro ⟨t, v, h, hv⟩
        cases h
        exact ⟨_, v, rfl, hv⟩
  refine ⟨(hsound.circular_iff hacyclic hc hgrid).trans hinstalled, fun r hr => ?_⟩
  obtain ⟨-, h, hcells⟩ := (hsound.apply_of_isAcyclic hacyclic hgrid hedit).2 r hr
  have hcells' : s.RefusedCells c.operation r (s.call c).sheet.cells :=
    ⟨hcells.circular, hcells.faulty⟩
  have hgraph := h.graph_eq hsound.linked (hs.call c hgrid).sound.linked htidy
    (apply_tidy hsound.linked htidy (Or.inr hregion))
  exact ⟨h.cell, h.names, h.formats, h.dirty, h.pauseDepth, hgraph, hcells', hcells'.eq_iff⟩

/-- `total` stands for `A1:B1`, and `A1` holds a constant. `=total` in `A1` would read itself: it is
refused, the constant is back, the grid is the one it was, and the graph still says only what `total`
reads. -/
theorem refusal_exact_through_name :
    let a : Ambient := ⟨.midnight 0, 0⟩
    let s := (Sheet.empty "Sheet1" default .empty a).after
      [⟨a, .define "total" (.reference (.single (.between (.cell ⟨0, false⟩ ⟨0, false⟩ true)
          (.cell ⟨0, false⟩ ⟨1, false⟩ true))))⟩, ⟨a, .setValue ⟨0, 0⟩ (.logical true)⟩]
    let refused := s.call ⟨a, .setFormula ⟨0, 0⟩ (.ofExpr (.name "total"))⟩
    refused.answer = .error (.circular [.cell ⟨0, 0⟩, .name "TOTAL", .cell ⟨0, 0⟩]) ∧
      (∃ t v, s.installed? (.setFormula ⟨0, 0⟩ (.ofExpr (.name "total"))) = some (t, v) ∧
        TransGen t.Feeds v v) ∧
      refused.sheet.cells = s.cells ∧ refused.sheet.graph = s.graph := by
  intro a s refused
  have htended : s.Tended := ((Tended.empty "Sheet1" default .empty a).call
    ⟨a, .define "total" (.reference (.single (.between (.cell ⟨0, false⟩ ⟨0, false⟩ true)
      (.cell ⟨0, false⟩ ⟨1, false⟩ true))))⟩ (by decide) nofun).call
        ⟨a, .setValue ⟨0, 0⟩ (.logical true)⟩ (by decide) nofun
  have hlinked := htended.reachable.sound.linked
  have hdirty : s.dirty = ∅ := Std.ExtTreeSet.isEmpty_iff.mp (by decide +kernel)
  have hacyclic := hlinked.graph_acyclic (htended.reachable.sound.isAcyclic hdirty)
  have hgraph := (graph_eq_relinked_iff hlinked).mpr htended.tidy
  obtain ⟨hcircular, hback⟩ := refusal_exact htended.reachable hacyclic hgraph
    ⟨a, .setFormula ⟨0, 0⟩ (.ofExpr (.name "total"))⟩ rfl (by decide)
  have hanswer : refused.answer =
      .error (.circular [.cell ⟨0, 0⟩, .name "TOTAL", .cell ⟨0, 0⟩]) := by decide +kernel
  obtain ⟨-, -, -, -, -, hg, -, hcells⟩ := hback _ hanswer
  refine ⟨hanswer, hcircular.mp ⟨_, hanswer⟩, hcells.mpr ?_, hg⟩
  rintro _ - p ⟨⟩
  exact Matrix.index_not_mem_vacant (by decide +kernel)

/-- Rows pushed in take the only cell of the first column off the grid, and the column stays in use.
A formula that is tried in that column and refused ends its use, so an endless range ends elsewhere
than before. -/
theorem vacant_line_lost :
    let a : Ambient := ⟨.midnight 0, 0⟩
    let s := (Sheet.empty "Sheet1" default .empty a).after
      [⟨a, .setValue ⟨4294967290, 0⟩ (.logical true)⟩, ⟨a, .setValue ⟨1, 2⟩ (.logical true)⟩,
        ⟨a, .edit (.insert .row 2 6)⟩]
    let refused := s.call ⟨a, .setFormula ⟨0, 0⟩ (.ofExpr (.reference (.ofPosition ⟨0, 0⟩)))⟩
    s.Reachable ∧ (∀ v, ¬ TransGen s.graph.Edge v v) ∧ s.graph = s.relinked.graph ∧
      refused.answer = .error (.circular [.cell ⟨0, 0⟩, .cell ⟨0, 0⟩]) ∧
      s.cells.used? = some (.corners 1 0 1 2) ∧
      refused.sheet.cells.used? = some (.cell ⟨1, 2⟩) ∧ refused.sheet.cells ≠ s.cells := by
  intro a s refused
  have htended : s.Tended := (((Tended.empty "Sheet1" default .empty a).call
    ⟨a, .setValue ⟨4294967290, 0⟩ (.logical true)⟩ (by decide) nofun).call
      ⟨a, .setValue ⟨1, 2⟩ (.logical true)⟩ (by decide) nofun).call
        ⟨a, .edit (.insert .row 2 6)⟩ (by decide) nofun
  have hlinked := htended.reachable.sound.linked
  have hdirty : s.dirty = ∅ := Std.ExtTreeSet.isEmpty_iff.mp (by decide +kernel)
  have hbefore : s.cells.used? = some (.corners 1 0 1 2) := by decide +kernel
  have hafter : refused.sheet.cells.used? = some (.cell ⟨1, 2⟩) := by decide +kernel
  refine ⟨htended.reachable, hlinked.graph_acyclic (htended.reachable.sound.isAcyclic hdirty),
    (graph_eq_relinked_iff hlinked).mpr htended.tidy, by decide +kernel, hbefore, hafter, ?_⟩
  intro h
  rw [h, hbefore] at hafter
  revert hafter
  decide

end Sheet

end Spreadsheet
