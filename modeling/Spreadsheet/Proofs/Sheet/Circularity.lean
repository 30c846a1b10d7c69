import Spreadsheet.Proofs.Grid.Carrying
import Spreadsheet.Proofs.Sheet.Acyclicity

/-! Cycles. Formulas and names that would close one are refused, so only an edit of the grid can: it
moves cells and references, and a reference that stays behind may come to denote a cell that reads
it. As long as references denote nothing new after an edit, the cells and names of the new sheet
feed each other only as they did where they were before. -/

namespace Spreadsheet

open Relation

/-- Where the edit takes a cell; names stay what they are. -/
inductive Edit.Moves (e : Edit) : Vertex → Vertex → Prop
  | cell {p q : Position} (h : e.position? p = some q) : Moves e (.cell p) (.cell q)
  | name (n : String) : Moves e (.name n) (.name n)

theorem Edit.Moves.inj {e : Edit} {u u' v : Vertex} (h : e.Moves u v) (h' : e.Moves u' v) :
    u = u' := by
  cases h with
  | cell h =>
    cases h' with
    | cell h' => rw [position?_inj h h']
  | name n =>
    cases h' with
    | name _ => rfl

/-- A formula may come in. -/
def Operation.isInstalling : Operation → Bool
  | .setFormula .. | .setInput .. | .copy .. | .define .. => true
  | _ => false

/-- The cells once an operation has tried a formula in its cell and taken it out again. -/
def Operation.tried (op : Operation) (m : Matrix Cell) : Matrix Cell :=
  (op.target?.map m.occupied).getD m

namespace Sheet

variable {s t : Sheet} {e : Edit}

/-- No reference denotes anything new after the edit. -/
def IsCarried (s : Sheet) (e : Edit) : Prop := ∀ v, ∀ r ∈ s.references v, e.Carries r

/-- Whatever reads something after the edit was somewhere before. -/
theorem exists_moves_of_feeds {u v : Vertex} (h : (s.reshaped e).Feeds u v) :
    ∃ w, e.Moves w v ∧ (s.reshaped e).references v = (s.references w).map e.reference := by
  obtain ⟨r, hr, -⟩ := h
  cases v with
  | region g => exact absurd hr List.not_mem_nil
  | name n => exact ⟨.name n, .name n, s.references_reshaped_name e n⟩
  | cell q =>
    obtain ⟨f, hf⟩ := Option.isSome_iff_exists.mp (isFormula_of_mem_references hr)
    obtain ⟨p, g, -, hpq, -⟩ := formula?_reshaped.mp hf
    exact ⟨.cell p, .cell hpq, references_reshaped_cell hpq⟩

/-- What feeds something after the edit fed it before. -/
theorem IsCarried.feeds (hc : s.IsCarried e) (hgrid : s.OnGrid) {u u' v' : Vertex}
    (hu : e.Moves u u') (hactive : (s.reshaped e).IsActive u')
    (h : (s.reshaped e).Feeds u' v') : ∃ v, e.Moves v v' ∧ s.Feeds u v := by
  obtain ⟨v, hv, href⟩ := exists_moves_of_feeds h
  obtain ⟨r', hr', hread⟩ := h
  rw [href, List.mem_map] at hr'
  obtain ⟨r, hr, rfl⟩ := hr'
  refine ⟨v, hv, r, hr, ?_⟩
  cases hu with
  | name n =>
    cases hread with
    | name hn => exact .name (Edit.reference_eq_name.mp hn)
  | @cell p q hpq =>
    cases hread with
    | cell hg hq =>
      obtain ⟨f, hf⟩ := Option.isSome_iff_exists.mp (hactive q rfl)
      obtain ⟨p', f', hf', hp', -⟩ := formula?_reshaped.mp hf
      rw [Edit.position?_inj hp' hpq] at hf'
      have hp : p.OnGrid := by
        refine hgrid p ?_
        unfold formula? at hf'
        obtain ⟨c, hcell, -⟩ := Option.bind_eq_some_iff.mp hf'
        rw [hcell]
        rfl
      obtain ⟨g, hg, hgp⟩ := hc v r hr p q hp hpq _ hg hq
      exact .cell hg hgp

theorem IsCarried.transGen (hc : s.IsCarried e) (hgrid : s.OnGrid) {u u' v' : Vertex}
    (hu : e.Moves u u') (hactive : (s.reshaped e).IsActive u')
    (h : TransGen (s.reshaped e).Feeds u' v') : ∃ v, e.Moves v v' ∧ TransGen s.Feeds u v := by
  induction h with
  | single h =>
    obtain ⟨v, hv, huv⟩ := hc.feeds hgrid hu hactive h
    exact ⟨v, hv, .single huv⟩
  | tail hw h ih =>
    obtain ⟨w, hw', huw⟩ := ih
    obtain ⟨v, hv, hwv⟩ := hc.feeds hgrid hw' (active_of_transGen hw) h
    exact ⟨v, hv, huw.tail hwv⟩

/-- An edit that carries all references along closes no cycle. -/
theorem IsCarried.isAcyclic (hc : s.IsCarried e) (hgrid : s.OnGrid) (hs : s.IsAcyclic) :
    (s.reshaped e).IsAcyclic := by
  intro v' h
  obtain ⟨w', -, hw'⟩ := TransGen.tail'_iff.mp h
  obtain ⟨v, hv, -⟩ := exists_moves_of_feeds hw'
  obtain ⟨x, hx, hvx⟩ := hc.transGen hgrid hv (active_of_transGen h) h
  rw [hx.inj hv] at hvx
  exact hs v hvx

/-! ## Plans -/

/-- `t` shows and holds what `s` does. Its lines are those of `s`, except that one which was in use
though it held nothing may be out of use. -/
structure Unchanged (s t : Sheet) : Prop where
  cells : t.cells = s.cells ∨ ∃ p, t.cells = s.cells.occupied p
  names : t.names = s.names
  formats : t.formats = s.formats
  functions : t.functions = s.functions
  settings : t.settings = s.settings
  dirty : t.dirty = s.dirty
  pauseDepth : t.pauseDepth = s.pauseDepth

theorem Unchanged.refl (s : Sheet) : s.Unchanged s := ⟨.inl rfl, rfl, rfl, rfl, rfl, rfl, rfl⟩

theorem Unchanged.cell (h : s.Unchanged t) (p : Position) : t.cell? p = s.cell? p := by
  show t.cells.get? p = s.cells.get? p
  obtain hcells | ⟨q, hcells⟩ := h.cells
  · rw [hcells]
  · rw [hcells, Matrix.get?_occupied]

/-- Only a formula or a definition can be refused. If it has a fault then nothing is touched, and if
it closes a cycle then all is as before, up to the line it was tried in. -/
def Plan.FallsBack (s : Sheet) (op : Operation) : Plan → Prop
  | .refuse r => op.isInstalling = true ∧ ∀ path, r ≠ .circular path
  | .check _ _ back =>
    op.isInstalling = true ∧ s.Unchanged back ∧ back.cells = op.tried s.cells
  | .leave .. | .settle .. | .calculate _ => True

theorem planClear_fallsBack (s : Sheet) (op : Operation) (p : Position) :
    (s.planClear p).FallsBack s op := by
  unfold planClear
  split <;> trivial

theorem planValue_fallsBack (s : Sheet) (op : Operation) (p : Position) (v : Value) :
    (s.planValue p v).FallsBack s op := by
  unfold planValue
  split
  · exact s.planClear_fallsBack op p
  · trivial

theorem planFormula_fallsBack (s : Sheet) {op : Operation} (hop : op.isInstalling = true)
    {p : Position} (hp : op.target? = some p) (f : Formula) :
    (s.planFormula p f).FallsBack s op := by
  have htried : op.tried s.cells = s.cells.occupied p := by
    unfold Operation.tried
    rw [hp]
    rfl
  unfold planFormula
  split
  · exact ⟨hop, nofun⟩
  · exact ⟨hop, ⟨.inr ⟨p, rfl⟩, rfl, rfl, rfl, rfl, rfl, rfl⟩, htried.symm⟩

theorem planContents_fallsBack (s : Sheet) {op : Operation} (hop : op.isInstalling = true)
    {p : Position} (hp : op.target? = some p) (c : Option Contents) :
    (s.planContents p c).FallsBack s op := by
  cases c with
  | none => exact s.planClear_fallsBack op p
  | some c =>
    cases c with
    | value v => exact s.planValue_fallsBack op p v
    | formula f => exact s.planFormula_fallsBack hop hp f

theorem plan_fallsBack (s : Sheet) (op : Operation) : (s.plan op).FallsBack s op := by
  cases op with
  | setValue p v => exact s.planValue_fallsBack _ p v
  | setFormula p f => exact s.planFormula_fallsBack rfl rfl f
  | setInput p text => exact s.planContents_fallsBack rfl rfl _
  | clear p => exact s.planClear_fallsBack _ p
  | copy source target => exact s.planContents_fallsBack rfl rfl _
  | define name d =>
    change (s.planDefine name d).FallsBack s _
    unfold planDefine
    split
    · exact ⟨rfl, nofun⟩
    · exact ⟨rfl, .refl s, rfl⟩
  | undefine name =>
    change (s.planUndefine name).FallsBack s _
    unfold planUndefine
    dsimp only
    split <;> trivial
  | edit e =>
    change (s.planEdit e).FallsBack s _
    unfold planEdit
    split <;> trivial
  | setFormat r f => cases f <;> trivial
  | _ => trivial

/-- The plan closes no cycle. -/
def Plan.IsAcyclic : Plan → Prop
  | .refuse _ => True
  | .leave t _ | .settle t _ | .calculate t => t.IsAcyclic
  | .check t v back => (¬ TransGen t.Feeds v v → t.IsAcyclic) ∧ back.IsAcyclic

theorem Plan.Narrows.isAcyclic {plan : Plan} (h : plan.Narrows s) (hs : s.IsAcyclic) :
    plan.IsAcyclic := by
  cases plan with
  | refuse r => trivial
  | leave t answer => exact hs.of_narrows h fun _ => False.elim
  | settle t answer => exact hs.of_narrows h fun _ => False.elim
  | calculate t => exact hs.of_narrows h fun _ => False.elim
  | check t v back =>
    exact ⟨fun hno => hs.of_narrows h.1 fun _ e => e ▸ hno, hs.of_narrows h.2 fun _ => False.elim⟩

theorem IsAcyclic.plan (hs : s.IsAcyclic) (hgrid : s.OnGrid) {op : Operation}
    (he : ∀ e, op = .edit e → s.IsCarried e) : (s.plan op).IsAcyclic := by
  cases op with
  | edit e =>
    change (s.planEdit e).IsAcyclic
    unfold planEdit
    split
    · exact hs
    · exact (he e rfl).isAcyclic hgrid hs
  | _ => exact (s.plan_narrows rfl).isAcyclic hs

/-! ## Operations -/

/-- What the cells are after an operation that is refused for this reason. -/
structure RefusedCells (s : Sheet) (op : Operation) (r : Refusal) (m : Matrix Cell) : Prop where
  circular : ∀ path, r = .circular path → m = op.tried s.cells
  faulty : (∀ path, r ≠ .circular path) → m = s.cells

/-- An operation on a sheet without cycles leaves none. It is refused only if it brings in a formula
or a definition, and then all is as before, up to the line of a formula that was tried. -/
theorem Sound.apply_of_isAcyclic (hs : s.Sound) (ha : s.IsAcyclic) {op : Operation}
    (hop : op.OnGrid) (he : ∀ e, op = .edit e → s.IsCarried e) :
    (s.apply op).sheet.IsAcyclic ∧ ∀ r, (s.apply op).answer = .error r →
      op.isInstalling = true ∧ s.Unchanged (s.apply op).sheet ∧
        s.RefusedCells op r (s.apply op).sheet.cells := by
  have hplan := ha.plan hs.proper.onGrid he
  have hback := s.plan_fallsBack op
  have hdone := hs.done hop
  generalize s.plan op = plan at hplan hback hdone
  cases plan with
  | refuse r =>
    have heq : s.apply op = ⟨s, .error r⟩ := hdone
    rw [heq]
    refine ⟨ha, fun r' hr' => ⟨hback.1, .refl s, fun path hpath => ?_, fun _ => rfl⟩⟩
    cases hr'
    exact absurd hpath (hback.2 path)
  | leave t answer =>
    obtain ⟨g, -, heq⟩ := hdone
    rw [heq]
    exact ⟨hplan, nofun⟩
  | settle t answer =>
    obtain ⟨g, hsound, heq⟩ := hdone
    obtain ⟨u, n, hr, hu⟩ := hsound.resettle_of_isAcyclic hplan
    rw [heq, hr]
    exact ⟨hu, nofun⟩
  | calculate t =>
    obtain ⟨g, hsound, heq⟩ := hdone
    obtain ⟨u, n, hr, hu, -⟩ := hsound.calculate_of_isAcyclic hplan
    rw [heq, hr]
    exact ⟨hu.isAcyclic hplan, nofun⟩
  | check t v back =>
    rcases hdone with ⟨-, g, path, -, heq⟩ | ⟨hno, g, hsound, heq⟩
    · rw [heq]
      obtain ⟨hinstalls, h, hcells⟩ := hback
      refine ⟨hplan.2, fun r hr => ⟨hinstalls, ?_, fun _ _ => hcells, fun hr' => ?_⟩⟩
      · exact ⟨h.cells, h.names, h.formats, h.functions, h.settings, h.dirty, h.pauseDepth⟩
      · cases hr
        exact absurd rfl (hr' path)
    · obtain ⟨u, n, hr, hu⟩ := hsound.resettle_of_isAcyclic (hplan.1 hno)
      rw [heq, hr]
      exact ⟨hu, nofun⟩

/-- The sheets that one in which no edit waits can become while edits of the grid carry all
references along. -/
inductive CarriedAlong : Sheet → Prop
  | settled {s : Sheet} (hs : s.Reachable) (hd : s.dirty = ∅) : CarriedAlong s
  | call {s : Sheet} (hs : CarriedAlong s) (c : Call) (hc : c.operation.OnGrid)
    (he : ∀ e, c.operation = .edit e → s.IsCarried e) : CarriedAlong (s.call c).sheet

theorem CarriedAlong.reachable (h : s.CarriedAlong) : s.Reachable := by
  induction h with
  | settled hs _ => exact hs
  | call _ c hc _ ih => exact ih.call c hc

theorem CarriedAlong.isAcyclic (h : s.CarriedAlong) : s.IsAcyclic := by
  induction h with
  | settled hs hd => exact hs.sound.isAcyclic hd
  | call hs c hc he ih =>
    exact ((hs.reachable.sound.withAmbient c.ambient).apply_of_isAcyclic ih hc he).1

/-- Edits carry all references along whose coordinates move with their lines. -/
theorem isCarried_of_keeps (hc : e.count ≠ 0)
    (hf : ∀ c ∈ s.formulas, ∀ r ∈ c.2.references, e.Keeps r)
    (hn : ∀ d ∈ s.names.toList, ∀ r ∈ referencesOf d.2, e.Keeps r) : s.IsCarried e :=
  fun v r hr => (forall_references hf hn v r hr).carries hc

/-- An edit of the grid fails exactly where formulas and names would feed themselves after it. -/
theorem Sound.edit_fails_iff (hs : s.Sound) (hlive : s.isLive = true) (hc : e.count ≠ 0) :
    (∃ path, (s.apply (.edit e)).answer = .error (.circular path)) ↔
      ∃ v, TransGen (s.reshaped e).Feeds v v := by
  have hplan : s.plan (.edit e) = .settle (s.reshaped e).markFormulas fun _ => .done := if_neg hc
  have hgrid : (Operation.edit e).OnGrid := fun _ hp => nomatch hp
  have hdone := hs.done hgrid
  rw [hplan] at hdone
  obtain ⟨g, hsound, heq⟩ := hdone
  have hresettle : ((s.reshaped e).markFormulas.withGraph g).resettle =
      ((s.reshaped e).markFormulas.withGraph g).calculate := if_pos hlive
  rw [heq, hresettle]
  rcases calculate_spec hsound.linked hsound.dirty hsound.proper.onGrid with
    ⟨⟨v, -, hv⟩, path, he⟩ | ⟨hno, t, n, he, -⟩
  · rw [he]
    exact ⟨fun _ => ⟨v, hv⟩, fun _ => ⟨path, rfl⟩⟩
  · rw [he]
    constructor
    · intro hsome
      obtain ⟨path, h⟩ := hsome
      cases h
    · intro hsome
      obtain ⟨v, hv⟩ := hsome
      exact absurd hv (hno v (hsound.cycles v hv))

/-- A sheet in which no edit waits has no cycle, whatever was done to it, and an edit of the grid
fails exactly where it would close one. From then on there is none at any time while edits of the
grid carry all references along: nothing is refused except a formula or a definition that comes in,
and then all is as before. -/
theorem no_cycle_while_references_move :
    (∀ s : Sheet, s.Reachable → s.dirty = ∅ → ∀ v, ¬ TransGen s.graph.Edge v v) ∧
      (∀ s : Sheet, s.Reachable → s.isLive = true → ∀ (a : Ambient) (e : Edit), e.count ≠ 0 →
        ((∃ path, (s.call ⟨a, .edit e⟩).answer = .error (.circular path)) ↔
          ∃ v, TransGen (s.reshaped e).Feeds v v)) ∧
      ∀ s : Sheet, s.CarriedAlong → (∀ v, ¬ TransGen s.graph.Edge v v) ∧
        ∀ c : Call, c.operation.OnGrid → (∀ e, c.operation = .edit e → s.IsCarried e) →
          ∀ r, (s.call c).answer = .error r →
            c.operation.isInstalling = true ∧ s.Unchanged (s.call c).sheet := by
  refine ⟨fun s hs hd => ?_, fun s hs hlive a e hc => ?_, fun s hs => ⟨?_, fun c hc he r hr => ?_⟩⟩
  · exact hs.sound.linked.graph_acyclic (hs.sound.isAcyclic hd)
  · exact (hs.sound.withAmbient a).edit_fails_iff hlive hc
  · exact hs.reachable.sound.linked.graph_acyclic hs.isAcyclic
  · have hsound := hs.reachable.sound.withAmbient c.ambient
    obtain ⟨hinstall, h, -⟩ := (hsound.apply_of_isAcyclic hs.isAcyclic hc he).2 r hr
    exact ⟨hinstall, h.cells, h.names, h.formats, h.functions, h.settings, h.dirty, h.pauseDepth⟩

/-- `=B2` in `B1` becomes `=B3` in `B2` when a row comes in above, and nothing is wrong with it. -/
theorem no_cycle_while_free_reference_moves :
    ∃ answer, (((Sheet.empty "Sheet1" default .empty ⟨.midnight 0, 0⟩).call
      ⟨⟨.midnight 0, 0⟩, .setFormula ⟨0, 1⟩ (.ofExpr (.reference (.ofPosition ⟨1, 1⟩)))⟩).sheet.call
        ⟨⟨.midnight 0, 0⟩, .edit (.insert .row 0 1)⟩).answer = .ok answer := by
  have hempty : (Sheet.empty "Sheet1" default .empty ⟨.midnight 0, 0⟩).Reachable :=
    .empty _ _ _ _
  have hcarried := (CarriedAlong.settled hempty rfl).call
    ⟨⟨.midnight 0, 0⟩, .setFormula ⟨0, 1⟩ (.ofExpr (.reference (.ofPosition ⟨1, 1⟩)))⟩ (by decide)
    nofun
  have hsafe := (no_cycle_while_references_move.2.2 _ hcarried).2
    ⟨⟨.midnight 0, 0⟩, .edit (.insert .row 0 1)⟩ (by decide) fun e he => by
      cases he
      exact isCarried_of_keeps (by decide) (by decide +kernel) (by decide +kernel)
  match h : (((Sheet.empty "Sheet1" default .empty ⟨.midnight 0, 0⟩).call
      ⟨⟨.midnight 0, 0⟩, .setFormula ⟨0, 1⟩ (.ofExpr (.reference (.ofPosition ⟨1, 1⟩)))⟩).sheet.call
        ⟨⟨.midnight 0, 0⟩, .edit (.insert .row 0 1)⟩).answer with
  | .ok answer => exact ⟨answer, rfl⟩
  | .error r => exact absurd (hsafe r h).1 Bool.false_ne_true

/-- `=$B$2` in `B1` stays as it is when a row comes in above, and the formula comes to lie in `B2`:
the edit fails, and the sheet is circular. -/
theorem cycle_by_fixed_reference :
    ∃ (s : Sheet) (e : Edit) (a : Ambient), s.Reachable ∧
      (∃ path, (s.call ⟨a, .edit e⟩).answer = .error (.circular path)) ∧
      (∃ p, s.isFormula p = true ∧ (s.call ⟨a, .edit e⟩).sheet.isFormula p = false) ∧
      ∃ v, TransGen (s.call ⟨a, .edit e⟩).sheet.graph.Edge v v := by
  refine ⟨((Sheet.empty "Sheet1" default .empty ⟨.midnight 0, 0⟩).call ⟨⟨.midnight 0, 0⟩,
      .setFormula ⟨0, 1⟩ (.ofExpr (.reference (.ofPlace (.cell ⟨1, true⟩ ⟨1, true⟩ true))))⟩).sheet,
    .insert .row 0 1, ⟨.midnight 0, 0⟩, ?_, ⟨[.cell ⟨1, 1⟩, .cell ⟨1, 1⟩], rfl⟩,
    ⟨⟨0, 1⟩, rfl, rfl⟩, .cell ⟨1, 1⟩, .single (by decide +kernel)⟩
  exact (Reachable.empty _ _ _ _).call _ (by decide)

end Sheet

end Spreadsheet
