import Spreadsheet.Proofs.Sheet.Affected
import Spreadsheet.Proofs.Sheet.Linking

/-! Operations on a sheet, and what each of them plans to do. A plan says what becomes of the
contents, the names and the edited vertices, and whether something has to be looked at before the
sheet settles; it says nothing of the graph. What is carried out is the plan, with a graph that is
in step with it. -/

namespace Spreadsheet

/-- What can be done to a sheet. -/
inductive Operation where
  | setValue (p : Position) (v : Value)
  | setFormula (p : Position) (f : Formula)
  | setInput (p : Position) (text : String)
  | clear (p : Position)
  | clearRegion (r : Region)
  | copy (source target : Position)
  | define (name : String) (d : Definition)
  | undefine (name : String)
  | edit (e : Edit)
  | setFormat (r : Region) (f : NumberFormat)
  | pause
  | resume
  | setAutoCalculate (on : Bool)
  | calculate
  | calculateAll
  | setFunctions (functions : Registry)

/-- What an operation answers. -/
inductive Answer where
  | done
  | count (n : Nat)
  | found (b : Bool)
  deriving DecidableEq, Repr

/-- The same, except perhaps for the path along which something would read itself. -/
inductive SameAnswer : Except Refusal Answer → Except Refusal Answer → Prop
  | ok (a : Answer) : SameAnswer (.ok a) (.ok a)
  | error (e : Refusal) : SameAnswer (.error e) (.error e)
  | circular (path path' : List Vertex) :
    SameAnswer (.error (.circular path)) (.error (.circular path'))

namespace Sheet

def apply (s : Sheet) : Operation → Outcome Answer
  | .setValue p v => (s.setValue p v).map fun _ => .done
  | .setFormula p f => (s.setFormula p f).map fun _ => .done
  | .setInput p text => (s.setInput p text).map fun _ => .done
  | .clear p => (s.clear p).map fun _ => .done
  | .clearRegion r => (s.clearRegion r).map .count
  | .copy source target => (s.copy source target).map fun _ => .done
  | .define name d => (s.define name d).map fun _ => .done
  | .undefine name => (s.undefine name).map .found
  | .edit e => (s.edit e).map fun _ => .done
  | .setFormat r f => ⟨s.setFormat r f, .ok .done⟩
  | .pause => ⟨s.pause, .ok .done⟩
  | .resume => s.resume.map .count
  | .setAutoCalculate on => ⟨s.setAutoCalculate on, .ok .done⟩
  | .calculate => s.calculate.map .count
  | .calculateAll => s.calculateAll.map .count
  | .setFunctions functions => (s.setFunctions functions).map .count

/-- What an operation is to do. The sheets in it may have any graph. -/
inductive Plan where
  /-- Nothing, for this reason. -/
  | refuse (reason : Refusal)
  | leave (t : Sheet) (answer : Answer)
  /-- The sheet is `t` and settles. -/
  | settle (t : Sheet) (answer : Nat → Answer)
  /-- The sheet is `t` and is calculated in any case. -/
  | calculate (t : Sheet)
  /-- The sheet is `t` and settles, unless `v` feeds itself there; then it is `back`. -/
  | check (t : Sheet) (v : Vertex) (back : Sheet)

def planClear (s : Sheet) (p : Position) : Plan :=
  match s.cell? p with
  | none => .leave (s.withCells (s.cells.remove p)) .done
  | some _ => .settle ((s.withCells (s.cells.remove p)).markDirty [.cell p]) fun _ => .done

def planValue (s : Sheet) (p : Position) (v : Value) : Plan :=
  if v.isEmpty then s.planClear p
  else .settle ((s.withCells (s.cells.set p (.ofValue v))).markDirty [.cell p]) fun _ => .done

def planFormula (s : Sheet) (p : Position) (f : Formula) : Plan :=
  match f.diagnostics with
  | d :: _ => .refuse (.invalidFormula p d)
  | [] => .check ((s.withCells (s.cells.set p (.ofFormula f))).markDirty [.cell p]) (.cell p)
      (s.withCells (s.cells.occupied p))

def planContents (s : Sheet) (p : Position) : Option Contents → Plan
  | none => s.planClear p
  | some (.value v) => s.planValue p v
  | some (.formula f) => s.planFormula p f

def planDefine (s : Sheet) (name : String) (d : Definition) : Plan :=
  if !isName name then .refuse (.invalidName name)
  else
    let key := Text.upperAscii name
    .check ((s.withNames (s.names.insert key d)).markDirty [.name key]) (.name key) s

def planUndefine (s : Sheet) (name : String) : Plan :=
  let key := Text.upperAscii name
  if s.names.contains key then
    .settle ((s.withNames (s.names.erase key)).markDirty [.name key]) fun _ => .found true
  else .leave s (.found false)

/-- The sheet with its formulas, names and formats after an edit of the grid. -/
def reshaped (s : Sheet) (e : Edit) : Sheet :=
  { s with
    cells := (s.cells.edited e).map fun c => c.mapFormula fun f => f.edited e
    formats := s.formats.edited e
    names := s.names.map fun _ d => editedDefinition e d }

def markFormulas (s : Sheet) : Sheet := s.markDirty (s.formulas.map fun c => .cell c.1)

def planEdit (s : Sheet) (e : Edit) : Plan :=
  if e.count = 0 then .leave s .done else .settle (s.reshaped e).markFormulas fun _ => .done

def plan (s : Sheet) : Operation → Plan
  | .setValue p v => s.planValue p v
  | .setFormula p f => s.planFormula p f
  | .setInput p text => s.planContents p (Contents.ofInput? s.settings.datePatterns text)
  | .clear p => s.planClear p
  | .clearRegion r =>
    .settle ((s.withCells (s.cells.removeRegion r)).markDirty
      ((s.cells.linesIn r).map fun c => .cell c.1)) fun _ => .count (s.cells.linesIn r).length
  | .copy source target => s.planContents target (s.copied? source target)
  | .define name d => s.planDefine name d
  | .undefine name => s.planUndefine name
  | .edit e => s.planEdit e
  | .setFormat r f => .leave (s.setFormat r f) .done
  | .pause => .leave s.pause .done
  | .resume => .settle { s with pauseDepth := s.pauseDepth - 1 } .count
  | .setAutoCalculate on => .leave (s.setAutoCalculate on) .done
  | .calculate => .calculate s
  | .calculateAll => .calculate s.markFormulas
  | .setFunctions functions => .calculate ({ s with functions } : Sheet).markFormulas

/-- Recalculate unless that has to wait, and say how many formulas were computed. -/
def resettle (s : Sheet) : Outcome Nat := if s.isLive then s.calculate else ⟨s, .ok 0⟩

/-- An operation on `s` with the outcome `o` did what was planned, and the graph is in step. -/
def Plan.Fulfilled (s : Sheet) : Plan → Outcome Answer → Prop
  | .refuse reason, o => o = ⟨s, .error reason⟩
  | .leave t answer, o => ∃ g, (t.withGraph g).Linked ∧ o = ⟨t.withGraph g, .ok answer⟩
  | .settle t answer, o => ∃ g, (t.withGraph g).Linked ∧ o = (t.withGraph g).resettle.map answer
  | .calculate t, o => ∃ g, (t.withGraph g).Linked ∧ o = (t.withGraph g).calculate.map .count
  | .check t v back, o =>
    (Relation.TransGen t.Feeds v v ∧
        ∃ g path, (back.withGraph g).Linked ∧ o = ⟨back.withGraph g, .error (.circular path)⟩) ∨
      (¬ Relation.TransGen t.Feeds v v ∧
        ∃ g, (t.withGraph g).Linked ∧ o = (t.withGraph g).resettle.map fun _ => .done)

variable {s t : Sheet}

theorem settle_map {β : Type} (s : Sheet) (f : Unit → β) :
    s.settle.map f = s.resettle.map fun _ => f () := by
  unfold settle resettle
  split
  · unfold Outcome.map
    cases s.calculate with
    | mk t answer => cases answer <;> rfl
  · rfl

theorem Linked.markDirty (h : s.Linked) (vs : List Vertex) : (s.markDirty vs).Linked := h

/-- A sheet that is as planned up to the graph settles as planned. -/
theorem settle_planned {β : Type} (hl : t.Linked) (ht : t = s.withGraph t.graph) (vs : List Vertex)
    (f : Unit → β) :
    ∃ g, ((s.markDirty vs).withGraph g).Linked ∧
      (t.markDirty vs).settle.map f = ((s.markDirty vs).withGraph g).resettle.map fun _ => f () := by
  refine ⟨t.graph, ?_, (settle_map _ f).trans ?_⟩
  · rw [ht] at hl
    exact hl.markDirty vs
  · exact congrArg (fun x : Sheet => (x.markDirty vs).resettle.map fun _ => f ()) ht

/-- A sheet that is as planned up to the graph is searched for what reads itself, and given up for
`restored` if it does. -/
theorem check_planned {x y back restored : Sheet} {v : Vertex} {o : Outcome Unit} (hl : x.Linked)
    (hx : x = y.withGraph x.graph) (hv : v.region? = none)
    (hback : ∃ g, (back.withGraph g).Linked ∧ restored = back.withGraph g)
    (hcycle : ∀ path, x.graph.cycleFrom? v = some path → o = ⟨restored, .error (.circular path)⟩)
    (hnone : x.graph.cycleFrom? v = none → o = (x.markDirty [v]).settle) :
    (Plan.check (y.markDirty [v]) v back).Fulfilled s (o.map fun _ => .done) := by
  have hfeeds : (x.graph.cycleFrom? v).isSome = true ↔
      Relation.TransGen (y.markDirty [v]).Feeds v v := by
    rw [hl.cycleFrom?_isSome hv, hx]
    exact Iff.rfl
  cases hc : x.graph.cycleFrom? v with
  | some path =>
    obtain ⟨g, hg, hr⟩ := hback
    refine Or.inl ⟨hfeeds.mp (Option.isSome_iff_exists.mpr ⟨path, hc⟩), g, path, hg, ?_⟩
    rw [hcycle path hc, hr]
    rfl
  | none =>
    refine Or.inr ⟨fun h => ?_, ?_⟩
    · obtain ⟨path, hpath⟩ := Option.isSome_iff_exists.mp (hfeeds.mpr h)
      exact absurd (hpath.symm.trans hc) (Option.some_ne_none path)
    · rw [hnone hc]
      exact settle_planned hl hx [v] _

/-! ## Cells -/

theorem clear_fulfilled (hs : s.Linked) (p : Position) :
    (s.planClear p).Fulfilled s ((s.clear p).map fun _ => .done) := by
  have hoff (q : Position) (hq : q ≠ p) : (s.cells.remove p).get? q = s.cells.get? q :=
    Matrix.get?_remove_of_ne _ hq.symm
  have hnone := s.formula?_remove p
  have hsame (hp : s.formula? p = none) (q : Position) :
      (s.withCells (s.cells.remove p)).formula? q = s.formula? q := by
    by_cases hqp : q = p
    · rw [hqp, hnone, hp]
    · exact formula?_withCells (hoff q hqp)
  unfold planClear clear
  cases hc : s.cell? p with
  | none =>
    exact ⟨s.graph, hs.withCells (hsame (formula?_eq_none hc)), rfl⟩
  | some c =>
    have hq := clearQuietly_eq (s.withCells (s.cells.remove p)) p c
    refine ⟨((s.withCells (s.cells.remove p)).clearQuietly p c).graph, ?_, ?_⟩
    · have hlinked : ((s.withCells (s.cells.remove p)).clearQuietly p c).Linked := by
        unfold clearQuietly
        split
        · exact (hs.unlinkCell hoff (isFormula_eq_false.mpr hnone)).markDirty _
        · rename_i hcf
          refine ((hs.withCells (hsame ?_)).prune _).markDirty _
          rw [formula?_of_cell? hc]
          simpa [Cell.isFormula] using hcf
      rwa [hq] at hlinked
    · rw [← hq]
      exact settle_map _ _

theorem setValue_fulfilled (hs : s.Linked) (p : Position) (v : Value) :
    (s.planValue p v).Fulfilled s ((s.setValue p v).map fun _ => .done) := by
  have hoff (q : Position) (hq : q ≠ p) : (s.cells.set p (.ofValue v)).get? q = s.cells.get? q :=
    Matrix.get?_set_of_ne _ _ hq.symm
  have hnone : (s.withCells (s.cells.set p (.ofValue v))).formula? p = none := s.formula?_set p _
  unfold planValue setValue
  split
  · exact clear_fulfilled hs p
  · dsimp only
    split
    · exact settle_planned (hs.unlinkCell hoff (isFormula_eq_false.mpr hnone)) (unlinkCell_eq _ p)
        [.cell p] _
    · rename_i hf
      have hp : s.formula? p = none := isFormula_eq_false.mp (by simpa using hf)
      have hlinked : (s.withCells (s.cells.set p (.ofValue v))).Linked := hs.withCells fun q => by
        by_cases hqp : q = p
        · rw [hqp, hnone, hp]
        · exact formula?_withCells (hoff q hqp)
      exact settle_planned hlinked rfl [.cell p] _

/-- What is put back is in step again, whatever the cell held. -/
theorem restoreCell_spec {x : Sheet} {p : Position} {f : Formula} (hl : x.Linked)
    (hx : x = (s.withCells (s.cells.set p (.ofFormula f))).withGraph x.graph) :
    ∃ g, ((s.withCells (s.cells.occupied p)).withGraph g).Linked ∧
      x.restoreCell p (s.cell? p) = (s.withCells (s.cells.occupied p)).withGraph g := by
  have hcells : x.cells = s.cells.set p (.ofFormula f) := by
    rw [hx]
    rfl
  have hoff (q : Position) (hq : q ≠ p) : (s.cells.occupied p).get? q = x.cells.get? q := by
    rw [hcells, Matrix.get?_set_of_ne _ _ hq.symm]
    exact Matrix.get?_occupied ..
  have hback : x.withCells (s.cells.occupied p) =
      (s.withCells (s.cells.occupied p)).withGraph x.graph := by
    rw [hx]
    rfl
  have hformula : (x.withCells (s.cells.occupied p)).formula? p = s.formula? p :=
    formula?_withCells (s := s) (Matrix.get?_occupied ..)
  have hunlink (hf : s.formula? p = none) :
      ∃ g, ((s.withCells (s.cells.occupied p)).withGraph g).Linked ∧
        (x.withCells (s.cells.occupied p)).unlinkCell p =
          (s.withCells (s.cells.occupied p)).withGraph g := by
    have hlinked := hl.unlinkCell hoff (isFormula_eq_false.mpr (hformula.trans hf))
    rw [hback] at hlinked ⊢
    rw [unlinkCell_eq] at hlinked ⊢
    exact ⟨_, hlinked, rfl⟩
  cases hc : s.cell? p with
  | none =>
    have hm : x.cells.remove p = s.cells.occupied p := by rw [hcells, Matrix.remove_set hc]
    have hr : x.restoreCell p none = (x.withCells (s.cells.occupied p)).unlinkCell p := by
      rw [← hm]
      rfl
    rw [hr]
    exact hunlink (formula?_eq_none hc)
  | some old =>
    have hm : x.cells.set p old = s.cells.occupied p := by rw [hcells, Matrix.set_set hc]
    have hf : s.formula? p = old.formula? := formula?_of_cell? hc
    unfold restoreCell
    dsimp only
    rw [hm]
    cases hold : old.formula? with
    | none => exact hunlink (hf.trans hold)
    | some g =>
      have hlinked := hl.linkFormula hoff (f := g) (hformula.trans (hf.trans hold))
      have he : (x.withCells (s.cells.occupied p)).linkFormula p g =
          (s.withCells (s.cells.occupied p)).withGraph
            ((x.withCells (s.cells.occupied p)).linkFormula p g).graph := by
        rw [hback]
        exact linkFormula_eq _ p g
      rw [he] at hlinked
      exact ⟨_, hlinked, he⟩

theorem setFormula_fulfilled (hs : s.Linked) (p : Position) (f : Formula) :
    (s.planFormula p f).Fulfilled s ((s.setFormula p f).map fun _ => .done) := by
  unfold planFormula setFormula
  cases hd : f.diagnostics with
  | cons d ds => rfl
  | nil =>
    have hoff (q : Position) (hq : q ≠ p) : (s.cells.set p (.ofFormula f)).get? q = s.cells.get? q :=
      Matrix.get?_set_of_ne _ _ hq.symm
    have hf : (s.withCells (s.cells.set p (.ofFormula f))).formula? p = some f :=
      s.formula?_set p _
    have hlinked := hs.linkFormula hoff hf
    have he := linkFormula_eq (s.withCells (s.cells.set p (.ofFormula f))) p f
    have hset : { s with cells := s.cells.set p (.ofFormula f) } =
        s.withCells (s.cells.set p (.ofFormula f)) := rfl
    dsimp only
    rw [hset]
    exact check_planned hlinked he rfl (restoreCell_spec hlinked he) (fun path hc => by rw [hc])
      fun hc => by rw [hc]

theorem outcome_map_map {α β γ : Type} (o : Outcome α) (f : α → β) (g : β → γ) :
    (o.map f).map g = o.map fun a => g (f a) := by
  unfold Outcome.map
  cases o.answer <;> rfl

/-- Emptying a region changes nothing about a cell that is not one of its formulas. -/
theorem formula?_removeRegion_of_not {r : Region} {q : Position}
    (hq : ¬ ∃ c ∈ s.cells.linesIn r, c.2.isFormula = true ∧ q = c.1) :
    (s.withCells (s.cells.removeRegion r)).formula? q = s.formula? q := by
  by_cases hr : r.contains q = true
  · rw [s.formula?_removeRegion hr]
    by_contra hf
    obtain ⟨f, hf⟩ := Option.ne_none_iff_exists'.mp (Ne.symm hf)
    obtain ⟨c, hc, hcf⟩ := Option.bind_eq_some_iff.mp hf
    refine hq ⟨(q, c), Matrix.mem_linesIn.mpr ⟨hc, hr⟩, ?_, rfl⟩
    unfold Cell.isFormula
    rw [hcf]
    rfl
  · refine formula?_withCells ?_
    rw [Matrix.get?_removeRegion, if_neg hr]

theorem Linked.reopen_removeRegion (hs : s.Linked) (r : Region) :
    s.graph.Wired (s.withCells (s.cells.removeRegion r)).wants
      (s.withCells (s.cells.removeRegion r)).isFormula
      (fun v => ∃ c ∈ s.cells.linesIn r, c.2.isFormula = true ∧ v = .cell c.1)
      fun q => ∃ c ∈ s.cells.linesIn r, c.2.isFormula = true ∧ q = c.1 := by
  refine hs.reopen rfl (fun v hv => references_congr (fun q e => ?_) fun _ _ => rfl) fun q hq =>
    isFormula_congr (formula?_removeRegion_of_not hq)
  refine formula?_removeRegion_of_not fun ⟨c, hc, hcf, hcq⟩ => hv ⟨c, hc, hcf, ?_⟩
  rw [e, hcq]

theorem clearRegion_fulfilled (hs : s.Linked) (r : Region) :
    (s.plan (.clearRegion r)).Fulfilled s ((s.clearRegion r).map .count) := by
  obtain ⟨g, hg, hlinked⟩ := foldl_clearQuietly_spec (s.cells.linesIn r)
      (s := s.withCells (s.cells.removeRegion r)) (hs.reopen_removeRegion r) fun c hc =>
    isFormula_eq_false.mpr (s.formula?_removeRegion (Matrix.mem_linesIn.mp hc).2)
  refine ⟨g, hlinked, ?_⟩
  have hclear : s.clearRegion r = (((s.cells.linesIn r).foldl (fun s c => s.clearQuietly c.1 c.2)
      (s.withCells (s.cells.removeRegion r))).settle.map fun _ => (s.cells.linesIn r).length) := rfl
  rw [hclear, hg, outcome_map_map]
  exact settle_map _ _

/-! ## Names -/

/-- The names are as they are to be, and the graph follows. -/
theorem linkName_planned (hs : s.Linked) {ns : Std.ExtTreeMap String Definition} {key : String}
    {ps : List Vertex} (hn : ∀ n, n ≠ key → ns[n]? = s.names[n]?)
    (hps : s.precedents ((s.withNames ns).references (.name key)) = ps)
    (hheld : ns.contains key = true ∨ ns[key]? = none) :
    ((s.withNames ns).link (.name key) ps).Linked := by
  have h := hs.linkName hn hn hheld
  rw [hps] at h
  rw [link_eq]
  exact h

theorem precedents_of_undefined {ns : Std.ExtTreeMap String Definition} {key : String}
    (h : ns[key]? = none) : s.precedents ((s.withNames ns).references (.name key)) = [] := by
  have href : (s.withNames ns).references (.name key) = [] := by
    simp [references, withNames, h]
  rw [href, List.eq_nil_iff_forall_not_mem]
  exact not_mem_precedents_nil

theorem references_of_defined {ns : Std.ExtTreeMap String Definition} {key : String}
    {d : Definition} (h : ns[key]? = some d) :
    (s.withNames ns).references (.name key) = referencesOf d := by
  simp [references, withNames, h]

section

variable {names : Std.ExtTreeMap String Definition} {key : String}

theorem insert_getElem? (d : Definition) (n : String) (hn : n ≠ key) :
    (names.insert key d)[n]? = names[n]? := by
  rw [Std.ExtTreeMap.getElem?_insert, if_neg fun e => hn (Std.compare_eq_iff_eq.mp e).symm]

theorem erase_getElem? (n : String) (hn : n ≠ key) : (names.erase key)[n]? = names[n]? := by
  rw [Std.ExtTreeMap.getElem?_erase, if_neg fun e => hn (Std.compare_eq_iff_eq.mp e).symm]

theorem erase_insert (d : Definition) (h : names[key]? = none) :
    (names.insert key d).erase key = names := by
  apply Std.ExtTreeMap.ext_getElem?
  intro n
  by_cases hn : n = key
  · rw [hn, h, Std.ExtTreeMap.getElem?_erase_self]
  · rw [erase_getElem? n hn, insert_getElem? d n hn]

theorem insert_insert (d : Definition) {old : Definition} (h : names[key]? = some old) :
    (names.insert key d).insert key old = names := by
  apply Std.ExtTreeMap.ext_getElem?
  intro n
  by_cases hn : n = key
  · rw [hn, h, Std.ExtTreeMap.getElem?_insert_self]
  · rw [insert_getElem? old n hn, insert_getElem? d n hn]

end

theorem linkDefined (hs : s.Linked) (key : String) (d : Definition) :
    ((s.withNames (s.names.insert key d)).linkName key d).Linked := by
  refine linkName_planned hs (insert_getElem? d) ?_ (Or.inl (by simp))
  rw [references_of_defined (d := d) (by simp)]
  rfl

/-- What is put back is in step again, whether or not the name stood for something. -/
theorem restoreName_spec {x : Sheet} {key : String} {d : Definition} (hl : x.Linked)
    (hx : x = (s.withNames (s.names.insert key d)).withGraph x.graph) :
    ∃ g, (s.withGraph g).Linked ∧ x.restoreName key s.names[key]? = s.withGraph g := by
  have hnames : x.names = s.names.insert key d := by
    rw [hx]
    rfl
  have hoff (n : String) (hn : n ≠ key) : s.names[n]? = x.names[n]? := by
    rw [hnames, insert_getElem? d n hn]
  have hback (g : Graph Vertex) : (x.withNames s.names).withGraph g = s.withGraph g := by
    rw [hx]
    rfl
  cases hold : s.names[key]? with
  | none =>
    have herase : x.names.erase key = s.names := by rw [hnames, erase_insert d hold]
    have hlinked := (linkName_planned hl hoff (precedents_of_undefined hold) (Or.inr hold)).prune
      [.name key]
    have hr : x.restoreName key none =
        ((x.withNames s.names).link (.name key) []).prune [.name key] := by
      rw [← herase]
      rfl
    have he := prune_eq ((x.withNames s.names).link (.name key) []) [.name key]
    generalize ((x.withNames s.names).link (.name key) []).prune [.name key] = y at *
    rw [link_eq] at he
    have hy : y = s.withGraph y.graph := he.trans (hback y.graph)
    exact ⟨y.graph, hy ▸ hlinked, hr.trans hy⟩
  | some old =>
    have hinsert : x.names.insert key old = s.names := by rw [hnames, insert_insert d hold]
    have hsame (n : String) (_ : n ≠ key) : x.names[n]? = x.names[n]? := rfl
    have hlinked := hl.linkName hoff hsame (Or.inl (by rw [hnames]; simp))
    have href : (x.withNames s.names).references (.name key) = referencesOf old :=
      references_of_defined hold
    rw [href, hback] at hlinked
    refine ⟨_, hlinked, ?_⟩
    have hr : x.restoreName key (some old) =
        (x.withNames s.names).withGraph (x.linkName key old).graph := by
      rw [← hinsert]
      exact congrArg (fun y : Sheet => y.withNames (x.names.insert key old))
        (link_eq x (.name key) (x.precedents (referencesOf old)))
    rw [hr]
    exact hback _

theorem define_fulfilled (hs : s.Linked) (name : String) (d : Definition) :
    (s.planDefine name d).Fulfilled s ((s.define name d).map fun _ => .done) := by
  unfold planDefine define
  split
  · rfl
  · dsimp only
    generalize Text.upperAscii name = key
    have hlinked := linkDefined hs key d
    have he : (s.withNames (s.names.insert key d)).linkName key d =
        (s.withNames (s.names.insert key d)).withGraph
          ((s.withNames (s.names.insert key d)).linkName key d).graph := link_eq _ _ _
    have hinsert : { s with names := s.names.insert key d } =
        s.withNames (s.names.insert key d) := rfl
    rw [hinsert]
    exact check_planned hlinked he rfl (restoreName_spec hlinked he) (fun path hc => by rw [hc])
      fun hc => by rw [hc]

theorem undefine_fulfilled (hs : s.Linked) (name : String) :
    (s.planUndefine name).Fulfilled s ((s.undefine name).map .found) := by
  unfold planUndefine undefine
  dsimp only
  generalize Text.upperAscii name = key
  split
  · have hnone : (s.names.erase key)[key]? = none := by simp
    have hlinked := (linkName_planned hs erase_getElem? (precedents_of_undefined hnone)
      (Or.inr hnone)).prune [.name key]
    have he := prune_eq ((s.withNames (s.names.erase key)).link (.name key) []) [.name key]
    have hp : ((s.withNames (s.names.erase key)).link (.name key) []).prune [.name key] =
        (s.withNames (s.names.erase key)).withGraph
          (((s.withNames (s.names.erase key)).link (.name key) []).prune [.name key]).graph :=
      he.trans (withGraph_eq (link_eq _ _ _) _)
    rw [outcome_map_map]
    exact settle_planned hlinked hp [.name key] _
  · exact ⟨s.graph, hs, rfl⟩

/-! ## Everything -/

theorem edit_fulfilled (hs : s.Linked) (e : Edit) :
    (s.planEdit e).Fulfilled s ((s.edit e).map fun _ => .done) := by
  unfold planEdit edit
  split
  · exact ⟨s.graph, hs, rfl⟩
  · obtain ⟨hr, hlinked⟩ := relinked_spec (s.reshaped e)
    have hmark : (s.reshaped e).markFormulas = (s.reshaped e).markDirty
        ((s.reshaped e).relinked.formulas.map fun c => .cell c.1) := by
      rw [hr]
      rfl
    rw [hmark]
    exact settle_planned hlinked hr _ _

theorem setContents_fulfilled (hs : s.Linked) (p : Position) (c : Option Contents) :
    (s.planContents p c).Fulfilled s ((s.setContents p c).map fun _ => .done) := by
  cases c with
  | none => exact clear_fulfilled hs p
  | some c =>
    cases c with
    | value v => exact setValue_fulfilled hs p v
    | formula f => exact setFormula_fulfilled hs p f

/-- Every operation does what it plans, and keeps the graph in step. -/
theorem apply_fulfilled (hs : s.Linked) (op : Operation) : (s.plan op).Fulfilled s (s.apply op) := by
  cases op with
  | setValue p v => exact setValue_fulfilled hs p v
  | setFormula p f => exact setFormula_fulfilled hs p f
  | setInput p text => exact setContents_fulfilled hs p _
  | clear p => exact clear_fulfilled hs p
  | clearRegion r => exact clearRegion_fulfilled hs r
  | copy source target => exact setContents_fulfilled hs target _
  | define name d => exact define_fulfilled hs name d
  | undefine name => exact undefine_fulfilled hs name
  | edit e => exact edit_fulfilled hs e
  | setFormat r f => cases f <;> exact ⟨s.graph, hs, rfl⟩
  | pause => exact ⟨s.graph, hs, rfl⟩
  | resume => exact ⟨s.graph, hs, rfl⟩
  | setAutoCalculate on => exact ⟨s.graph, hs, rfl⟩
  | calculate => exact ⟨s.graph, hs, rfl⟩
  | calculateAll => exact ⟨s.graph, hs, rfl⟩
  | setFunctions functions => exact ⟨s.graph, hs, rfl⟩

end Sheet

end Spreadsheet
