import Mathlib.Data.List.Forall2
import Spreadsheet.Proofs.Sheet.Agreement

/-! Sheets that differ in the size from which on a range is one vertex of the graph. The size
decides how the graph says what is read, and what is read is said without the graph: plans do not
look at it, and a calculation follows what feeds what. So such sheets accept and refuse the same and
come to hold the same, call after call. -/

namespace Spreadsheet

open Relation

namespace Sheet

/-- The sheet with another size for ranges that are vertices, another graph, and another time and
chance. -/
def retuned (s : Sheet) (n : Nat) (g : Graph Vertex) (a : Ambient) : Sheet :=
  { s with settings := { s.settings with maxDependencyCells := n }, graph := g, ambient := a }

/-- The same plan for sheets that are changed all alike. -/
def Plan.map (f : Sheet → Sheet) : Plan → Plan
  | .refuse reason => .refuse reason
  | .leave t answer => .leave (f t) answer
  | .settle t answer => .settle (f t) answer
  | .calculate t => .calculate (f t)
  | .check t v back => .check (f t) v (f back)

section Plans

variable (s : Sheet) (n : Nat) (g : Graph Vertex) (a : Ambient)

theorem planClear_retuned (p : Position) :
    (s.retuned n g a).planClear p = (s.planClear p).map (·.retuned n g a) := by
  have hcell : (s.retuned n g a).cell? p = s.cell? p := rfl
  unfold planClear
  rw [hcell]
  cases s.cell? p <;> rfl

theorem planValue_retuned (p : Position) (v : Value) :
    (s.retuned n g a).planValue p v = (s.planValue p v).map (·.retuned n g a) := by
  unfold planValue
  split
  · exact s.planClear_retuned n g a p
  · rfl

theorem planFormula_retuned (p : Position) (f : Formula) :
    (s.retuned n g a).planFormula p f = (s.planFormula p f).map (·.retuned n g a) := by
  unfold planFormula
  cases f.diagnostics <;> rfl

theorem planContents_retuned (p : Position) (c : Option Contents) :
    (s.retuned n g a).planContents p c = (s.planContents p c).map (·.retuned n g a) := by
  cases c with
  | none => exact s.planClear_retuned n g a p
  | some c =>
    cases c with
    | value v => exact s.planValue_retuned n g a p v
    | formula f => exact s.planFormula_retuned n g a p f

theorem planDefine_retuned (name : String) (d : Definition) :
    (s.retuned n g a).planDefine name d = (s.planDefine name d).map (·.retuned n g a) := by
  unfold planDefine
  split <;> rfl

theorem planUndefine_retuned (name : String) :
    (s.retuned n g a).planUndefine name = (s.planUndefine name).map (·.retuned n g a) := by
  unfold planUndefine
  change (if s.names.contains (Text.upperAscii name) then _ else _) =
    Plan.map _ (if s.names.contains (Text.upperAscii name) then _ else _)
  split <;> rfl

theorem planEdit_retuned (e : Edit) :
    (s.retuned n g a).planEdit e = (s.planEdit e).map (·.retuned n g a) := by
  unfold planEdit
  split <;> rfl

/-- No plan looks at the size, the graph, the time or chance. -/
theorem plan_retuned (op : Operation) :
    (s.retuned n g a).plan op = (s.plan op).map (·.retuned n g a) := by
  cases op with
  | setValue p v => exact s.planValue_retuned n g a p v
  | setFormula p f => exact s.planFormula_retuned n g a p f
  | setInput p text => exact s.planContents_retuned n g a p _
  | clear p => exact s.planClear_retuned n g a p
  | clearRegion r => rfl
  | copy source target => exact s.planContents_retuned n g a target _
  | define name d => exact s.planDefine_retuned n g a name d
  | undefine name => exact s.planUndefine_retuned n g a name
  | edit e => exact s.planEdit_retuned n g a e
  | setFormat r f => cases f <;> rfl
  | _ => rfl

end Plans

variable {s t : Sheet} {n : Nat} {g : Graph Vertex} {a : Ambient}

theorem sameInput_retuned (s : Sheet) (n : Nat) (g : Graph Vertex) (a : Ambient) :
    s.SameInput (s.retuned n g a) := ⟨rfl, rfl, rfl, fun _ => rfl⟩

/-! ## Calculations -/

theorem Computed.isSteady (h : s.Computed t) (ht : t.IsSteady) : s.IsSteady := by
  intro p f hf
  have hs := ht p f ((h.sameInput.formula? p).trans hf)
  rwa [h.sameInput.functions] at hs

/-- What two such sheets become when the same formulas are computed, each after all it reads. -/
theorem Computed.retuned {s' t' : Sheet} (h : s.Computed s') (h' : (s.retuned n g a).Computed t')
    (hs : s.Proper) (hno : s.IsAcyclic) (hsteady : s.IsSteady) : t' = s'.retuned n g a := by
  have hinput : s'.SameInput t' :=
    (h.sameInput.symm.trans (s.sameInput_retuned n g a)).trans h'.sameInput
  have hextent : s'.cells.SameExtent t'.cells :=
    { axis := h.revalued.axis.symm.trans h'.revalued.axis
      vacant := h.revalued.vacant.symm.trans h'.revalued.vacant
      filled := fun p => (h.revalued.filled p).symm.trans (h'.revalued.filled p) }
  have hformula (p : Position) : s'.formula? p = s.formula? p := h.sameInput.formula? p
  have hvalue := hinput.value_eq_of_computed (C := fun p => s.IsAffected (.cell p)) hextent
    (h.proper hs) (h'.proper hs) (h.isAcyclic hno)
    (a := fun p => (s'.ambient.branch p.row).branch p.column)
    (b := fun p => (t'.ambient.branch p.row).branch p.column)
    (fun p f hf => Or.inr (by
      rw [h.sameInput.functions]
      exact hsteady p f ((hformula p).symm.trans hf)))
    (fun p hp => by
      have hcell : s'.cell? p = s.cell? p := h.unaffected p hp
      have hcell' : t'.cell? p = s.cell? p := h'.unaffected p hp
      exact value_congr (hcell'.trans hcell.symm))
    (fun p f hp hf => by
      have hf' : s.formula? p = some f := (hformula p).symm.trans hf
      exact ⟨h.computed p f hp hf', h'.computed p f hp hf'⟩)
  have hcells : t'.cells = s'.cells := Matrix.ext_get? hextent.axis.symm hextent.vacant.symm
    fun p => hinput.cell?_eq (hvalue p)
  rw [h'.cells_eq, h.cells_eq, hcells]
  rfl

theorem CountsAffected.unique {m k : Nat} (h : s.CountsAffected m) (h' : s.CountsAffected k) :
    m = k := by
  obtain ⟨ps, hps, hm, rfl⟩ := h
  obtain ⟨qs, hqs, hk, rfl⟩ := h'
  exact ((List.perm_ext_iff_of_nodup hps hqs).mpr fun p => (hm p).trans (hk p).symm).length_eq

/-- Both outcomes answer the same, and leave sheets that differ in the size, the graph, the time and
chance at most. -/
structure OutcomesAgree (o o' : Outcome Answer) : Prop where
  answer : SameAnswer o.answer o'.answer
  sheet : ∃ n g a, o'.sheet = o.sheet.retuned n g a

theorem Sound.calculate_agree (hs : s.Sound) (ht : (s.retuned n g a).Sound)
    (hsteady : s.calculate.sheet.IsSteady) (f : Nat → Answer) :
    OutcomesAgree (s.calculate.map f) ((s.retuned n g a).calculate.map f) := by
  rcases calculate_spec hs.linked hs.dirty hs.proper.onGrid with
    ⟨⟨v, hv, hc⟩, path, he⟩ | ⟨hno, s', m, he, h, hm⟩
  · rcases calculate_spec ht.linked ht.dirty ht.proper.onGrid with
      ⟨-, path', he'⟩ | ⟨hno', -⟩
    · rw [he, he']
      exact ⟨.circular path path', n, g, a, rfl⟩
    · exact absurd hc (hno' v hv)
  · rcases calculate_spec ht.linked ht.dirty ht.proper.onGrid with
      ⟨⟨v, hv, hc⟩, -⟩ | ⟨-, t', k, he', h', hk⟩
    · exact absurd hc (hno v hv)
    · have hacyclic : s.IsAcyclic := fun v hv => hno v (hs.cycles v hv) hv
      have hkm : k = m := CountsAffected.unique (s := s) hk hm
      rw [he] at hsteady
      rw [he, he', hkm, h.retuned h' hs.proper hacyclic (h.isSteady hsteady)]
      exact ⟨.ok (f m), n, g, a, rfl⟩

theorem Sound.resettle_agree (hs : s.Sound) (ht : (s.retuned n g a).Sound)
    (hsteady : s.resettle.sheet.IsSteady) (f : Nat → Answer) :
    OutcomesAgree (s.resettle.map f) ((s.retuned n g a).resettle.map f) := by
  have hlive : (s.retuned n g a).isLive = s.isLive := rfl
  unfold Sheet.resettle at hsteady ⊢
  rw [hlive]
  split at hsteady
  · rename_i h
    rw [if_pos h, if_pos h]
    exact hs.calculate_agree ht hsteady f
  · rename_i h
    rw [if_neg h, if_neg h]
    exact ⟨.ok (f 0), n, g, a, rfl⟩

/-! ## Operations -/

theorem Sound.apply_agree (hs : s.Sound) (ht : (s.retuned n g a).Sound) {op : Operation}
    (hop : op.OnGrid) (hsteady : (s.apply op).sheet.IsSteady) :
    OutcomesAgree (s.apply op) ((s.retuned n g a).apply op) := by
  have hdone := hs.done hop
  have hdone' := ht.done hop
  rw [plan_retuned] at hdone'
  generalize s.plan op = plan at hdone hdone'
  cases plan with
  | refuse reason =>
    have he : s.apply op = ⟨s, .error reason⟩ := hdone
    have he' : (s.retuned n g a).apply op = ⟨s.retuned n g a, .error reason⟩ := hdone'
    rw [he, he']
    exact ⟨.error reason, n, g, a, rfl⟩
  | leave x answer =>
    obtain ⟨g₁, -, he⟩ := hdone
    obtain ⟨g₂, -, he'⟩ := hdone'
    rw [he, he']
    exact ⟨.ok answer, n, g₂, a, rfl⟩
  | settle x answer =>
    obtain ⟨g₁, hx, he⟩ := hdone
    obtain ⟨g₂, hy, he'⟩ := hdone'
    rw [he] at hsteady
    rw [he, he']
    exact hx.resettle_agree (n := n) (g := g₂) (a := a) hy hsteady answer
  | calculate x =>
    obtain ⟨g₁, hx, he⟩ := hdone
    obtain ⟨g₂, hy, he'⟩ := hdone'
    rw [he] at hsteady
    rw [he, he']
    exact hx.calculate_agree (n := n) (g := g₂) (a := a) hy hsteady .count
  | check x v back =>
    rcases hdone with ⟨hc, g₁, path, -, he⟩ | ⟨hno, g₁, hx, he⟩
    · rcases hdone' with ⟨-, g₂, path', -, he'⟩ | ⟨hno', -⟩
      · rw [he, he']
        exact ⟨.circular path path', n, g₂, a, rfl⟩
      · exact absurd hc hno'
    · rcases hdone' with ⟨hc', -⟩ | ⟨-, g₂, hy, he'⟩
      · exact absurd hc' hno
      · rw [he] at hsteady
        rw [he, he']
        exact hx.resettle_agree (n := n) (g := g₂) (a := a) hy hsteady fun _ => .done

/-- Calls that meet another time and chance do the same, as long as no formula looks at them. -/
theorem Sound.run_agree (hs : s.Sound) (ht : (s.retuned n g a).Sound) {cs ds : List Call}
    (hcd : List.Forall₂ (fun c d => d.operation = c.operation) cs ds)
    (hc : ∀ c ∈ cs, c.operation.OnGrid) (hsteady : ∀ k, (s.after (cs.take k)).IsSteady) :
    List.Forall₂ SameAnswer (s.answers cs) ((s.retuned n g a).answers ds) ∧
      ∃ n' g' a', (s.retuned n g a).after ds = (s.after cs).retuned n' g' a' := by
  induction hcd generalizing s n g a with
  | nil => exact ⟨.nil, n, g, a, rfl⟩
  | @cons c d cs ds hop _ ih =>
    have hgrid := hc c List.mem_cons_self
    have hcall : (s.retuned n g a).call d =
        ((s.withAmbient c.ambient).retuned n g d.ambient).apply c.operation := by
      unfold call
      rw [hop]
      rfl
    have hs' := hs.withAmbient c.ambient
    have ht' : ((s.withAmbient c.ambient).retuned n g d.ambient).Sound := ht.withAmbient d.ambient
    obtain ⟨hanswer, n', g', a', he⟩ := hs'.apply_agree ht' hgrid (hsteady 1)
    have hright := ht'.apply hgrid
    rw [← hcall] at hanswer he hright
    rw [he] at hright
    obtain ⟨hanswers, hafter⟩ := ih (hs'.apply hgrid) hright
      (fun e he => hc e (List.mem_cons_of_mem c he)) fun k => hsteady (k + 1)
    have hanswers' : (s.retuned n g a).answers (d :: ds) =
        ((s.retuned n g a).call d).answer :: ((s.retuned n g a).call d).sheet.answers ds := rfl
    have hafter' : (s.retuned n g a).after (d :: ds) = ((s.retuned n g a).call d).sheet.after ds :=
      rfl
    rw [hanswers', hafter', he]
    exact ⟨.cons hanswer hanswers, hafter⟩

/-- Two empty sheets that differ in the size from which on a range is a vertex answer every call the
same, and after every call they hold the same cells, names and formats and wait for the same
calculation. -/
theorem granularity_invisible (name : String) (settings : Settings) (functions : Registry) (n : Nat)
    (a b : Ambient) {cs ds : List Call}
    (hcd : List.Forall₂ (fun c d => d.operation = c.operation) cs ds)
    (hc : ∀ c ∈ cs, c.operation.OnGrid)
    (hsteady : ∀ k, ((Sheet.empty name settings functions a).after (cs.take k)).IsSteady) :
    let s := Sheet.empty name settings functions a
    let t := Sheet.empty name { settings with maxDependencyCells := n } functions b
    List.Forall₂ SameAnswer (s.answers cs) (t.answers ds) ∧
      ∀ k, (t.after (ds.take k)).cells = (s.after (cs.take k)).cells ∧
        (t.after (ds.take k)).names = (s.after (cs.take k)).names ∧
        (t.after (ds.take k)).formats = (s.after (cs.take k)).formats ∧
        (t.after (ds.take k)).dirty = (s.after (cs.take k)).dirty := by
  intro s t
  have hs : s.Sound := sound_empty name settings functions a
  have ht : (s.retuned n .empty b).Sound := sound_empty name _ functions b
  refine ⟨(hs.run_agree ht hcd hc hsteady).1, fun k => ?_⟩
  have hprefix (j : Nat) : (s.after ((cs.take k).take j)).IsSteady := by
    rw [List.take_take]
    exact hsteady _
  obtain ⟨-, m, g, c, he⟩ := hs.run_agree ht (List.forall₂_take k hcd)
    (fun e he => hc e (List.mem_of_mem_take he)) hprefix
  have hafter : t.after (ds.take k) = (s.after (cs.take k)).retuned m g c := he
  rw [hafter]
  exact ⟨rfl, rfl, rfl, rfl⟩

/-- `=A1:A2` in `B1` is computed when `A1` is filled, and `=B1` is refused in `A2`, whether the
range is a vertex or not. -/
theorem granularity_invisible_on_range :
    let cs : List Call := [⟨⟨.midnight 0, 0⟩, .setFormula ⟨0, 1⟩ (.ofExpr (.reference (.single
          (.between (.cell ⟨0, false⟩ ⟨0, false⟩ true) (.cell ⟨1, false⟩ ⟨0, false⟩ true)))))⟩,
      ⟨⟨.midnight 0, 0⟩, .setValue ⟨0, 0⟩ (.logical true)⟩,
      ⟨⟨.midnight 0, 0⟩, .setFormula ⟨1, 0⟩ (.ofExpr (.reference (.ofPosition ⟨0, 1⟩)))⟩]
    let s := Sheet.empty "Sheet1" default .empty ⟨.midnight 0, 0⟩
    let t := Sheet.empty "Sheet1" { (default : Settings) with maxDependencyCells := 0 } .empty
      ⟨.midnight 0, 0⟩
    (s.answers cs).map Except.toBool = [true, true, false] ∧
      List.Forall₂ SameAnswer (s.answers cs) (t.answers cs) ∧
      (t.after cs).value ⟨0, 1⟩ = (s.after cs).value ⟨0, 1⟩ := by
  intro cs s t
  have hsame : List.Forall₂ (fun c d : Call => d.operation = c.operation) cs cs :=
    List.forall₂_same.mpr fun _ _ => rfl
  have hfunctions : ∀ j < 4, (s.after (cs.take j)).functions.IsSteady := by decide +kernel
  have hsteady (k : Nat) : (s.after (cs.take k)).IsSteady := by
    rw [List.take_eq_take_min]
    exact isSteady_of_functions (hfunctions _ (Nat.lt_succ_of_le (Nat.min_le_right k 3)))
  obtain ⟨hanswers, hafter⟩ := granularity_invisible "Sheet1" default .empty 0 ⟨.midnight 0, 0⟩
    ⟨.midnight 0, 0⟩ hsame (by decide) hsteady
  refine ⟨by decide +kernel, hanswers, ?_⟩
  have hcells : (t.after cs).cells = (s.after cs).cells := (hafter 3).1
  unfold value cell?
  rw [hcells]

end Sheet

end Spreadsheet
