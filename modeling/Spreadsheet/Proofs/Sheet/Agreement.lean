import Mathlib.Data.Fintype.Card
import Mathlib.Data.Set.Finite.Basic
import Spreadsheet.Proofs.Sheet.Acyclicity

/-! Sheets in which no edit waits for a calculation. Nothing feeds itself in such a sheet, so its
values follow one from another, and the contents leave no choice what they are: two such sheets with
the same contents, names and functions show the same, wherever formulas see nothing but values. -/

namespace Spreadsheet

open Relation

/-- None of the functions changes with time or by chance. -/
def Registry.IsSteady (r : Registry) : Prop := ∀ f ∈ r.functions.toList, f.2.isVolatile = false

instance : DecidablePred Registry.IsSteady := fun r =>
  inferInstanceAs (Decidable (∀ f ∈ r.functions.toList, f.2.isVolatile = false))

theorem Registry.IsSteady.steady {r : Registry} (h : r.IsSteady) (names : List String) :
    Steady r.find? names := by
  intro n _ f hf
  exact h (Text.upper n, f) (Std.ExtTreeMap.mem_toList_iff_getElem?_eq_some.mpr hf)

/-- A relation that leads into finitely many elements and has no cycle can be followed back only so
far. -/
theorem wellFounded_of_acyclic {α : Type} {R : α → α → Prop} {l : List α}
    (hl : ∀ a b, R a b → b ∈ l) (hno : ∀ a, ¬ TransGen R a a) : WellFounded R := by
  have hout {a : α} (ha : a ∉ l) : Acc R a := ⟨a, fun b hba => absurd (hl b a hba) ha⟩
  have hfinite : Finite {a // a ∈ l} := l.finite_toSet
  have htrans : IsTrans {a // a ∈ l} fun a b => TransGen R a.1 b.1 := ⟨fun _ _ _ => TransGen.trans⟩
  have hirrefl : Std.Irrefl fun a b : {a // a ∈ l} => TransGen R a.1 b.1 := ⟨fun a => hno a.1⟩
  have hin (a : {a // a ∈ l}) : Acc R a.1 := by
    induction a using (Finite.wellFounded_of_trans_of_irrefl
      fun a b : {a // a ∈ l} => TransGen R a.1 b.1).induction with
    | _ a ih =>
      refine ⟨a.1, fun b hba => ?_⟩
      by_cases hb : b ∈ l
      · exact ih ⟨b, hb⟩ (.single hba)
      · exact hout hb
  refine ⟨fun a => ?_⟩
  by_cases ha : a ∈ l
  · exact hin ⟨a, ha⟩
  · exact hout ha

namespace Sheet

variable {s t : Sheet}

theorem mem_of_feeds {u v : Vertex} (h : s.Feeds u v) :
    v ∈ s.formulas.map (fun c => Vertex.cell c.1) ++ s.names.keys.map .name := by
  obtain ⟨r, hr, -⟩ := h
  rw [List.mem_append, List.mem_map, List.mem_map]
  cases v with
  | region g => exact absurd hr List.not_mem_nil
  | cell p =>
    obtain ⟨f, hf⟩ := Option.isSome_iff_exists.mp (isFormula_of_mem_references hr)
    exact Or.inl ⟨(p, f), mem_formulas.mpr hf, rfl⟩
  | name n =>
    refine Or.inr ⟨n, ?_, rfl⟩
    rw [Std.ExtTreeMap.mem_keys, Std.ExtTreeMap.mem_iff_isSome_getElem?]
    unfold references at hr
    cases hn : s.names[n]? with
    | none => simp [hn] at hr
    | some d => rfl

/-- What is true of a cell whenever it is true of all that the cell depends on. -/
theorem cell_induction (hno : s.IsAcyclic) {C : Position → Prop}
    (h : ∀ p, (∀ q, TransGen s.Feeds (.cell q) (.cell p) → C q) → C p) (p : Position) : C p := by
  have hwf := (wellFounded_of_acyclic (fun _ _ => mem_of_feeds) hno).transGen
  generalize hv : Vertex.cell p = v
  induction v using hwf.induction generalizing p with
  | _ v ih =>
    subst hv
    exact h p fun q hq => ih (.cell q) hq q rfl

theorem Sound.isCurrent (hs : s.Sound) (hd : s.dirty = ∅) (p : Position) : s.IsCurrent p := by
  refine hs.current p ?_
  intro h
  obtain ⟨d, hd', -⟩ := h
  rw [hd] at hd'
  exact Std.ExtTreeSet.not_mem_empty hd'

/-! ## The same contents -/

/-- No formula calls a function that changes with time or by chance. -/
def IsSteady (s : Sheet) : Prop :=
  ∀ p f, s.formula? p = some f → Steady s.functions.find? f.expr.calls

theorem isSteady_of_functions (h : s.functions.IsSteady) : s.IsSteady := fun _ f _ =>
  h.steady f.expr.calls

/-- What was put into a cell, without what became of it. -/
def contents? (s : Sheet) (p : Position) : Option Contents := (s.cell? p).map (·.contents)

theorem formula?_eq (s : Sheet) (p : Position) :
    s.formula? p = (s.contents? p).bind (·.formula?) := by
  unfold formula? contents?
  cases s.cell? p <;> rfl

/-- The sheets differ in what was computed at most, and in what has no part in values. -/
structure SameInput (s t : Sheet) : Prop where
  axis : t.cells.axis = s.cells.axis
  functions : t.functions = s.functions
  names : t.names = s.names
  contents : ∀ p, t.contents? p = s.contents? p

namespace SameInput

theorem symm (h : s.SameInput t) : t.SameInput s :=
  ⟨h.axis.symm, h.functions.symm, h.names.symm, fun p => (h.contents p).symm⟩

theorem trans {u : Sheet} (h : s.SameInput t) (h' : t.SameInput u) : s.SameInput u :=
  ⟨h'.axis.trans h.axis, h'.functions.trans h.functions, h'.names.trans h.names,
    fun p => (h'.contents p).trans (h.contents p)⟩

theorem formula? (h : s.SameInput t) (p : Position) : t.formula? p = s.formula? p := by
  rw [formula?_eq, formula?_eq, h.contents]

theorem references (h : s.SameInput t) : t.references = s.references := by
  funext v
  exact references_congr (fun p _ => h.formula? p) fun n _ => by rw [h.names]

theorem feeds (h : s.SameInput t) : t.Feeds = s.Feeds := by
  funext u v
  unfold Feeds
  rw [h.references]

/-- What is shown is all that can differ. -/
theorem cell?_eq (h : s.SameInput t) {p : Position} (hv : t.value p = s.value p) :
    t.cell? p = s.cell? p := by
  have hc := h.contents p
  unfold contents? at hc
  unfold value at hv
  cases hs : s.cell? p with
  | none => rwa [hs, Option.map_none, Option.map_eq_none_iff] at hc
  | some c =>
    cases ht : t.cell? p with
    | none =>
      rw [hs, ht] at hc
      contradiction
    | some d =>
      obtain ⟨contents, v⟩ := c
      obtain ⟨contents', w⟩ := d
      rw [hs, ht] at hc hv
      cases hc
      cases hv
      rfl

/-- The sheets give a formula the same to read when they agree on what feeds its cell. -/
theorem alike (h : s.SameInput t) {p : Position} {f : Formula} (hf : s.formula? p = some f)
    (hv : ∀ q, TransGen s.Feeds (.cell q) (.cell p) → t.value q = s.value q) :
    s.Alike t f.references where
  functions := h.functions.symm
  names n _ := by
    unfold Sheet.definition?
    rw [h.names]
  value _ hr _ hg q hq := (hv q (feeds_of_follows_cell hf hr hg hq)).symm

end SameInput

theorem Revalued.sameInput (h : s.Revalued t) : s.SameInput t where
  axis := h.axis.symm
  functions := h.functions
  names := h.names
  contents p := by
    unfold contents?
    rcases h.cell p with e | ⟨f, v, w, hv, hw⟩
    · rw [e]
    · rw [hv, hw]
      rfl

theorem Computed.sameInput (h : s.Computed t) : s.SameInput t :=
  ⟨h.revalued.sameInput.axis, h.revalued.sameInput.functions, h.revalued.sameInput.names,
    h.revalued.sameInput.contents⟩

/-- A cell without a formula shows what it contains. -/
theorem Proper.value_eq (hs : s.Proper) {p : Position} (hf : s.formula? p = none) :
    s.value p = match s.contents? p with
      | some (.value v) => v
      | _ => .empty := by
  rw [formula?_eq] at hf
  unfold contents? at hf ⊢
  unfold value
  cases hc : s.cell? p with
  | none => rfl
  | some c =>
    rw [hc] at hf
    have hfaithful := (hs p c hc).2
    obtain ⟨contents, v⟩ := c
    cases contents with
    | value w => exact hfaithful w rfl
    | formula f => contradiction

/-- With the same lines in use, two sheets show the same if what was computed on them is current and
they agree on the rest. -/
theorem SameInput.value_eq_of_computed {C : Position → Prop} {a b : Position → Ambient}
    (h : s.SameInput t) (hextent : s.cells.SameExtent t.cells) (hs : s.Proper) (ht : t.Proper)
    (hno : s.IsAcyclic)
    (hab : ∀ p f, s.formula? p = some f →
      Undisturbed s.functions.find? f.expr.calls (a p) (b p))
    (hout : ∀ p, ¬ C p → t.value p = s.value p)
    (hin : ∀ p f, C p → s.formula? p = some f →
      s.value p = f.evaluate (s.source (a p)) ∧ t.value p = f.evaluate (t.source (b p)))
    (p : Position) : t.value p = s.value p := by
  induction p using cell_induction hno with
  | _ p ih =>
    by_cases hp : C p
    · cases hf : s.formula? p with
      | none => rw [hs.value_eq hf, ht.value_eq ((h.formula? p).trans hf), h.contents]
      | some f =>
        obtain ⟨hvs, hvt⟩ := hin p f hp hf
        rw [hvs, hvt]
        exact ((h.alike hf ih).evaluate_eq hextent hs.onGrid ht.onGrid (hab p f hf)).symm
    · exact hout p hp

/-- Every formula that the cell depends on, its own included, sees nothing but values. -/
def IsDetermined (s : Sheet) (p : Position) : Prop :=
  ∀ q f, ReflTransGen s.Feeds (.cell q) (.cell p) → s.formula? q = some f → s.Determines f

theorem IsDetermined.feeds {p q : Position} (h : s.IsDetermined p)
    (hq : TransGen s.Feeds (.cell q) (.cell p)) : s.IsDetermined q :=
  fun q' f hq' hf => h q' f (hq'.trans hq.to_reflTransGen) hf

/-- Where nothing waits, the contents say what a cell shows. -/
theorem SameInput.value_eq (h : s.SameInput t) (hs : s.Sound) (ht : t.Sound) (hds : s.dirty = ∅)
    (hdt : t.dirty = ∅) {p : Position} (hp : s.IsDetermined p) : t.value p = s.value p := by
  revert hp
  induction p using cell_induction (hs.isAcyclic hds) with
  | _ p ih =>
    intro hp
    have hv (q : Position) (hq : TransGen s.Feeds (.cell q) (.cell p)) : t.value q = s.value q :=
      ih q hq (hp.feeds hq)
    cases hf : s.formula? p with
    | none =>
      have hft : t.formula? p = none := (h.formula? p).trans hf
      rw [hs.proper.value_eq hf, ht.proper.value_eq hft, h.contents p]
    | some f =>
      have hft : t.formula? p = some f := (h.formula? p).trans hf
      have hdet : s.Determines f := hp p f .refl hf
      have halike := h.alike hf hv
      calc t.value p = f.evaluate (t.sourceFor p) := ht.isCurrent hdt p f hft (hdet.of_alike halike)
        _ = f.evaluate (s.sourceFor p) :=
          (hdet.evaluate_eq halike h.axis.symm hs.proper.onGrid ht.proper.onGrid _ _).symm
        _ = s.value p := (hs.isCurrent hds p f hf hdet).symm

end Sheet

end Spreadsheet
