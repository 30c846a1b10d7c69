import Spreadsheet.Proofs.Sheet.Completeness

/-! A formula reads only what it declares: its references, what names among them stand for, and the
functions that it calls. Where none of that goes to the end of the grid, nothing else of a sheet has
a part in the value, be it another cell, the time, or how the cells are stored. -/

namespace Spreadsheet

/-- References that lead to one another only are all that they lead to. -/
theorem Follows.mem_of_closed {definition? : String → Option Definition}
    {rs closed : List Reference} (hrs : ∀ r ∈ rs, r ∈ closed)
    (hnames : ∀ n, Reference.single (.name n) ∈ closed → ∀ r,
      definition? n = some (.reference r) → r ∈ closed)
    {r : Reference} (h : Follows definition? rs r) : r ∈ closed := by
  induction h with
  | direct hr => exact hrs _ hr
  | name _ hd ih => exact hnames _ ih _ hd

namespace Sheet

/-- The sheets show the same of all that the formula declares. -/
structure AgreeFor (s t : Sheet) (f : Formula) : Prop where
  functions : SameFunctions s.functions.find? t.functions.find? f.expr.calls
  names : ∀ n, Follows s.definition? f.references (.single (.name n)) →
    s.definition? n = t.definition? n
  value : ∀ r, Follows s.definition? f.references r → ∀ g ∈ r.regions, ∀ p,
    g.contains p = true → s.value p = t.value p

variable {s t : Sheet} {f : Formula}

theorem AgreeFor.agreeOn (h : s.AgreeFor t f)
    (bounded : ∀ r, Follows s.definition? f.references r → r.IsBounded) (a b : Ambient) :
    (s.source a).AgreeOn (t.source b) f.references where
  names := h.names
  values r hr g hg := valuesIn_congr (h.value r hr g hg)
  block r hr g hg := blockOf_congr_of_isBounded (bounded r hr g hg) (h.value r hr g hg)
  value := h.value

/-- Two sheets give a formula the same value if they agree on the cells in the bounded regions that
it refers to, itself or through names, on those names and on the functions it calls, none of which
changes with time or by chance. -/
theorem evaluate_local (steady : Steady s.functions.find? f.expr.calls)
    (bounded : ∀ r, Follows s.definition? f.references r → r.IsBounded) (h : s.AgreeFor t f) :
    s.evaluate f = t.evaluate f :=
  Formula.evaluate_congr (h.agreeOn bounded s.ambient t.ambient) h.functions (.inr steady)

/-- `F(A1:B1&X)` where `X` stands for `Y`, which is `C1`, on two sheets that differ in the rest. -/
theorem evaluate_local_through_names :
    let f : Formula := .ofExpr (.call "F" [.binary .concat (.reference (.ofCorners ⟨0, 0⟩ ⟨0, 1⟩))
      (.name "X")])
    let g : Function := ⟨[⟨"value", .any, true, false⟩], false, .steady (·.value 0)⟩
    let h : Function := ⟨[], false, .volatile fun a _ => .date a.now⟩
    let names : Std.ExtTreeMap String Definition :=
      ((∅ : Std.ExtTreeMap String Definition).insert "X" (.reference (.ofName "Y"))).insert "Y"
        (.reference (.ofPosition ⟨0, 2⟩))
    let s : Sheet :=
      { Sheet.empty "s" default ⟨(∅ : Std.ExtTreeMap String Function).insert "F" g⟩
          ⟨.midnight 0, 0⟩ with
        names := names
        cells := ((Matrix.empty .column).set ⟨0, 1⟩ (.ofValue (.text "b"))).set ⟨4, 4⟩
          (.ofValue (.text "far")) }
    let t : Sheet :=
      { Sheet.empty "t" { storageAxis := .row, maxDependencyCells := 1 }
          ⟨((∅ : Std.ExtTreeMap String Function).insert "F" g).insert "H" h⟩ ⟨.midnight 1, 7⟩ with
        names := names.insert "Z" (.value (.logical true))
        cells := ((Matrix.empty .row).set ⟨7, 0⟩ (.ofFormula f)).set ⟨0, 1⟩
          (.ofValue (.text "b")) }
    s.evaluate f = t.evaluate f := by
  intro f g h names s t
  have hX : Text.upperAscii "X" = "X" := by decide
  have hY : Text.upperAscii "Y" = "Y" := by decide
  have hF : Text.upper "F" = "F" := by decide +kernel
  have hx : names["X"]? = some (.reference (.ofName "Y")) := by
    rw [Std.ExtTreeMap.getElem?_insert, if_neg (by decide), Std.ExtTreeMap.getElem?_insert_self]
  have hy : names["Y"]? = some (.reference (.ofPosition ⟨0, 2⟩)) :=
    Std.ExtTreeMap.getElem?_insert_self
  have hf : s.functions.find? "F" = some g := by
    rw [Registry.find?, hF]
    exact Std.ExtTreeMap.getElem?_insert_self
  have hf' : t.functions.find? "F" = some g := by
    rw [Registry.find?, hF]
    exact (Std.ExtTreeMap.getElem?_insert ..).trans
      ((if_neg (by decide)).trans Std.ExtTreeMap.getElem?_insert_self)
  have hread {n : String} (hn : Reference.single (.name n) ∈
      [.ofCorners ⟨0, 0⟩ ⟨0, 1⟩, .ofName "X", .ofName "Y", .ofPosition ⟨0, 2⟩]) :
      n = "X" ∨ n = "Y" := by
    simpa [Reference.ofCorners, Reference.ofName, Reference.ofPosition, Reference.ofPlace,
      Target.between] using hn
  have hclosed {r : Reference} (hr : Follows s.definition? f.references r) :
      r ∈ [.ofCorners ⟨0, 0⟩ ⟨0, 1⟩, .ofName "X", .ofName "Y", .ofPosition ⟨0, 2⟩] := by
    refine hr.mem_of_closed (by decide) fun n hn r hd => ?_
    obtain rfl | rfl := hread hn
    · rw [definition?, hX] at hd
      cases hx.symm.trans hd
      decide
    · rw [definition?, hY] at hd
      cases hy.symm.trans hd
      decide
  have hnames {n : String} (hn : ¬ compare "Z" n = .eq) : t.names[n]? = names[n]? :=
    (Std.ExtTreeMap.getElem?_insert ..).trans (if_neg hn)
  have hregions : ∀ r ∈ [.ofCorners ⟨0, 0⟩ ⟨0, 1⟩, .ofName "X", .ofName "Y", .ofPosition ⟨0, 2⟩],
      Reference.IsBounded r ∧ ∀ g ∈ r.regions, g.rows.last = 0 ∧ g.columns.last ≤ 2 := by
    decide
  have hcells {p : Position} (hp : p.row = 0 ∧ p.column ≤ 2) : s.value p = t.value p := by
    obtain ⟨row, column⟩ := p
    obtain ⟨rfl, hcolumn⟩ := hp
    unfold value cell?
    rw [Matrix.get?_set, Matrix.get?_set, Matrix.get?_set, Matrix.get?_set]
    simp
  refine evaluate_local (fun n hn k hk => ?_) (fun r hr => (hregions r (hclosed hr)).1)
    ⟨fun n hn => ?_, fun n hr => ?_, fun r hr g hg p hp => hcells ?_⟩
  · obtain rfl := List.mem_singleton.mp hn
    cases hf.symm.trans hk
    rfl
  · obtain rfl := List.mem_singleton.mp hn
    exact hf.trans hf'.symm
  · obtain rfl | rfl := hread (hclosed hr)
    · rw [definition?, definition?, hX, hnames (by decide)]
    · rw [definition?, definition?, hY, hnames (by decide)]
  · have hlast := (hregions r (hclosed hr)).2 g hg
    unfold Region.contains Span.contains at hp
    simp only [Bool.and_eq_true, decide_eq_true_eq] at hp
    omega

end Sheet

end Spreadsheet
