import Spreadsheet.Proofs.Builtin.Table
import Spreadsheet.Proofs.Evaluation.Aliases
import Spreadsheet.Proofs.Evaluation.Mirroring
import Spreadsheet.Proofs.Grid.Shifting
import Spreadsheet.Proofs.Sheet.Completeness

/-! A copied formula means elsewhere what it meant at home: where the cells that it refers to have
moved as it has, and its references are relative and go to no end of the grid, it has the value that
it had. So each way to read a region has to move with it: one cell, a list in order, a block. -/

namespace Spreadsheet

namespace Source

theorem valueAt_range (s : Source) {a b : Place} {g : Region}
    (hg : (Target.range a b).region? = some g) :
    s.valueAt (.single (.range a b)) = .array (s.block g) := by
  have hv : (Target.range a b).isValid = true := (Option.ite_none_right_eq_some.mp hg).1
  rw [valueAt, read.eq_def]
  dsimp only
  rw [Reference.isValid_single, if_pos hv, Reference.region?_single, hg]

theorem valueAt_union (s : Source) {parts : List Reference}
    (hv : (Reference.union parts).isValid = true) :
    s.valueAt (.union parts) = .error .badValue := by
  rw [valueAt, read.eq_def]
  exact if_pos hv

end Source

namespace Sheet

/-- The values of the region in `s` are those of the moved region in `t`. -/
def MovesTo (s t : Sheet) (g : Region) (rows columns : Int) : Prop :=
  ∀ p, g.contains p = true → t.value (p.shifted rows columns) = s.value p

variable {s t : Sheet} {g : Region} {rows columns : Int}

/-- The list of the values moves: the cells keep their order. -/
theorem valuesIn_shifted (hg : g.Moves rows columns) (h : s.MovesTo t g rows columns) :
    t.valuesIn (g.shifted rows columns) = s.valuesIn g := by
  have hlist : t.nonempties (g.shifted rows columns) =
      (s.nonempties g).map fun c => (c.1.shifted rows columns, c.2) := by
    refine eq_of_forward (t.nonempties_forward _) ?_ fun c => ?_
    · rw [List.pairwise_map]
      refine (s.nonempties_forward g).imp_of_mem fun {a b} ha hb hab => ?_
      rw [Region.compare_shifted hg (mem_nonempties.mp ha).1 (mem_nonempties.mp hb).1]
      exact hab
    · obtain ⟨q, v⟩ := c
      rw [mem_nonempties, List.mem_map]
      constructor
      · rintro ⟨hq, hv, hfilled⟩
        obtain ⟨p, hp, rfl⟩ := Region.exists_of_contains_shifted hg hq
        exact ⟨(p, v), mem_nonempties.mpr ⟨hp, (h p hp).symm.trans hv, hfilled⟩, rfl⟩
      · rintro ⟨⟨p, w⟩, hc, he⟩
        cases he
        obtain ⟨hp, hv, hfilled⟩ := mem_nonempties.mp hc
        exact ⟨Region.contains_shifted hg hp, (h p hp).trans hv, hfilled⟩
  rw [valuesIn_eq, valuesIn_eq, hlist, List.map_map]
  rfl

theorem indices_shifted {span : Span} {offset : Int} (h : 0 ≤ span.first + offset) :
    Matrix.indices (span.shifted offset) =
      (Matrix.indices span).map fun i : Nat => (i + offset).toNat := by
  have hle := span.first_le_last
  have hsize : (span.shifted offset).size = span.size := by
    unfold Span.size Span.shifted
    dsimp only
    omega
  unfold Matrix.indices
  rw [hsize, List.map_map]
  refine List.map_congr_left fun i _ => ?_
  simp only [Span.shifted, Function.comp_apply]
  omega

/-- The block of the values moves. -/
theorem blockOf_shifted (hbounded : g.isBounded = true) (hg : g.Moves rows columns)
    (h : s.MovesTo t g rows columns) : t.blockOf (g.shifted rows columns) = s.blockOf g := by
  rw [blockOf_eq, blockOf_eq, Matrix.clipped?_of_isBounded hbounded,
    Matrix.clipped?_of_isBounded hg.bounded]
  dsimp only [Region.shifted]
  rw [indices_shifted hg.top, indices_shifted hg.left, List.map_map]
  refine List.map_congr_left fun row hrow => ?_
  rw [Function.comp_apply, List.map_map]
  refine List.map_congr_left fun column hcolumn => ?_
  refine h ⟨row, column⟩ (Bool.and_eq_true_iff.mpr ⟨?_, ?_⟩)
  · exact Matrix.mem_indices.mp hrow
  · exact Matrix.mem_indices.mp hcolumn

/-! ## References -/

variable {r : Reference}

theorem values_shifted (hrelative : r.IsRelative) (haddressable : r.Addressable)
    (hbounded : r.IsBounded) (hv : r.isValid = true)
    (hv' : (r.shifted rows columns).isValid = true)
    (h : ∀ g ∈ r.regions, s.MovesTo t g rows columns) (a b : Ambient) :
    (t.source b).valuesAt (r.shifted rows columns) = (s.source a).valuesAt r := by
  obtain ⟨hregions, hmoves⟩ :=
    Reference.regions_shifted hrelative haddressable hbounded hv'
  rw [Source.valuesAt_of_ne_name hrelative.shifted_ne_name,
    Source.valuesAt_of_ne_name hrelative.ne_name, hv, hv', hregions, List.flatMap_map]
  refine congrArg (ite _ · _) (congrArg Except.ok ?_)
  rw [List.flatMap_def, List.flatMap_def]
  exact congrArg List.flatten
    (List.map_congr_left fun g hg => valuesIn_shifted (hmoves g hg) (h g hg))

theorem value_shifted (hrelative : r.IsRelative) (haddressable : r.Addressable)
    (hbounded : r.IsBounded) (hv : r.isValid = true)
    (hv' : (r.shifted rows columns).isValid = true)
    (h : ∀ g ∈ r.regions, s.MovesTo t g rows columns) (a b : Ambient) :
    (t.source b).valueAt (r.shifted rows columns) = (s.source a).valueAt r := by
  cases r with
  | union parts =>
    rw [Source.valueAt_union _ hv]
    exact Source.valueAt_union _ hv'
  | single target =>
    rw [Reference.isValid_single] at hv
    have hmember {g : Region} (hg : target.region? = some g) :
        g ∈ (Reference.single target).regions :=
      List.mem_filterMap.mpr ⟨target, List.mem_singleton_self _, hg⟩
    have hshifted : (target.shifted rows columns).isValid = true := by
      rwa [← Reference.isValid_single]
    cases target with
    | name n => exact absurd rfl (hrelative.ne_name n)
    | place p =>
      obtain ⟨row, column, v, rfl⟩ :=
        Place.eq_cell_of_isBounded (hbounded _ (hmember (if_pos hv)))
      obtain rfl : v = true := hv
      have hfree := hrelative _ (List.mem_singleton_self _)
      obtain ⟨hplace, -⟩ := Place.shifted_cell (hfree.1 row rfl) (hfree.2 column rfl) hshifted
      have hsingle : (Reference.single (.place (.cell row column true))).shifted rows columns =
          .ofPlace (.cell ⟨(row.index + rows).toNat, false⟩
            ⟨(column.index + columns).toNat, false⟩ true) :=
        congrArg Reference.ofPlace hplace
      rw [hsingle, Source.valueAt_cell]
      refine Eq.trans ?_ (Source.valueAt_cell _ row column).symm
      exact h _ (hmember rfl) ⟨row.index, column.index⟩ (by
        simp [Place.cells, Region.contains, Region.cell, Span.contains, Span.single])
    | range x y =>
      have hg : (Target.range x y).region? = some (x.cells.hull y.cells) := if_pos hv
      have hmem := List.mem_singleton_self (Target.range x y)
      obtain ⟨hregion, hmoves⟩ := Target.region?_shifted hg (hrelative _ hmem)
        (haddressable _ hmem) (hbounded _ (hmember hg)) hshifted
      rw [Source.valueAt_range _ hg]
      refine (Source.valueAt_range _ hregion).trans (congrArg Value.array ?_)
      exact blockOf_shifted (hbounded _ (hmember hg)) hmoves (h _ (hmember hg))

/-- The references of a formula, copied along with the cells that they denote, show the same. -/
theorem mirrors_shifted {f : Formula} (relative : ∀ r ∈ f.references, r.IsRelative)
    (addressable : ∀ r ∈ f.references, r.Addressable)
    (bounded : ∀ r ∈ f.references, r.IsBounded)
    (kept : ∀ r ∈ f.references, r.isValid = true → (r.shifted rows columns).isValid = true)
    (same : ∀ r ∈ f.references, ∀ g ∈ r.regions, s.MovesTo t g rows columns) (a b : Ambient) :
    (s.source a).Mirrors (t.source b) (fun r => r.shifted rows columns) f.references where
  unnamed n hn := (relative _ hn).ne_name n rfl
  valid r hr := Reference.isValid_shifted (kept r hr)
  value r hr := by
    cases hv : r.isValid with
    | true =>
      exact value_shifted (relative r hr) (addressable r hr) (bounded r hr) hv (kept r hr hv)
        (same r hr) a b
    | false =>
      have hv' := (Reference.isValid_shifted (kept r hr)).trans hv
      rw [Source.valueAt_of_not_isValid _ hv, Source.valueAt_of_not_isValid _ hv']
  values r hr := by
    cases hv : r.isValid with
    | true =>
      exact values_shifted (relative r hr) (addressable r hr) (bounded r hr) hv (kept r hr hv)
        (same r hr) a b
    | false =>
      have hv' := (Reference.isValid_shifted (kept r hr)).trans hv
      rw [Source.valuesAt_of_ne_name (relative r hr).ne_name,
        Source.valuesAt_of_ne_name (relative r hr).shifted_ne_name, hv, hv']
      rfl

/-- A formula that is copied along with the cells it refers to keeps its value, if its references
are relative and go to no end of the grid, and its functions take values and nothing of the time or
of chance. -/
theorem evaluate_shifted {f : Formula}
    (functions : SameFunctions s.functions.find? t.functions.find? f.expr.calls)
    (steady : Steady s.functions.find? f.expr.calls)
    (takesValues : TakesValues s.functions.find? f.expr.calls)
    (relative : ∀ r ∈ f.references, r.IsRelative)
    (addressable : ∀ r ∈ f.references, r.Addressable)
    (bounded : ∀ r ∈ f.references, r.IsBounded)
    (kept : ∀ r ∈ f.references, r.isValid = true → (r.shifted rows columns).isValid = true)
    (same : ∀ r ∈ f.references, ∀ g ∈ r.regions, s.MovesTo t g rows columns) :
    t.evaluate (f.shifted rows columns) = s.evaluate f :=
  Formula.evaluate_mapReferences
    (mirrors_shifted relative addressable bounded kept same s.ambient t.ambient) functions
    (.inr steady) takesValues

/-- `F(A1:B1,(A1,B1))&B1` copied down one row and over two columns, to a sheet that is stored the
other way and has more on it. -/
theorem evaluate_shifted_to_other_sheet :
    let cells : Reference := .ofCorners ⟨0, 0⟩ ⟨0, 1⟩
    let parts : Reference := .union [.ofPosition ⟨0, 0⟩, .ofPosition ⟨0, 1⟩]
    let f : Formula := .ofExpr (.binary .concat (.call "F" [.reference cells, .reference parts])
      (.reference (.ofPosition ⟨0, 1⟩)))
    let g : Function := ⟨[⟨"value", .any, true, false⟩, ⟨"numbers", .numbers, true, true⟩], false,
      .steady (·.value 0)⟩
    let functions : Registry := ⟨(∅ : Std.ExtTreeMap String Function).insert "F" g⟩
    let s : Sheet :=
      { Sheet.empty "s" default functions ⟨.midnight 0, 0⟩ with
        cells := (Matrix.empty .column).set ⟨0, 1⟩ (.ofValue (.text "b")) }
    let t : Sheet :=
      { Sheet.empty "t" { storageAxis := .row } functions ⟨.midnight 1, 7⟩ with
        cells := ((Matrix.empty .row).set ⟨0, 0⟩ (.ofValue (.text "a"))).set ⟨1, 3⟩
          (.ofValue (.text "b")) }
    t.evaluate (f.shifted 1 2) = s.evaluate f := by
  intro cells parts f g functions s t
  have hF : Text.upper "F" = "F" := by decide +kernel
  have hf : s.functions.find? "F" = some g := by
    rw [Registry.find?, hF]
    exact Std.ExtTreeMap.getElem?_insert_self
  have hcalls : f.expr.calls = ["F"] := rfl
  have hregions : ∀ r ∈ f.references, ∀ g ∈ r.regions, g.rows.last = 0 ∧ g.columns.last ≤ 1 := by
    decide
  refine evaluate_shifted (fun _ _ => rfl) (fun n hn k hk => ?_) (fun n hn k hk => ?_) (by decide)
    (by decide) (by decide) (by decide) (fun r hr g hg p hp => ?_)
  · obtain rfl := List.mem_singleton.mp (hcalls ▸ hn)
    cases hf.symm.trans hk
    rfl
  · obtain rfl := List.mem_singleton.mp (hcalls ▸ hn)
    cases hf.symm.trans hk
    decide
  · have hlast := hregions r hr g hg
    obtain ⟨row, column⟩ := p
    unfold Region.contains Span.contains at hp
    simp only [Bool.and_eq_true, decide_eq_true_eq] at hp
    obtain rfl : row = 0 := by omega
    unfold value cell? Position.shifted
    rw [Matrix.get?_set, Matrix.get?_set, Matrix.get?_set]
    obtain rfl | rfl : column = 0 ∨ column = 1 := by omega
    · simp
    · simp

/-- A function that takes a reference as it is can tell where it is: `SHOW(A1)` on an empty sheet,
copied over one column, shows another text. -/
theorem reference_seen_where_it_is :
    let f : Formula := .ofExpr (.call "SHOW" [.reference (.ofPosition ⟨0, 0⟩)])
    let g : Function := ⟨[⟨"reference", .reference, true, false⟩], false,
      .steady fun args => .ofResult (fun r => .text r.text) (args.reference 0)⟩
    let s : Sheet :=
      Sheet.empty "s" default ⟨(∅ : Std.ExtTreeMap String Function).insert "SHOW" g⟩
        ⟨.midnight 0, 0⟩
    (Steady s.functions.find? f.expr.calls ∧ (∀ r ∈ f.references, r.IsRelative ∧ r.Addressable ∧
        r.IsBounded ∧ (r.shifted 0 1).isValid = true) ∧
      ∀ p, s.value (p.shifted 0 1) = s.value p) ∧
    s.evaluate f = .text "A1" ∧ s.evaluate (f.shifted 0 1) = .text "B1" := by
  intro f g s
  have hshow : Text.upper "SHOW" = "SHOW" := by decide +kernel
  have hf : s.functions.find? "SHOW" = some g := by
    rw [Registry.find?, hshow]
    exact Std.ExtTreeMap.getElem?_insert_self
  have hempty (p : Position) : s.value p = .empty := by
    unfold value cell?
    simp [s, Sheet.empty]
  have hshown {r : Reference} (hr : r.isValid = true) :
      s.evaluate (.ofExpr (.call "SHOW" [.reference r])) = .text r.text := by
    have hparameters : Parameter.forArguments? g.parameters 1 = some g.parameters := rfl
    have harguments : List.zipWith (Argument.ofOperand (s.source s.ambient)) g.parameters
        [.reference r] = [.reference r] := congrArg ([·]) (if_pos hr)
    have hresult : g.call (s.source s.ambient) s.ambient [.reference r] = .text r.text := by
      unfold Function.call
      rw [List.length_singleton, hparameters]
      dsimp only
      rw [harguments]
      rfl
    have hcall : (Expr.call "SHOW" [.reference r]).operand (s.source s.ambient) s.ambient =
        .value (g.call (s.source s.ambient) s.ambient [.reference r]) := by
      have hf' : (s.source s.ambient).function? "SHOW" = some g := hf
      simp only [Expr.operand, hf', Expr.operands]
    unfold evaluate Formula.evaluate Expr.evaluate
    exact (if_pos rfl).trans ((congrArg (Operand.toValue _) hcall).trans hresult)
  refine ⟨⟨fun n hn k hk => ?_, by decide, fun p => by rw [hempty, hempty]⟩,
    hshown (by decide), hshown (by decide)⟩
  obtain rfl := List.mem_singleton.mp hn
  cases hf.symm.trans hk
  rfl

end Sheet

/-! ## The built-in functions -/

namespace Builtin

/-- Of the built-in functions, `ROW` and `COLUMN` are the only ones that take a reference as it
is. -/
theorem takesValues_registry {names : List String}
    (h : ∀ n ∈ names, Text.upper n ≠ "ROW" ∧ Text.upper n ≠ "COLUMN") :
    TakesValues registry.find? names := by
  have hall : ∀ b ∈ all, Text.upper b.name ≠ "ROW" → Text.upper b.name ≠ "COLUMN" →
      ∀ p ∈ b.function.parameters, p.kind ≠ .reference := by decide +kernel
  have haliases : ∀ a ∈ aliases, Text.upper a.2 ≠ "ROW" ∧ Text.upper a.2 ≠ "COLUMN" := by
    decide +kernel
  intro n hn f hf
  obtain ⟨b, hb, rfl, hname | ⟨a, ha, -, hname⟩⟩ := holds_registry _ f hf
  · exact hall b hb (hname ▸ (h n hn).1) (hname ▸ (h n hn).2)
  · exact hall b hb (hname ▸ (haliases a ha).1) (hname ▸ (haliases a ha).2)

end Builtin

end Spreadsheet
