import Spreadsheet.Proofs.Evaluation.Settled
import Spreadsheet.Proofs.Formula.Printing
import Spreadsheet.Proofs.Grid.Revising

/-! Formulas that were edited can be entered again. As long as the columns of all that is left of
its references have names, the text of a formula is read as the formula it is the text of, with an
error for each reference part of which is gone and one zero for both; and so the two have one value
wherever they are computed. -/

namespace Spreadsheet

open Grammar

namespace Formula

/-- The text of a formula without the equals sign and what stands before it. -/
def body (text : String) : String :=
  let trimmed := Text.dropBlanks text.toList
  String.ofList <| match trimmed with
    | '=' :: rest => rest
    | _ => trimmed

theorem ofText_eq (text : String) :
    ofText text = ⟨(Parsed.ofText (body text)).expr, (Parsed.ofText (body text)).diagnostics.map
      (·.movedBy (text.utf8ByteSize - (body text).utf8ByteSize))⟩ := by
  unfold ofText body
  rfl

theorem expr_ofText (text : String) : (ofText text).expr = (Parsed.ofText (body text)).expr := by
  rw [ofText_eq]

theorem isValid_ofText (text : String) :
    (ofText text).isValid = (Parsed.ofText (body text)).isValid := by
  unfold isValid Parsed.isValid
  rw [ofText_eq, List.isEmpty_map]

theorem body_text (f : Formula) : body f.text = f.expr.text := by
  have hequals : Text.isBlank '=' = false := by decide
  have htext : f.text.toList = '=' :: f.expr.text.toList := by simp [text]
  rw [body, htext, Text.dropBlanks, List.dropWhile_cons_of_neg (by simp [hequals])]
  exact String.ofList_toList

/-- The formula after some edits of the grid and copies. -/
def revised (vs : List Revision) (f : Formula) : Formula :=
  vs.foldl (fun f v => match v with
    | .edit e => f.edited e
    | .copy rows columns => f.shifted rows columns) f

theorem revised_eq (vs : List Revision) (f : Formula) :
    f.revised vs = f.mapReferences (Revision.referenceAfter vs) := by
  induction vs generalizing f with
  | nil =>
    have hid : f.expr.mapReferences (Revision.referenceAfter []) = f.expr := f.expr.mapReferences_id
    rw [mapReferences, hid]
    rfl
  | cons v vs ih =>
    have hstep : f.revised (v :: vs) = (f.mapReferences v.reference).revised vs := by
      cases v <;> rfl
    rw [hstep, ih, mapReferences, mapReferences, Expr.mapReferences_mapReferences]
    rfl

theorem isValid_revised (vs : List Revision) (f : Formula) : (f.revised vs).isValid = f.isValid := by
  rw [revised_eq]
  rfl

theorem expr_revised (vs : List Revision) (f : Formula) :
    (f.revised vs).expr = f.expr.mapReferences (Revision.referenceAfter vs) := by
  rw [revised_eq]
  rfl

end Formula

/-- What the steps leave of a well-formed reference can be named when its columns can. -/
theorem namesLeft_targetAfter {vs : List Revision} {r : Reference} (h : r.Spelled)
    (hcolumns : (Revision.referenceAfter vs r).isValid = true →
      ∀ t ∈ (Revision.referenceAfter vs r).targets, t.HasColumns) :
    NamesLeft (Revision.targetAfter vs) r := by
  intro hv t ht
  have hafter : Revision.referenceAfter vs r = r.map (Revision.targetAfter vs) := by
    obtain hr | ⟨-, hinvalid⟩ := Revision.referenceAfter_cases vs r
    · exact hr
    · rw [hv] at hinvalid
      cases hinvalid
  rw [hafter] at hcolumns
  have hleft : t.isValid = true := List.all_eq_true.mp hv t ht
  refine Target.Formed.spelled ?_ (hcolumns hv t ht)
  rw [Reference.targets_map, List.mem_map] at ht
  obtain ⟨t', ht', rfl⟩ := ht
  exact Revision.formed_targetAfter (h t' ht').formed hleft

/-- The text of a tree whose references have changed is read as the tree, settled and with one
zero. -/
theorem Parsed.ofText_referenceAfter {e : Expr} {ts : List Token} (vs : List Revision)
    (h : Derives .expression ts e) (hr : ∀ t ∈ ts, t.Reprints)
    (columns : ∀ r ∈ (e.mapReferences (Revision.referenceAfter vs)).references,
      r.isValid = true → ∀ t ∈ r.targets, t.HasColumns) :
    (ofText (e.mapReferences (Revision.referenceAfter vs)).text).isValid = true ∧
      (ofText (e.mapReferences (Revision.referenceAfter vs)).text).expr =
        (e.mapReferences (Revision.referenceAfter vs)).settled.reread := by
  have hcolumns : e.EachReference fun r => (Revision.referenceAfter vs r).isValid = true →
      ∀ t ∈ (Revision.referenceAfter vs r).targets, t.HasColumns :=
    (Expr.eachReference_mapReferences e).mp (Expr.eachReference_of_mem _ columns)
  have hnames : e.EachReference (NamesLeft (Revision.targetAfter vs)) :=
    Expr.EachReference.imp₂ (fun _ => namesLeft_targetAfter) e h.spelled hcolumns
  have hsettled : (e.mapReferences (Revision.referenceAfter vs)).settled =
      e.changed (Revision.targetAfter vs) :=
    Expr.settled_mapReferences_congr e
      (h.spelled.mono fun r _ => Revision.referenceAfter_cases vs r)
  have hprints := derives_printsAs h hr hnames nofun
  rw [← hsettled] at hprints
  have hback := ofText_text_of_printsAs hprints
  rwa [Expr.text, Expr.print_settled] at hback

namespace Formula

/-- A formula without faults can be entered again after any edits and copies, as long as the
columns of its references that are left have names: its text has no fault and is read as the
formula, with errors for the references that are lost and one zero for both. So when no number in
it is a negative zero, what is entered has its value wherever it is computed. The numbers that the
text writes are to read back from their own text. -/
theorem revised_reads_back {text : String} (vs : List Revision)
    (valid : (ofText text).isValid = true)
    (numbers : ∀ t ∈ Token.lex (body text), ∀ x : Float, t.Writes (.number x) → 0 ≤ x →
      Number.ReadsBack x)
    (columns : ∀ r ∈ ((ofText text).revised vs).references, r.isValid = true →
      ∀ t ∈ r.targets, t.HasColumns) :
    (ofText ((ofText text).revised vs).text).isValid = true ∧
      (ofText ((ofText text).revised vs).text).expr =
        ((ofText text).revised vs).expr.settled.reread ∧
      ((ofText text).expr.hasNegativeZero = false → ∀ s : Source,
        (ofText ((ofText text).revised vs).text).evaluate s =
          ((ofText text).revised vs).evaluate s) := by
  have hfvalid := (isValid_revised vs (ofText text)).trans valid
  have hexpr := expr_revised vs (ofText text)
  rw [isValid_ofText] at valid
  obtain ⟨ts, last, hlex, hwords, hd⟩ := Parsed.derives_of_isValid valid
  rw [← expr_ofText] at hd
  have hreprints : ∀ t ∈ ts, t.Reprints := fun t ht =>
    ⟨(hwords t ht).identifier, fun x hx =>
      numbers t (hlex ▸ List.mem_append_left _ ht) x hx ((hwords t ht).zero_le hx)⟩
  rw [references, hexpr] at columns
  obtain ⟨hvalid, hback⟩ := Parsed.ofText_referenceAfter vs hd hreprints columns
  rw [← hexpr, ← body_text] at hvalid hback
  rw [← isValid_ofText] at hvalid
  rw [← expr_ofText] at hback
  refine ⟨hvalid, hback, fun hzero s => ?_⟩
  have hreread : ((ofText text).revised vs).expr.settled.reread =
      ((ofText text).revised vs).expr.settled := by
    rw [hexpr, Expr.reread_settled, Expr.reread_mapReferences, Expr.reread_eq _ hzero]
  rw [evaluate, evaluate, hvalid, hfvalid, hback, hreread, Expr.evaluate_settled]

/-- A negative zero prints as the one zero, and functions can tell the two apart. -/
example : (ofText "=\x7b-0\x7d").expr.hasNegativeZero = true ∧
    (ofText "=\x7b-0\x7d").text = "=\x7b0\x7d" := by decide +kernel

theorem revised_reads_back_of_mixed_formula :
    let text := " = sum( $b$2 : A9 ,, 2.50 ) & ( a1 , 3 : $9 ) & C2 <> \x7b -1 , \"a\"\"b\" \x7d "
    let vs : List Revision := [.edit (.insert .row 1 2), .edit (.remove .row 2 1),
      .edit (.remove .column 2 1), .copy 1 1]
    let f := (ofText text).revised vs
    let printed := "=sum(B$2:$B11,,2.5)&(B2,5:$9)&#REF!<>\x7b-1,\"a\"\"b\"\x7d"
    ((ofText text).isValid = true ∧
      (∀ t ∈ Token.lex (body text), ∀ x : Float, t.Writes (.number x) → 0 ≤ x →
        Number.ReadsBack x) ∧
      (∀ r ∈ f.references, r.isValid = true → ∀ t ∈ r.targets, t.HasColumns) ∧
      (ofText text).expr.hasNegativeZero = false) ∧
    f.text = printed ∧ (ofText printed).isValid = true ∧
      ∀ s : Source, (ofText printed).evaluate s = f.evaluate s := by
  intro text vs f printed
  have hvalid : (ofText text).isValid = true := by decide +kernel
  have hread : ∀ t ∈ Token.lex (body text), t.kind = .number →
      ∀ x ∈ Number.read? t.text, Number.ReadsBack x := by decide +kernel
  have hnumbers : ∀ t ∈ Token.lex (body text), ∀ x : Float, t.Writes (.number x) → 0 ≤ x →
      Number.ReadsBack x := by
    intro t ht x hx _
    obtain ⟨kind, value, -⟩ := hx
    exact hread t ht kind x value
  have hcolumns : ∀ r ∈ f.references, r.isValid = true → ∀ t ∈ r.targets, t.HasColumns := by
    decide +kernel
  have hzero : (ofText text).expr.hasNegativeZero = false := by decide +kernel
  have hprinted : f.text = printed := by decide +kernel
  obtain ⟨hback, -, hvalue⟩ := revised_reads_back vs hvalid hnumbers hcolumns
  change (ofText f.text).isValid = true at hback
  rw [hprinted] at hback
  refine ⟨⟨hvalid, hnumbers, hcolumns, hzero⟩, hprinted, hback, fun s => ?_⟩
  rw [← hprinted]
  exact hvalue hzero s

/-- The end of a range is pushed on past the last column that has a name, where a cell would be
lost. What is then shown for it is no place that formulas can name. -/
theorem range_pushed_past_columns :
    (ofText "=SUM(A1:B1)").isValid = true ∧
      ((ofText "=SUM(A1:B1)").revised [.edit (.insert .column 1 20000)]).text =
        "=SUM(A1:ACOH1)" ∧
      (ofText "=SUM(A1:ACOH1)").isValid = false ∧
      ((ofText "=SUM(B1)").revised [.edit (.insert .column 1 20000)]).text = "=SUM(#REF!)" := by
  decide +kernel

end Formula

end Spreadsheet
