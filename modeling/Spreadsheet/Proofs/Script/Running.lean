import Spreadsheet.Proofs.Script.Loading
import Spreadsheet.Proofs.Sheet.Keeping

/-! What a script leaves. While it runs, calculation waits; so its sheet differs from one on which
the lines are carried out one after the other in what is computed, and in nothing that a line is
accepted or refused for. The lines up to the first that is refused are carried out, and that one
leaves no trace. -/

namespace Spreadsheet

open Relation

/-! ## Statements -/

namespace Statement

/-- The sheet with contents in a cell, before the graph follows and anything is computed. -/
def filled (s : Sheet) (p : Position) : Option Contents → Sheet
  | none => s.withCells (s.cells.remove p)
  | some (.value v) =>
    if v.isEmpty then s.withCells (s.cells.remove p)
    else s.withCells (s.cells.set p (.ofValue v))
  | some (.formula f) => s.withCells (s.cells.set p (.ofFormula f))

/-- The sheet with a statement carried out, before the graph follows and anything is computed. -/
def carriedOut (s : Sheet) : Statement → Sheet
  | .assign p input => filled s p (Contents.ofInput? s.settings.datePatterns input)
  | .define name d => s.withNames (s.names.insert (Text.upperAscii name) d)
  | .format r f => s.setFormat r f

end Statement

namespace Sheet

variable {s t u x y : Sheet}

theorem planClear_intends {p : Position} (hx : (s.planClear p).Intends x) :
    (s.withCells (s.cells.remove p)).SameStanding x := by
  unfold planClear at hx
  split at hx <;> (obtain rfl : x = _ := hx; exact ⟨⟨fun _ => rfl, rfl, rfl⟩, rfl, rfl⟩)

theorem planContents_intends {p : Position} {c : Option Contents}
    (hx : (s.planContents p c).Intends x) : (Statement.filled s p c).SameStanding x := by
  cases c with
  | none => exact planClear_intends hx
  | some c =>
    cases c with
    | value v =>
      change (s.planValue p v).Intends x at hx
      unfold planValue at hx
      unfold Statement.filled
      dsimp only
      split at hx
      · rename_i hv
        rw [if_pos hv]
        exact planClear_intends hx
      · rename_i hv
        rw [if_neg hv]
        obtain rfl : x = _ := hx
        exact ⟨⟨fun _ => rfl, rfl, rfl⟩, rfl, rfl⟩
    | formula f =>
      change (s.planFormula p f).Intends x at hx
      unfold planFormula at hx
      split at hx
      · exact hx.elim
      · obtain rfl : x = _ := hx
        exact ⟨⟨fun _ => rfl, rfl, rfl⟩, rfl, rfl⟩

theorem plan_operation_intends {st : Statement} (hx : (s.plan st.operation).Intends x) :
    (st.carriedOut s).SameStanding x := by
  cases st with
  | assign p input => exact planContents_intends hx
  | define name d =>
    change (s.planDefine name d).Intends x at hx
    unfold planDefine at hx
    split at hx
    · exact hx.elim
    · obtain rfl : x = _ := hx
      exact ⟨⟨fun _ => rfl, rfl, rfl⟩, rfl, rfl⟩
  | format r f =>
    obtain rfl : x = s.setFormat r f := hx
    exact .refl _

theorem answer_operation (s : Sheet) (st : Statement) :
    (s.apply st.operation).answer = (s.perform st).answer.map fun _ => .done := by
  cases st <;> rfl

/-- On a sheet that is kept well a statement is carried out, or is refused and leaves what the sheet
held. -/
theorem WellKept.perform (h : s.WellKept) (st : Statement) :
    (s.perform st).sheet.WellKept ∧
      ((s.perform st).answer = .ok () ∧ (st.carriedOut s).SameStanding (s.perform st).sheet ∨
        ∃ r, (s.perform st).answer = .error r ∧ s.SameStanding (s.perform st).sheet) := by
  have hop : st.operation.isReshaping = false := by cases st <;> rfl
  have hdone := h.apply hop (by cases st <;> nofun)
  rw [← sheet_perform, answer_operation] at hdone
  refine ⟨hdone.1, hdone.2.imp ?_ ?_⟩
  · rintro ⟨x, a, hx, ha, hstanding⟩
    exact ⟨eq_ok_of_map ha, (plan_operation_intends hx).trans hstanding⟩
  · rintro ⟨r, -, hr, hstanding⟩
    exact ⟨r, eq_error_of_map hr, hstanding⟩

theorem carriedOut_rest (s : Sheet) (st : Statement) :
    (st.carriedOut s).settings = s.settings ∧ (st.carriedOut s).pauseDepth = s.pauseDepth := by
  cases st with
  | assign p input =>
    unfold Statement.carriedOut Statement.filled
    dsimp only
    split
    · exact ⟨rfl, rfl⟩
    · split <;> exact ⟨rfl, rfl⟩
    · exact ⟨rfl, rfl⟩
  | define name d => exact ⟨rfl, rfl⟩
  | format r f => cases f <;> exact ⟨rfl, rfl⟩

/-- Carried out or refused, a statement has no part in settings and pauses. -/
theorem WellKept.perform_rest (h : s.WellKept) (st : Statement) :
    (s.perform st).sheet.settings = s.settings ∧
      (s.perform st).sheet.pauseDepth = s.pauseDepth := by
  rcases (h.perform st).2 with ⟨-, hstanding⟩ | ⟨r, -, hstanding⟩
  · obtain ⟨hsettings, hdepth⟩ := s.carriedOut_rest st
    exact ⟨hstanding.settings.trans hsettings, hstanding.pauseDepth.trans hdepth⟩
  · exact ⟨hstanding.settings, hstanding.pauseDepth⟩

/-! ## Side by side -/

/-- The sheets are kept well and hold the same under the same settings; one of them may calculate at
once while the other waits. -/
structure Alongside (s t : Sheet) : Prop where
  left : s.WellKept
  right : t.WellKept
  holdings : s.SameHoldings t
  settings : t.settings = s.settings

namespace SameHoldings

theorem remove (h : s.SameHoldings t) (p : Position) :
    (s.withCells (s.cells.remove p)).SameHoldings (t.withCells (t.cells.remove p)) := by
  refine ⟨fun q => ?_, h.names, h.formats⟩
  show ((t.cells.remove p).get? q).map _ = ((s.cells.remove p).get? q).map _
  rw [Matrix.get?_remove, Matrix.get?_remove]
  split
  · rfl
  · exact h.contents q

theorem set (h : s.SameHoldings t) (p : Position) (c : Cell) :
    (s.withCells (s.cells.set p c)).SameHoldings (t.withCells (t.cells.set p c)) := by
  refine ⟨fun q => ?_, h.names, h.formats⟩
  show ((t.cells.set p c).get? q).map _ = ((s.cells.set p c).get? q).map _
  rw [Matrix.get?_set, Matrix.get?_set]
  split
  · rfl
  · exact h.contents q

theorem insertName (h : s.SameHoldings t) (key : String) (d : Definition) :
    (s.withNames (s.names.insert key d)).SameHoldings
      (t.withNames (t.names.insert key d)) :=
  ⟨h.contents, congrArg (·.insert key d) h.names, h.formats⟩

theorem setFormat (h : s.SameHoldings t) (r : Region) (f : NumberFormat) :
    (s.setFormat r f).SameHoldings (t.setFormat r f) := by
  cases f with
  | general => exact ⟨h.contents, h.names, congrArg (·.clear r) h.formats⟩
  | fixed n => exact ⟨h.contents, h.names, congrArg (·.add r (.fixed n)) h.formats⟩
  | money symbol n => exact ⟨h.contents, h.names, congrArg (·.add r (.money symbol n)) h.formats⟩

/-- A statement does the same to sheets that hold the same. -/
theorem carriedOut (h : s.SameHoldings t) (hset : t.settings = s.settings) (st : Statement) :
    (st.carriedOut s).SameHoldings (st.carriedOut t) := by
  cases st with
  | assign p input =>
    unfold Statement.carriedOut Statement.filled
    rw [hset]
    dsimp only
    split
    · exact h.remove p
    · split
      · exact h.remove p
      · exact h.set p _
    · exact h.set p _
  | define name d => exact h.insertName _ d
  | format r f => exact h.setFormat r f

end SameHoldings

namespace Alongside

theorem withAmbient (h : s.Alongside t) (a b : Ambient) :
    (s.withAmbient a).Alongside (t.withAmbient b) where
  left := h.left.withAmbient a
  right := h.right.withAmbient b
  holdings := ⟨h.holdings.contents, h.holdings.names, h.holdings.formats⟩
  settings := h.settings

theorem verdict_linkedFormula (h : s.Alongside t) (p : Position) (f : Formula) :
    (t.linkedFormula p f).verdict (.cell p) = (s.linkedFormula p f).verdict (.cell p) := by
  obtain ⟨hs, hts⟩ := h.left.linkedFormula p f
  obtain ⟨ht, htt⟩ := h.right.linkedFormula p f
  refine hs.verdict_eq hts ht htt ?_ ?_ _ <;> rw [linkedFormula_eq s, linkedFormula_eq t]
  · have hset := h.holdings.set p (.ofFormula f)
    exact ⟨hset.contents, hset.names, hset.formats⟩
  · exact h.settings

theorem verdict_linkedName (h : s.Alongside t) (key : String) (d : Definition) :
    (t.linkedName key d).verdict (.name key) = (s.linkedName key d).verdict (.name key) := by
  obtain ⟨hs, hts⟩ := h.left.linkedName key d
  obtain ⟨ht, htt⟩ := h.right.linkedName key d
  refine hs.verdict_eq hts ht htt ?_ ?_ _ <;> rw [linkedName_eq s, linkedName_eq t]
  · have hinsert := h.holdings.insertName key d
    exact ⟨hinsert.contents, hinsert.names, hinsert.formats⟩
  · exact h.settings

theorem answer_setFormula (h : s.Alongside t) (p : Position) (f : Formula) :
    (t.setFormula p f).answer = (s.setFormula p f).answer := by
  cases hf : f.diagnostics with
  | nil =>
    rw [h.left.answer_setFormula p hf, h.right.answer_setFormula p hf, h.verdict_linkedFormula]
  | cons d ds =>
    unfold Sheet.setFormula
    rw [hf]

theorem answer_define (h : s.Alongside t) (name : String) (d : Definition) :
    (t.define name d).answer = (s.define name d).answer := by
  cases hname : isName name with
  | true =>
    rw [h.left.answer_define d hname, h.right.answer_define d hname, h.verdict_linkedName]
  | false =>
    unfold Sheet.define
    rw [hname]
    rfl

theorem answer_setContents (h : s.Alongside t) (p : Position) (c : Option Contents) :
    (t.setContents p c).answer = (s.setContents p c).answer := by
  cases c with
  | none => exact (h.right.answer_clear p).trans (h.left.answer_clear p).symm
  | some c =>
    cases c with
    | value v => exact (h.right.answer_setValue p v).trans (h.left.answer_setValue p v).symm
    | formula f => exact h.answer_setFormula p f

theorem answer_perform (h : s.Alongside t) (st : Statement) :
    (t.perform st).answer = (s.perform st).answer := by
  cases st with
  | assign p input =>
    show (t.setContents p (Contents.ofInput? t.settings.datePatterns input)).answer =
      (s.setContents p (Contents.ofInput? s.settings.datePatterns input)).answer
    rw [h.settings]
    exact h.answer_setContents p _
  | define name d => exact h.answer_define name d
  | format r f => rfl

/-- A statement that is carried out or refused leaves the sheets side by side. -/
theorem perform (h : s.Alongside t) (st : Statement) :
    (s.perform st).sheet.Alongside (t.perform st).sheet := by
  obtain ⟨hs, hdone⟩ := h.left.perform st
  obtain ⟨ht, hdone'⟩ := h.right.perform st
  rw [h.answer_perform] at hdone'
  refine ⟨hs, ht, ?_, ?_⟩
  · rcases hdone with ⟨ha, hss⟩ | ⟨r, ha, hss⟩ <;> rw [ha] at hdone'
    · rcases hdone' with ⟨-, htt⟩ | ⟨_, hrefused, -⟩
      · exact hss.holdings.symm.trans ((h.holdings.carriedOut h.settings st).trans htt.holdings)
      · cases hrefused
    · rcases hdone' with ⟨hdone, -⟩ | ⟨_, -, htt⟩
      · cases hdone
      · exact hss.holdings.symm.trans (h.holdings.trans htt.holdings)
  · rw [(h.left.perform_rest st).1, (h.right.perform_rest st).1, h.settings]

end Alongside

/-! ## Lines -/

/-- The lines are carried out one after the other, each at its own time. -/
inductive Executes : Sheet → List ScriptLine → Sheet → Prop
  | nil (s : Sheet) : Executes s [] s
  | cons {s t u : Sheet} {line : ScriptLine} {rest : List ScriptLine} (a : Ambient)
    (first : (s.withAmbient a).perform line.statement = ⟨t, .ok ()⟩) (later : Executes t rest u) :
    Executes s (line :: rest) u

variable {lines : List ScriptLine}

/-- What is carried out keeps the sheet well, and has no part in settings and pauses. -/
theorem Executes.wellKept (he : s.Executes lines t) (h : s.WellKept) :
    t.WellKept ∧ t.settings = s.settings ∧ t.pauseDepth = s.pauseDepth := by
  induction he with
  | nil s => exact ⟨h, rfl, rfl⟩
  | @cons s t u line rest a first later ih =>
    have hs := h.withAmbient a
    have ht := (hs.perform line.statement).1
    obtain ⟨hsettings, hdepth⟩ := hs.perform_rest line.statement
    rw [first] at ht hsettings hdepth
    obtain ⟨hu, hsettings', hdepth'⟩ := ih ht
    exact ⟨hu, hsettings'.trans hsettings, hdepth'.trans hdepth⟩

namespace Alongside

/-- What can be carried out on one of the sheets can be carried out on the other. -/
theorem exists_executes (h : s.Alongside t) (he : s.Executes lines u) :
    ∃ v, t.Executes lines v := by
  induction he generalizing t with
  | nil s => exact ⟨t, .nil t⟩
  | @cons s s' u line rest a first later ih =>
    have h' := (h.withAmbient a a).perform line.statement
    have hanswer := (h.withAmbient a a).answer_perform line.statement
    rw [first] at h' hanswer
    obtain ⟨v, hv⟩ := ih h'
    exact ⟨v, .cons a (congrArg (Outcome.mk _) hanswer) hv⟩

/-- What is carried out on both sheets leaves them side by side. -/
theorem executes (h : s.Alongside t) (he : s.Executes lines x) (he' : t.Executes lines y) :
    x.Alongside y := by
  induction he generalizing t with
  | nil s =>
    cases he'
    exact h
  | @cons s s' x line rest a first later ih =>
    cases he' with
    | cons b first' later' =>
      have h' := (h.withAmbient a b).perform line.statement
      rw [first, first'] at h'
      exact ih h' later'

end Alongside

/-- Lines are carried out up to the first that is refused. -/
theorem performAll_cases (s : Sheet) (lines : List ScriptLine) :
    (∃ t, s.Executes lines t ∧ s.performAll lines = (t, none)) ∨
      ∃ before line rest t r, lines = before ++ line :: rest ∧ s.Executes before t ∧
        (t.perform line.statement).answer = .error r ∧
        s.performAll lines = ((t.perform line.statement).sheet, some ⟨line, r⟩) := by
  induction lines generalizing s with
  | nil => exact .inl ⟨s, .nil s, rfl⟩
  | cons line rest ih =>
    cases hanswer : (s.perform line.statement).answer with
    | error r =>
      refine .inr ⟨[], line, rest, s, r, rfl, .nil s, hanswer, ?_⟩
      simp only [performAll, hanswer]
    | ok _ =>
      have hfirst : (s.withAmbient s.ambient).perform line.statement =
          ⟨(s.perform line.statement).sheet, .ok ()⟩ := congrArg (Outcome.mk _) hanswer
      have hstep : s.performAll (line :: rest) =
          (s.perform line.statement).sheet.performAll rest := by
        simp only [performAll, hanswer]
      rw [hstep]
      rcases ih (s.perform line.statement).sheet with
        ⟨t, he, hall⟩ | ⟨before, failed, later, t, r, rfl, he, hr, hall⟩
      · exact .inl ⟨t, .cons _ hfirst he, hall⟩
      · exact .inr ⟨line :: before, failed, later, t, r, rfl, .cons _ hfirst he, hr, hall⟩

/-! ## Scripts -/

/-- Once the batch is over calculation is resumed, and that is never refused. -/
theorem runScript_of_performAll {failure : Option ScriptFailure}
    (hall : s.pause.performAll lines = (u, failure)) (hu : u.WellKept)
    (hsettings : u.settings = s.settings) (hdepth : u.pauseDepth = s.pauseDepth + 1) :
    let o := s.runScript lines
    o.2 = failure.map (fun f => (f.line.number, f.refusal)) ∧ u.SameHoldings o.1 ∧
      o.1.pauseDepth = s.pauseDepth ∧
      (s.settings.autoCalculate = true → s.pauseDepth = 0 → o.1.dirty = ∅) := by
  intro o
  obtain ⟨t, n, hresume, hsame, hlowered, hdirty⟩ := hu.resume
  have ho : o = (t, failure.map fun f => (f.line.number, f.refusal)) := by
    show s.runScript lines = _
    unfold runScript
    rw [hall]
    dsimp only
    rw [hresume]
    cases failure <;> rfl
  rw [ho]
  refine ⟨rfl, hsame, ?_, fun hauto hzero => hdirty (by rwa [hsettings]) ?_⟩
  · rw [hlowered, hdepth, Nat.add_sub_cancel]
  · rw [hdepth, hzero]

/-- On a sheet whose graph has no cycle and is the one that would be made anew, a script is carried
out up to the first line that is refused. In the end the sheet holds what it holds when these lines
are carried out one after the other, and there the same line is refused in the same way. In any case
the sheet is paused as often as before, and nothing waits if it calculates at once. -/
theorem script_carried_out_as_prefix (s : Sheet) (ha : ∀ v, ¬ TransGen s.graph.Edge v v)
    (hg : s.graph = s.relinked.graph) (lines : List ScriptLine) :
    let o := s.runScript lines
    (o.2 = none → (∃ t, s.Executes lines t) ∧ ∀ t, s.Executes lines t → t.SameHoldings o.1) ∧
      (∀ k r, o.2 = some (k, r) → ∃ before line rest,
        lines = before ++ line :: rest ∧ line.number = k ∧ (∃ t, s.Executes before t) ∧
        ∀ t, s.Executes before t → t.SameHoldings o.1 ∧
          ∀ a, ((t.withAmbient a).perform line.statement).answer = .error r) ∧
      o.1.pauseDepth = s.pauseDepth ∧
      (s.settings.autoCalculate = true → s.pauseDepth = 0 → o.1.dirty = ∅) := by
  have hkept := wellKept_of_graph ha hg
  have hsame : s.SameHoldings s.pause := ⟨fun _ => rfl, rfl, rfl⟩
  have halong : s.pause.Alongside s := ⟨hkept.congr rfl rfl hsame, hkept, hsame.symm, rfl⟩
  rcases s.pause.performAll_cases lines with
    ⟨u, he, hall⟩ | ⟨before, line, rest, u, r, rfl, he, hr, hall⟩
  · obtain ⟨hu, hsettings, hdepth⟩ := he.wellKept halong.left
    obtain ⟨hanswer, hsame, hrest⟩ := runScript_of_performAll hall hu hsettings hdepth
    refine ⟨fun _ => ⟨halong.exists_executes he, fun t ht => ?_⟩, fun k r h => ?_, hrest⟩
    · exact (halong.executes he ht).holdings.symm.trans hsame
    · rw [hanswer] at h
      cases h
  · obtain ⟨hu, hsettings, hdepth⟩ := he.wellKept halong.left
    -- the sheet after the refused line, which holds what `u` does
    obtain ⟨hfailed, hdone⟩ := hu.perform line.statement
    obtain ⟨hsettings', hdepth'⟩ := hu.perform_rest line.statement
    have hback : u.SameHoldings (u.perform line.statement).sheet := by
      rcases hdone with ⟨hok, -⟩ | ⟨_, -, hstanding⟩
      · rw [hr] at hok
        cases hok
      · exact hstanding.holdings
    obtain ⟨hanswer, hsame, hrest⟩ := runScript_of_performAll hall hfailed
      (hsettings'.trans hsettings) (hdepth'.trans hdepth)
    refine ⟨fun h => ?_, fun k r' h => ?_, hrest⟩
    · rw [hanswer] at h
      cases h
    · rw [hanswer] at h
      cases h
      refine ⟨before, line, rest, rfl, rfl, halong.exists_executes he, fun t ht => ⟨?_, fun a => ?_⟩⟩
      · exact (halong.executes he ht).holdings.symm.trans (hback.trans hsame)
      · exact (((halong.executes he ht).withAmbient u.ambient a).answer_perform _).trans hr

/-- `total` stands for `A1:B1`. `=total` in `A1` would read itself: line 4 is refused, and neither
`A1` nor `B1`, which line 5 would fill, holds anything. -/
theorem script_carried_out_up_to_circular_line :
    let a : Ambient := ⟨.midnight 0, 0⟩
    let s := Sheet.empty "Sheet1" default .empty a
    let lines : List ScriptLine :=
      [⟨1, .define "total" (.reference (.single (.between (.cell ⟨0, false⟩ ⟨0, false⟩ true)
        (.cell ⟨0, false⟩ ⟨1, false⟩ true))))⟩,
      ⟨2, .format (.corners 0 0 0 1) (.fixed 2)⟩, ⟨4, .assign ⟨0, 0⟩ "=total"⟩,
      ⟨5, .assign ⟨0, 1⟩ "1"⟩]
    let o := s.runScript lines
    o.2 = some (4, .circular [.cell ⟨0, 0⟩, .name "TOTAL", .cell ⟨0, 0⟩]) ∧
      (∃ before line rest t, lines = before ++ line :: rest ∧ line.number = 4 ∧
        s.Executes before t ∧ t.SameHoldings o.1) ∧
      o.1.contents? ⟨0, 0⟩ = none ∧ o.1.contents? ⟨0, 1⟩ = none ∧ o.1.names.size = 1 ∧
      o.1.pauseDepth = s.pauseDepth ∧ o.1.dirty = ∅ := by
  intro a s lines o
  have htended : s.Tended := .empty "Sheet1" default .empty a
  have hlinked := htended.reachable.sound.linked
  have hacyclic := hlinked.graph_acyclic (htended.reachable.sound.isAcyclic rfl)
  have hgraph := (graph_eq_relinked_iff hlinked).mpr htended.tidy
  have hanswer : o.2 = some (4, .circular [.cell ⟨0, 0⟩, .name "TOTAL", .cell ⟨0, 0⟩]) := by
    decide +kernel
  have hempty : (o.1.contents? ⟨0, 0⟩).isNone = true ∧ (o.1.contents? ⟨0, 1⟩).isNone = true := by
    decide +kernel
  have hsize : o.1.names.size = 1 := by decide +kernel
  have hrun : s.runScript lines = o := rfl
  -- from here on the script is not to be run again
  clear_value o
  obtain ⟨-, hrefused, hdepth, hdirty⟩ := script_carried_out_as_prefix s hacyclic hgraph lines
  rw [hrun] at hrefused hdepth hdirty
  obtain ⟨before, line, rest, hlines, hnumber, ⟨t, ht⟩, hall⟩ := hrefused _ _ hanswer
  refine ⟨hanswer, ⟨before, line, rest, t, hlines, hnumber, ht, (hall t ht).1⟩, ?_, ?_, hsize,
    hdepth, hdirty rfl rfl⟩
  · exact Option.isNone_iff_eq_none.mp hempty.1
  · exact Option.isNone_iff_eq_none.mp hempty.2

end Sheet

end Spreadsheet
