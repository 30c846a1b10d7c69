import Spreadsheet.CommandLine.Run
import Spreadsheet.Proofs.Grid.Naming
import Spreadsheet.Proofs.Sheet.Orderly
import Spreadsheet.Proofs.Sheet.Trial
import Spreadsheet.Proofs.Workbook

/-! Sheets that are loaded from scripts. While a script runs, the sheet waits as it would beside one
that calculates after every line, so nothing reads itself at any time, and once the last line is
done all that waits is calculated. A script names the cells that it fills, so it fills none beyond
the last column with a name. -/

namespace Spreadsheet

open Relation

/-- What comes after a step is reached only through a result of the step. -/
theorem exists_of_bind_eq_ok {ε α β : Type} {x : Except ε α} {f : α → Except ε β} {b : β}
    (h : x >>= f = .ok b) : ∃ a, x = .ok a ∧ f a = .ok b := by
  cases x with
  | error e => cases h
  | ok a => exact ⟨a, rfl, h⟩

/-- A text can say which cell it is. -/
def Position.IsNamed (p : Position) : Prop := p.row < endless ∧ p.column ≤ lastColumn

theorem Position.isNamed_of_read? {text : String} {p : Position} (h : read? text = some p) :
    p.IsNamed := by
  unfold read? read at h
  split at h
  · cases h
  · split at h
    · cases h
    · cases h
    · next column row hcolumn hrow =>
      cases h
      exact ⟨Place.lt_endless_of_readRow? hrow, Place.le_lastColumn_of_readColumn? hcolumn⟩

theorem Position.IsNamed.onGrid {p : Position} (h : p.IsNamed) : p.OnGrid :=
  ⟨Nat.le_of_lt h.1, h.2.trans (by decide)⟩

namespace Statement

/-- What the statement does to a sheet. -/
def operation : Statement → Operation
  | .assign cell input => .setInput cell input
  | .define name definition => .define name definition
  | .format region f => .setFormat region f

/-- The cell that the statement fills, if it fills one, has a name. -/
def NamesCell (st : Statement) : Prop := ∀ p input, st = .assign p input → p.IsNamed

theorem namesCell_of_readAssignment {cell input : String} {st : Statement}
    (h : readAssignment cell input = .ok st) : st.NamesCell := by
  unfold readAssignment at h
  split at h
  · next p hp =>
    cases h
    rintro q input' ⟨⟩
    exact Position.isNamed_of_read? hp
  · cases h

theorem namesCell_of_readDefinition {name text : String} {st : Statement}
    (h : readDefinition name text = .ok st) : st.NamesCell := by
  unfold readDefinition at h
  split at h
  · cases h
  · split at h <;> (cases h; exact nofun)

theorem namesCell_of_readFormatting {range kind : String} {decimals : Option (List Char)}
    {st : Statement} (h : readFormatting range kind decimals = .ok st) : st.NamesCell := by
  unfold readFormatting at h
  obtain ⟨region, -, h⟩ := exists_of_bind_eq_ok h
  cases decimals
  all_goals
    obtain ⟨places, -, h⟩ := exists_of_bind_eq_ok h
    obtain ⟨f, -, h⟩ := exists_of_bind_eq_ok h
    cases h
    exact nofun

theorem namesCell_of_read {line : String} {st : Statement} (h : read line = .ok st) :
    st.NamesCell := by
  unfold read at h
  split at h
  · exact namesCell_of_readFormatting h
  · split at h
    · exact namesCell_of_readDefinition h
    · split at h
      · exact namesCell_of_readAssignment h
      · cases h

end Statement

namespace ScriptLine

theorem namesCell_of_read? {raw : List Char} {number : Nat} {line : ScriptLine}
    (h : read? number raw = .ok (some line)) : line.statement.NamesCell := by
  unfold read? at h
  dsimp only at h
  split at h
  · cases h
  · split at h
    · next st hst =>
      cases h
      exact Statement.namesCell_of_read hst
    · cases h

theorem namesCell_of_readFrom {raws : List (List Char)} {number : Nat} {lines : List ScriptLine}
    (h : readFrom number raws = .ok lines) : ∀ l ∈ lines, l.statement.NamesCell := by
  induction raws generalizing number lines with
  | nil =>
    cases h
    exact nofun
  | cons raw rest ih =>
    unfold readFrom at h
    obtain ⟨line, hline, h⟩ := exists_of_bind_eq_ok h
    obtain ⟨lines, hlines, h⟩ := exists_of_bind_eq_ok h
    cases h
    intro l hl
    obtain hl | hl := List.mem_append.mp hl
    · exact namesCell_of_read? (hline.trans (congrArg _ (Option.mem_toList.mp hl)))
    · exact ih hlines l hl

theorem namesCell_of_readAll {text : String} {lines : List ScriptLine}
    (h : readAll text = .ok lines) : ∀ l ∈ lines, l.statement.NamesCell :=
  namesCell_of_readFrom h

end ScriptLine

namespace Sheet

variable {s t : Sheet}

/-! ## Lines -/

/-- A sheet that has the settings it started with; its cells have names. -/
structure Loaded (settings : Settings) (s : Sheet) : Prop where
  sound : s.Sound
  settings : s.settings = settings
  named : ∀ p, (s.cell? p).isSome = true → p.IsNamed

/-- A sheet that calculates at once and has nothing to calculate. -/
structure Ready (s : Sheet) : Prop where
  sound : s.Sound
  live : s.isLive = true
  clean : s.dirty = ∅

/-- A sheet that waits beside a live one. -/
def Underway (s : Sheet) : Prop := ∃ live : Sheet, live.InStep s

theorem Ready.pause (h : s.Ready) : s.pause.Underway :=
  ⟨s, .pause h.sound h.live h.clean s.ambient⟩

theorem Loaded.pause {settings : Settings} (h : s.Loaded settings) : s.pause.Loaded settings :=
  have hgrid : Operation.pause.OnGrid := nofun
  ⟨h.sound.apply hgrid, h.settings, h.named⟩

theorem sheet_perform (s : Sheet) (st : Statement) :
    (s.perform st).sheet = (s.apply st.operation).sheet := by
  cases st <;> rfl

theorem onGrid_operation {st : Statement} (h : st.NamesCell) : st.operation.OnGrid := by
  cases st with
  | assign p input =>
    rintro q ⟨⟩
    exact (h p input rfl).onGrid
  | define name d => exact nofun
  | format region f => exact nofun

/-- To format cells changes nothing that values depend on. -/
theorem InStep.setFormat (h : s.InStep t) (r : Region) (f : NumberFormat) :
    (s.setFormat r f).InStep (t.setFormat r f) := by
  have hgrid : (Operation.setFormat r f).OnGrid := nofun
  have hleft : (s.setFormat r f).Sound := h.left.apply hgrid
  have hright : (t.setFormat r f).Sound := h.right.apply hgrid
  have htracks : (s.setFormat r f).Tracks (t.setFormat r f) := by
    cases f <;> exact ⟨⟨h.tracks.input.axis, h.tracks.input.functions, h.tracks.input.names,
      h.tracks.input.contents⟩, h.tracks.settings, h.tracks.vacant, h.tracks.live, h.tracks.depth,
      h.tracks.dirty⟩
  cases f <;> exact ⟨htracks, hleft, hright, h.clean, h.agree⟩

theorem InStep.perform (h : s.InStep t) {st : Statement} (hst : st.NamesCell) :
    ∃ live : Sheet, live.InStep (t.perform st).sheet := by
  have hgrid := onGrid_operation hst
  rw [sheet_perform]
  cases st with
  | assign p input => exact ⟨_, (h.apply rfl hgrid).1⟩
  | define name d => exact ⟨_, (h.apply rfl hgrid).1⟩
  | format region f => exact ⟨_, h.setFormat region f⟩

theorem SameHoldings.filled (h : s.SameHoldings t) (p : Position) :
    (t.cell? p).isSome = (s.cell? p).isSome := by
  have hc := congrArg Option.isSome (h.contents p)
  unfold contents? at hc
  rwa [Option.isSome_map, Option.isSome_map] at hc

/-- A statement fills no cell but the one that it names. -/
theorem filled_perform (hs : s.Linked) {st : Statement} {q : Position}
    (hq : ((s.perform st).sheet.cell? q).isSome = true) :
    (s.cell? q).isSome = true ∨ ∃ input, st = .assign q input := by
  obtain ⟨u, hu, hsame⟩ := (apply_fulfilled hs st.operation).sameHoldings
  have hfilled : (u.cell? q).isSome = true := by
    rw [← hsame.filled q, ← sheet_perform, hq]
  cases st with
  | assign p input =>
    by_cases hqp : q = p
    · exact .inr ⟨input, hqp ▸ rfl⟩
    · exact .inl ((sameElsewhere_planContents hu).cell q hqp ▸ hfilled)
  | define name d =>
    have hcells : u.cells = s.cells := (sameButNames_planDefine hu).cells
    unfold cell? at hfilled ⊢
    exact .inl (hcells ▸ hfilled)
  | format region f =>
    obtain rfl : u = s.setFormat region f := hu
    cases f <;> exact .inl hfilled

theorem settings_calculate (s : Sheet) : s.calculate.sheet.settings = s.settings := by
  obtain ⟨m, d, h⟩ := s.calculate_rest
  rw [h]

/-- A statement has no part in the settings. -/
theorem settings_perform (hs : s.Linked) (st : Statement) :
    (s.perform st).sheet.settings = s.settings := by
  obtain ⟨u, g, hu, ho⟩ := (apply_fulfilled hs st.operation).leadsTo
  have hplanned : u.settings = s.settings := by
    cases st with
    | assign p input => exact (sameElsewhere_planContents hu).settings
    | define name d => exact (sameButNames_planDefine hu).settings
    | format region f =>
      obtain rfl : u = s.setFormat region f := hu
      cases f <;> rfl
  rw [sheet_perform]
  obtain ho | ho := ho
  · rw [ho]
    exact hplanned
  · rw [ho]
    exact (settings_calculate (u.withGraph g)).trans hplanned

theorem Loaded.perform {settings : Settings} (h : s.Loaded settings) {st : Statement}
    (hst : st.NamesCell) : (s.perform st).sheet.Loaded settings where
  sound := by
    rw [sheet_perform]
    exact h.sound.apply (onGrid_operation hst)
  settings := (settings_perform h.sound.linked st).trans h.settings
  named q hq := by
    obtain hq | ⟨input, rfl⟩ := filled_perform h.sound.linked hq
    · exact h.named q hq
    · exact hst q input rfl

theorem Underway.perform (h : s.Underway) {st : Statement} (hst : st.NamesCell) :
    (s.perform st).sheet.Underway := by
  obtain ⟨live, hlive⟩ := h
  exact hlive.perform hst

/-- What statements keep a script keeps, however far it comes. -/
theorem performAll_induction {P : Sheet → Prop}
    (step : ∀ (s : Sheet) (st : Statement), st.NamesCell → P s → P (s.perform st).sheet) (h : P s)
    {lines : List ScriptLine} (hl : ∀ l ∈ lines, l.statement.NamesCell) :
    P (s.performAll lines).1 := by
  induction lines generalizing s with
  | nil => exact h
  | cons line rest ih =>
    have hfirst := step s line.statement (hl line List.mem_cons_self) h
    unfold Sheet.performAll
    dsimp only
    split
    · exact ih hfirst fun l hl' => hl l (List.mem_cons_of_mem line hl')
    · exact hfirst

/-! ## The end of a script -/

theorem isLive_calculate (s : Sheet) : s.calculate.sheet.isLive = s.isLive := by
  obtain ⟨m, d, h⟩ := s.calculate_rest
  rw [h]
  rfl

/-- Once the script is done, all that waits is calculated. -/
theorem Underway.resume (h : s.Underway) : ∃ t n, s.resume = ⟨t, .ok n⟩ ∧ t.Ready := by
  obtain ⟨live, hlive⟩ := h
  obtain ⟨t, n, he, hresumed⟩ := hlive.resume s.ambient
  obtain ⟨n, hresume⟩ : ∃ n, s.resume = ⟨t, .ok n⟩ := Outcome.eq_of_map_ok he
  have hunpaused : s.unpaused.isLive = true := hlive.tracks.isLive_unpaused
  have hcalculate : s.unpaused.calculate = ⟨t, .ok n⟩ := (if_pos hunpaused).symm.trans hresume
  refine ⟨t, n, hresume, hresumed.sound, ?_, hresumed.clean⟩
  have hlive' := s.unpaused.isLive_calculate
  rwa [hcalculate, hunpaused] at hlive'

theorem Loaded.resume {settings : Settings} (h : s.Loaded settings) :
    s.resume.sheet.Loaded settings := by
  have hgrid : Operation.resume.OnGrid := nofun
  have hkept : s.SameHoldings s.resume.sheet ∧ s.resume.sheet.settings = s.settings := by
    unfold Sheet.resume
    dsimp only
    split
    · have hsame := s.unpaused.sameHoldings_calculate
      exact ⟨⟨hsame.contents, hsame.names, hsame.formats⟩, s.unpaused.settings_calculate⟩
    · exact ⟨⟨fun _ => rfl, rfl, rfl⟩, rfl⟩
  have hsound : s.resume.sheet.Sound := h.sound.apply hgrid
  refine ⟨hsound, hkept.2.trans h.settings, fun p hp => h.named p ?_⟩
  rw [← hkept.1.filled p, hp]

end Sheet

namespace CommandLine

open Sheet

theorem ready_empty (name : String) {settings : Settings} (functions : Registry)
    (ambient : Ambient) (h : settings.autoCalculate = true) :
    (Sheet.empty name settings functions ambient).Ready where
  sound := sound_empty name settings functions ambient
  live := (Bool.and_true _).trans h
  clean := rfl

theorem loaded_empty (name : String) (settings : Settings) (functions : Registry)
    (ambient : Ambient) : (Sheet.empty name settings functions ambient).Loaded settings where
  sound := sound_empty name settings functions ambient
  settings := rfl
  named p hp := by
    have hnone : (Sheet.empty name settings functions ambient).cell? p = none :=
      Matrix.get?_empty ..
    rw [hnone] at hp
    contradiction

/-- A script that is loaded has been carried out, and calculation resumed after it. -/
theorem exists_of_loadScript {files : Files} {path : String} {s t : Sheet}
    (h : (loadScript files path s).result = .ok t) :
    ∃ lines : List ScriptLine, (∀ l ∈ lines, l.statement.NamesCell) ∧
      t = (s.pause.performAll lines).1.resume.sheet := by
  unfold loadScript at h
  dsimp only at h
  split at h
  · cases h
  · split at h
    · cases h
    · next lines hlines =>
      split at h
      · cases h
      · cases h
      · cases h
        exact ⟨lines, ScriptLine.namesCell_of_readAll hlines, rfl⟩

theorem loaded_of_loadScript {files : Files} {path : String} {settings : Settings} {s t : Sheet}
    (hs : s.Loaded settings) (h : (loadScript files path s).result = .ok t) :
    t.Loaded settings := by
  obtain ⟨lines, hlines, rfl⟩ := exists_of_loadScript h
  have hrun := performAll_induction (fun _ _ hst hs => hs.perform hst) hs.pause hlines
  exact hrun.resume

/-- On a sheet that calculates at once it leaves nothing that waits. -/
theorem ready_of_loadScript {files : Files} {path : String} {s t : Sheet} (hs : s.Ready)
    (h : (loadScript files path s).result = .ok t) : t.Ready := by
  obtain ⟨lines, hlines, rfl⟩ := exists_of_loadScript h
  have hrun := performAll_induction (fun _ _ hst hs => hs.perform hst) hs.pause hlines
  obtain ⟨u, n, hresume, hready⟩ := hrun.resume
  rw [hresume]
  exact hready

end CommandLine

end Spreadsheet
