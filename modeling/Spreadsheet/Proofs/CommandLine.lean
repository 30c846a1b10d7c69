import Spreadsheet.Proofs.Script.Loading
import Spreadsheet.Proofs.Sheet.Locality
import Spreadsheet.Proofs.Store.Extent

/-! What the program answers to a formula. It puts the formula into a cell that nothing fills, so no
cell of the script is lost, whatever the settings say and however they are read. Where calculation is
automatic, what is computed there is what the formula gives on the sheet as it was. The cell has a
part in it in two ways only: a formula that comes to read the cell is refused, and the cell is in use,
so a range that goes to the end of the grid may reach further. -/

namespace Spreadsheet

namespace Sheet

variable {s : Sheet} {p : Position} {f : Formula}

/-- Where a formula comes upon a range with the cell in it, it comes to read the cell. -/
theorem comesToRead_of_follows (hp : s.formula? p = none) {r : Reference}
    (hr : Follows s.definition? f.references r) {g : Region} (hg : g ∈ r.regions)
    (hgp : g.contains p = true) : s.ComesToRead f p :=
  (transGen_holding_iff hp).mp (feeds_of_follows_cell (s.formula?_holding p f) hr hg hgp)

end Sheet

namespace CommandLine

open Relation Sheet

variable {s : Sheet} {settings : Settings} {read : Settings.Reader}

/-! ## The free cell -/

theorem onGrid_freeCell (s : Sheet) : (freeCell s).OnGrid := by
  refine ⟨Nat.zero_le _, ?_⟩
  unfold freeCell
  cases s.cells.used? with
  | none => exact Nat.zero_le _
  | some used => exact Nat.min_le_right _ _

theorem contains_of_used? {used : Region} (hu : s.cells.used? = some used) {p : Position}
    (hp : (s.cell? p).isSome = true) : used.contains p = true :=
  ((Matrix.covers_used_iff hu).mp used.covers_self).1 p hp

/-- Nothing is lost in the free cell: it lies behind all that is filled, and where no column is left
behind, no cell in the last one has a name. -/
theorem cell?_freeCell (h : s.Loaded settings) : s.cell? (freeCell s) = none := by
  by_contra hfilled
  have hsome : (s.cell? (freeCell s)).isSome = true := Option.isSome_iff_ne_none.mpr hfilled
  have hnamed : (freeCell s).column ≤ lastColumn := (h.named _ hsome).2
  cases hu : s.cells.used? with
  | none =>
    have hnone := Matrix.used?_eq_none_iff.mp hu (freeCell s)
    unfold Matrix.isFilled at hnone
    exact Bool.false_ne_true (hnone.symm.trans hsome)
  | some used =>
    have hcolumn : (freeCell s).column = min (used.right + 1) endless := by
      unfold freeCell
      rw [hu]
      rfl
    have hin := contains_of_used? hu hsome
    have hlast : lastColumn < endless := by decide
    unfold Region.contains Span.contains at hin
    simp only [Bool.and_eq_true, decide_eq_true_eq] at hin
    unfold Region.right at hcolumn
    omega

/-- Where a formula that does not come to read the free cell comes to read whole columns, they end
where they did, once anything is in use. -/
theorem clipped?_inUse_freeCell (h : s.Loaded settings) {used : Region}
    (hu : s.cells.used? = some used) (hlast : used.right < endless) {f : Formula}
    (hno : ¬ s.ComesToRead f (freeCell s)) {r : Reference}
    (hr : Follows s.definition? f.references r) {g : Region} (hg : g ∈ r.regions)
    (htop : g.top = 0) (hright : g.right ≠ endless) :
    (s.inUse (freeCell s)).cells.clipped? g = s.cells.clipped? g := by
  have hout : g.contains (freeCell s) = false := by
    cases hin : g.contains (freeCell s) with
    | true =>
      exact absurd (comesToRead_of_follows (formula?_eq_none (cell?_freeCell h)) hr hg hin) hno
    | false => rfl
  have hfree : freeCell s = ⟨0, used.right + 1⟩ := by
    unfold freeCell
    rw [hu]
    exact congrArg _ (Nat.min_eq_left hlast)
  have hgrid : used.top ≤ endless := by
    obtain ⟨p, hp⟩ := Matrix.exists_isFilled_of_used? hu
    have hin := contains_of_used? hu hp
    have hrow := (h.named p hp).1
    unfold Region.contains Span.contains at hin
    simp only [Bool.and_eq_true, decide_eq_true_eq] at hin
    exact hin.1.1.trans hrow.le
  rw [hfree] at hout ⊢
  exact Matrix.clipped?_set_next hu hgrid htop hright hout blank

/-! ## The answer -/

/-- The settings that the program starts with. -/
def startingSettings (o : Options) (w : Surroundings) (read : Settings.Reader) : Settings :=
  (Settings.load w.files o.settings w.ownSettings read).1

/-- The sheet on which the program answers, or why it ends before. -/
def started (o : Options) (w : Surroundings) (read : Settings.Reader) : Except String Sheet :=
  let s := Sheet.empty "Sheet1" (startingSettings o w read) Builtin.registry w.ambient
  match o.script with
  | none => .ok s
  | some path => (loadScript w.files path s).result

theorem Report.after_after (first second : List String) (r : Report) :
    .after first (.after second r) = r.after (first ++ second) := by
  unfold Report.after
  rw [List.append_assoc]

theorem perform_of_started {o : Options} {w : Surroundings} (h : started o w read = .ok s) :
    ∃ said, perform o w read = .after said (answer o s) := by
  unfold started startingSettings at h
  unfold perform
  dsimp only at h ⊢
  cases hscript : o.script with
  | none =>
    rw [hscript] at h
    cases h
    exact ⟨_, rfl⟩
  | some path =>
    rw [hscript] at h
    dsimp only at h ⊢
    rw [h]
    exact ⟨_, Report.after_after _ _ _⟩

/-- The sheet is the empty one, or comes of it by a script. -/
theorem started_cases {o : Options} {w : Surroundings} (h : started o w read = .ok s) :
    let empty := Sheet.empty "Sheet1" (startingSettings o w read) Builtin.registry w.ambient
    s = empty ∨ ∃ path, (loadScript w.files path empty).result = .ok s := by
  unfold started at h
  dsimp only at h
  cases hscript : o.script with
  | none =>
    rw [hscript] at h
    cases h
    exact .inl rfl
  | some path =>
    rw [hscript] at h
    exact .inr ⟨path, h⟩

theorem loaded_of_started {o : Options} {w : Surroundings} (h : started o w read = .ok s) :
    s.Loaded (startingSettings o w read) := by
  have hempty := loaded_empty "Sheet1" (startingSettings o w read) Builtin.registry w.ambient
  obtain rfl | ⟨path, hpath⟩ := started_cases h
  · exact hempty
  · exact loaded_of_loadScript hempty hpath

theorem ready_of_started {o : Options} {w : Surroundings} (h : started o w read = .ok s)
    (hauto : (startingSettings o w read).autoCalculate = true) : s.Ready := by
  have hempty := ready_empty "Sheet1" Builtin.registry w.ambient hauto
  obtain rfl | ⟨path, hpath⟩ := started_cases h
  · exact hempty
  · exact ready_of_loadScript hempty hpath

/-- The formula of a command is in its cell, and calculation waits. -/
def staged (s : Sheet) (text : String) : Outcome Unit :=
  s.pause.setFormula (freeCell s) (.ofText text)

/-- The sheet on which the formula of a command has had its turn. -/
def computed (s : Sheet) (text : String) : Sheet := (staged s text).sheet.resume.sheet

theorem result_of_refused {text : String} {back : Sheet} {r : Refusal}
    (h : staged s text = ⟨back, .error r⟩) : (evaluateCommand s text).result =
      .error ("cannot evaluate '" ++ text ++ "': " ++ r.message) := by
  unfold staged at h
  unfold evaluateCommand
  dsimp only
  rw [h]

theorem result_of_resumed {text : String} {t u : Sheet} {n : Nat} (h : staged s text = ⟨t, .ok ()⟩)
    (hresume : t.resume = ⟨u, .ok n⟩) : computed s text = u ∧
      (evaluateCommand s text).result = .ok (u.value (freeCell s)) := by
  refine ⟨by rw [computed, h, hresume], ?_⟩
  unfold staged at h
  unfold evaluateCommand resumeLogged
  dsimp only
  rw [h]
  dsimp only
  rw [hresume]

/-- A formula without a fault is refused if it comes to read the free cell, and all is as it was;
else it is answered with what that cell shows in the end, and all other cells hold what they held.
Where calculation is automatic, the formula has been computed by then. -/
theorem evaluateCommand_spec (h : s.Loaded settings)
    (hready : settings.autoCalculate = true → s.Ready) {text : String}
    (hvalid : (Formula.ofText text).isValid = true) :
    (s.ComesToRead (.ofText text) (freeCell s) ∧
        ((staged s text).sheet.cell? = s.cell? ∧ (staged s text).sheet.names = s.names) ∧
        ∃ path, (evaluateCommand s text).result =
          .error ("cannot evaluate '" ++ text ++ "': " ++ (Refusal.circular path).message)) ∨
      (¬ s.ComesToRead (.ofText text) (freeCell s) ∧
        ((∀ q, q ≠ freeCell s → (computed s text).contents? q = s.contents? q) ∧
          (computed s text).names = s.names) ∧
        (settings.autoCalculate = true →
          s.Tried (freeCell s) (.ofText text) (computed s text)) ∧
        (evaluateCommand s text).result = .ok ((computed s text).value (freeCell s))) := by
  have hdiagnostics : (Formula.ofText text).diagnostics = [] := List.isEmpty_iff.mp hvalid
  have hfree := cell?_freeCell h
  have hrefused {back : Sheet} {path : List Vertex}
      (hset : staged s text = ⟨back, .error (.circular path)⟩) :
      (staged s text).sheet = back ∧ ∃ path, (evaluateCommand s text).result =
        .error ("cannot evaluate '" ++ text ++ "': " ++ (Refusal.circular path).message) :=
    ⟨congrArg Outcome.sheet hset, path, result_of_refused hset⟩
  cases hauto : settings.autoCalculate with
  | true =>
    have hs := hready hauto
    rcases hs.sound.tried hs.live hs.clean hfree (onGrid_freeCell s) hdiagnostics with
      ⟨hreads, back, path, hset, hback⟩ | ⟨hno, t, u, n, hset, hresume, htried⟩
    · obtain ⟨hsheet, hresult⟩ := hrefused hset
      rw [hsheet]
      exact .inl ⟨hreads, hback, hresult⟩
    · obtain ⟨hcomputed, hresult⟩ := result_of_resumed hset hresume
      rw [hcomputed]
      exact .inr ⟨hno, ⟨htried.contents, htried.names⟩, fun _ => htried, hresult⟩
  | false =>
    rcases h.sound.held (h.settings ▸ hauto) hfree (onGrid_freeCell s) hdiagnostics with
      ⟨hreads, back, path, hset, hback⟩ | ⟨hno, t, g, hset, hresume⟩
    · obtain ⟨hsheet, hresult⟩ := hrefused hset
      rw [hsheet]
      exact .inl ⟨hreads, hback, hresult⟩
    · obtain ⟨hcomputed, hresult⟩ := result_of_resumed hset hresume
      rw [hcomputed]
      refine .inr ⟨hno, ⟨fun q hq => ?_, rfl⟩, nofun, hresult⟩
      have hcell : ((s.holding (freeCell s) (.ofText text)).withGraph g).cell? q = s.cell? q :=
        cell?_holding_of_ne hq
      unfold contents?
      rw [hcell]

theorem answer_of_error {o : Options} {text message : String} (ho : o.command = some text)
    (h : (evaluateCommand s text).result = .error message) :
    ∃ said, answer o s = .after said (.failed message) := by
  unfold answer
  rw [ho]
  dsimp only
  rw [h]
  exact ⟨_, rfl⟩

theorem answer_of_ok {o : Options} {text : String} {v : Value} (ho : o.command = some text)
    (h : (evaluateCommand s text).result = .ok v) :
    ∃ said, answer o s =
      .after said { output := [v.layout], exitCode := if v.isError then 1 else 0 } := by
  unfold answer
  rw [ho]
  dsimp only
  rw [h]
  exact ⟨_, rfl⟩

/-- The program puts the formula of a command into a cell of its own, where it overwrites nothing,
whatever the settings are and however they are read. A formula that comes to read the cell is
refused, and all is as it was. Any other is answered with what the cell shows in the end, and all
other cells and the names are what they were. Where calculation is automatic, that is the value that
the formula has on the sheet as it was with the empty cell in use, and it is the value on the sheet
as it was wherever no endless range that the formula comes to read is cut off elsewhere for it. -/
theorem command_answered (o : Options) (w : Surroundings) (read : Settings.Reader) (text : String)
    (s : Sheet) (hcommand : o.command = some text) (hstarted : started o w read = .ok s)
    (hvalid : (Formula.ofText text).isValid = true) :
    let f := Formula.ofText text
    let p := freeCell s
    let report := perform o w read
    s.cell? p = none ∧
      (s.ComesToRead f p →
        report.output = [] ∧ report.exitCode = 1 ∧
          (∃ path, report.messages.getLast? = some ("Error: " ++
            ("cannot evaluate '" ++ text ++ "': " ++ (Refusal.circular path).message))) ∧
          (∀ q, (staged s text).sheet.cell? q = s.cell? q) ∧
          (staged s text).sheet.names = s.names) ∧
      (¬ s.ComesToRead f p →
        (∀ q, q ≠ p → (computed s text).contents? q = s.contents? q) ∧
          (computed s text).names = s.names ∧
          (∃ v : Value, report.output = [v.layout] ∧
            report.exitCode = if v.isError then 1 else 0) ∧
          ((startingSettings o w read).autoCalculate = true →
            Steady s.functions.find? f.expr.calls →
            let v := (s.inUse p).evaluate f
            report.output = [v.layout] ∧ report.exitCode = (if v.isError then 1 else 0) ∧
              ((∀ r, Follows s.definition? f.references r → ∀ g ∈ r.regions,
                  g.isBounded = false →
                  (s.inUse p).cells.clipped? g = s.cells.clipped? g) → v = s.evaluate f))) := by
  intro f p report
  have hloaded := loaded_of_started hstarted
  have hempty : s.cell? p = none := cell?_freeCell hloaded
  obtain ⟨said, hperform⟩ := perform_of_started hstarted
  have hreport : report = .after said (answer o s) := hperform
  rcases evaluateCommand_spec hloaded (ready_of_started hstarted) hvalid with
    ⟨hreads, ⟨hcells, hnames⟩, path, hresult⟩ | ⟨hno, ⟨hcontents, hnames⟩, htried, hresult⟩
  · obtain ⟨said', hanswer⟩ := answer_of_error hcommand hresult
    rw [hreport, hanswer, Report.after_after]
    refine ⟨hempty, fun _ => ⟨rfl, rfl, ⟨path, ?_⟩, congrFun hcells, hnames⟩,
      fun hno => absurd hreads hno⟩
    exact List.getLast?_append_of_ne_nil _ (List.cons_ne_nil _ _)
  · obtain ⟨said', hanswer⟩ := answer_of_ok hcommand hresult
    rw [hreport, hanswer, Report.after_after]
    have hkept : (∀ r, Follows s.definition? f.references r → ∀ g ∈ r.regions,
        g.isBounded = false → (s.inUse p).cells.clipped? g = s.cells.clipped? g) →
          (s.inUse p).evaluate f = s.evaluate f :=
      evaluate_inUse hempty
    have hvalue (hauto : (startingSettings o w read).autoCalculate = true)
        (hsteady : Steady s.functions.find? f.expr.calls) :
        (computed s text).value p = (s.inUse p).evaluate f :=
      (htried hauto).evaluate (hloaded.sound.proper.onGrid.inUse (onGrid_freeCell s)) hsteady
    generalize (computed s text).value (freeCell s) = shown at hvalue ⊢
    refine ⟨hempty, fun hreads => absurd hreads hno, fun _ =>
      ⟨hcontents, hnames, ⟨shown, rfl, rfl⟩, fun hauto hsteady => ?_⟩⟩
    rw [← hvalue hauto hsteady] at hkept ⊢
    exact ⟨rfl, rfl, hkept⟩

theorem exists_of_any {α ε : Type} {q : α → Bool} {r : Except ε α}
    (h : r.toOption.any q = true) : ∃ a, r = .ok a ∧ q a = true := by
  cases r with
  | error e => contradiction
  | ok a => exact ⟨a, rfl, h⟩

/-- `A:A` on the sheet of a script that fills `A1`. The formula goes into `B1`. -/
theorem command_answered_on_column :
    let o : Options := { script := some "script", command := some "A:A" }
    let w : Surroundings := ⟨fun _ => .content "A1: TRUE".toUTF8, none, ⟨.midnight 0, 0⟩⟩
    let read := Settings.ofText?
    ∃ s, started o w read = .ok s ∧ freeCell s = ⟨0, 1⟩ ∧ s.cell? ⟨0, 1⟩ = none ∧
      (perform o w read).output = [(s.evaluate (.ofText "A:A")).layout] ∧
      (s.evaluate (.ofText "A:A")).layout = "TRUE" ∧
      (perform o w read).exitCode = if (s.evaluate (.ofText "A:A")).isError then 1 else 0 := by
  intro o w read
  obtain ⟨s, hs, hfacts⟩ := exists_of_any (r := started o w read) (q := fun s =>
    decide (freeCell s = ⟨0, 1⟩ ∧ s.formulas.isEmpty ∧ s.names.isEmpty ∧
      s.cells.used? = some (.cell ⟨0, 0⟩) ∧ (s.evaluate (.ofText "A:A")).layout = "TRUE"))
    (by decide +kernel)
  obtain ⟨hfree, hformulas, hnames, hused, hlayout⟩ := of_decide_eq_true hfacts
  have hauto : (startingSettings o w read).autoCalculate = true := rfl
  have hloaded := loaded_of_started hs
  have hregions : ∀ r ∈ (Formula.ofText "A:A").references, ∀ g ∈ r.regions,
      g.contains ⟨0, 1⟩ = false ∧ g.top = 0 ∧ g.right ≠ endless := by decide +kernel
  have hundefined : s.names = ∅ := Std.ExtTreeMap.isEmpty_iff.mp hnames
  have hfeeds (u v : Vertex) : ¬ s.Feeds u v := by
    intro h
    have hv := mem_of_feeds h
    rw [List.isEmpty_iff.mp hformulas, hundefined] at hv
    simp at hv
  have hno : ¬ s.ComesToRead (.ofText "A:A") (freeCell s) := by
    rintro ⟨r, hr, u, hread, hu⟩
    rw [hfree] at hu
    cases hu with
    | tail _ h => exact hfeeds _ _ h
    | refl =>
      cases hread with
      | cell hg hp => exact Bool.false_ne_true ((hregions r hr _ hg).1.symm.trans hp)
  have hkept : ∀ r, Follows s.definition? (Formula.ofText "A:A").references r → ∀ g ∈ r.regions,
      g.isBounded = false → (s.inUse (freeCell s)).cells.clipped? g = s.cells.clipped? g := by
    intro r hr g hg _
    have hdirect := hr.mem_of_closed (fun _ h => h) fun n _ r hd => by
      rw [definition?, hundefined] at hd
      simp at hd
    obtain ⟨-, htop, hright⟩ := hregions r hdirect g hg
    exact clipped?_inUse_freeCell hloaded hused (by decide) hno hr hg htop hright
  have hcalls : (Formula.ofText "A:A").expr.calls = [] := by decide +kernel
  obtain ⟨hempty, -, hanswered⟩ := command_answered o w read "A:A" s rfl hs (by decide +kernel)
  obtain ⟨-, -, -, hvalue⟩ := hanswered hno
  obtain ⟨houtput, hexit, hplain⟩ := hvalue hauto fun n hn => by
    rw [hcalls] at hn
    contradiction
  rw [hplain hkept] at houtput hexit
  exact ⟨s, hs, hfree, hfree ▸ hempty, houtput, hlayout, hexit⟩

/-- The text of the value that a formula has on the sheet as the program finds it. -/
def plainly (o : Options) (w : Surroundings) (text : String) : Option String :=
  (started o w Settings.ofText?).toOption.map fun s => (s.evaluate (.ofText text)).layout

/-- The free cell is felt where a formula is about it or about whole rows: `A1` on the empty sheet
is refused, and `2:2` ends one column further once `B1` is in use. And where calculation is manual,
the answer is what the cell shows before it is computed. -/
theorem free_cell_felt :
    let w : Surroundings := ⟨fun path => .content (if path = "script" then "A2: TRUE"
      else "auto_calculate = false").toUTF8, none, ⟨.midnight 0, 0⟩⟩
    let cell : Options := { command := some "A1" }
    let row : Options := { script := some "script", command := some "2:2" }
    let manual : Options := { settings := some "settings", command := some "TRUE" }
    ((perform cell w).output = [] ∧ (perform cell w).exitCode = 1 ∧
        plainly cell w "A1" = some "") ∧
      ((perform row w).output = ["TRUE\t"] ∧ plainly row w "2:2" = some "TRUE") ∧
      (perform manual w).output = [""] ∧ plainly manual w "TRUE" = some "TRUE" := by
  decide +kernel

end CommandLine

end Spreadsheet
