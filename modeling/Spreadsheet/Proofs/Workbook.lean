import Spreadsheet.Proofs.Sheet.Circularity
import Spreadsheet.Workbook

/-! What a workbook does to its sheets one after the other. A sheet that cannot recalculate ends the
walk: those before it and the sheet itself are done, and those behind it are as they were, still
paused and with the functions they had. -/

namespace Spreadsheet

namespace Sheet

theorem foldl_evaluateCell_rest (s : Sheet) (ps : List Position) :
    ∃ m, ps.foldl evaluateCell s = s.withCells m := by
  induction ps generalizing s with
  | nil => exact ⟨s.cells, rfl⟩
  | cons p ps ih =>
    obtain ⟨m, hm⟩ := ih (s.evaluateCell p)
    exact ⟨m, hm⟩

/-- A calculation has a part in the cells and in what waits, and in nothing else. -/
theorem calculate_rest (s : Sheet) :
    ∃ m d, s.calculate.sheet = { s with cells := m, dirty := d } := by
  unfold calculate
  split
  · exact ⟨s.cells, s.dirty, rfl⟩
  · split
    · exact ⟨s.cells, s.dirty, rfl⟩
    · next order _ =>
      obtain ⟨m, hm⟩ :=
        foldl_evaluateCell_rest { s with dirty := ∅ } (order.filterMap Vertex.cell?)
      exact ⟨m, ∅, hm⟩

/-- To resume is to take back one pause, and to calculate once none is left. -/
theorem resume_spec (s : Sheet) :
    let lowered : Sheet := { s with pauseDepth := s.pauseDepth - 1 }
    s.resume.sheet.pauseDepth = s.pauseDepth - 1 ∧
      s.resume = if s.settings.autoCalculate = true ∧ s.pauseDepth ≤ 1 then lowered.calculate
        else ⟨lowered, .ok 0⟩ := by
  intro lowered
  have hlive : lowered.isLive = true ↔ s.settings.autoCalculate = true ∧ s.pauseDepth ≤ 1 := by
    rw [isLive, Bool.and_eq_true, beq_iff_eq, Nat.sub_eq_zero_iff_le]
  have hresume : s.resume = if s.settings.autoCalculate = true ∧ s.pauseDepth ≤ 1 then
      lowered.calculate else ⟨lowered, .ok 0⟩ := if_congr hlive rfl rfl
  refine ⟨?_, hresume⟩
  rw [hresume]
  split
  · obtain ⟨m, d, hm⟩ := lowered.calculate_rest
    rw [hm]
  · rfl

theorem setFunctions_functions (s : Sheet) (functions : Registry) :
    (s.setFunctions functions).sheet.functions = functions := by
  obtain ⟨m, d, hm⟩ := ({ s with functions } : Sheet).markFormulas.calculate_rest
  show ({ s with functions } : Sheet).markFormulas.calculate.sheet.functions = functions
  rw [hm]
  rfl

variable {s : Sheet}

/-- A sheet on which nothing feeds itself calculates whenever it is told to. -/
theorem Reachable.calculates (hs : s.Reachable) (ha : s.IsAcyclic) (functions : Registry) :
    (∃ n, s.resume.answer = .ok n) ∧ ∃ n, (s.setFunctions functions).answer = .ok n := by
  have hcounts (op : Operation) (o : Outcome Nat) (ho : s.apply op = o.map .count)
      (hop : op.OnGrid) (hinstall : op.isInstalling = false) (he : ∀ e, op ≠ .edit e) :
      ∃ n, o.answer = .ok n := by
    cases hr : o.answer with
    | ok n => exact ⟨n, rfl⟩
    | error r =>
      have hrefused : (s.apply op).answer = .error r := by
        rw [ho]
        exact congrArg (Except.map Answer.count) hr
      have hnot := ((hs.sound.apply_of_isAcyclic ha hop fun e h => absurd h (he e)).2 r hrefused).1
      rw [hinstall] at hnot
      contradiction
  exact ⟨hcounts .resume _ rfl (by decide) rfl fun _ => nofun,
    hcounts (.setFunctions functions) _ rfl (fun _ hp => nomatch hp) rfl fun _ => nofun⟩

end Sheet

namespace Workbook

variable {f : Sheet → Outcome Nat} {sheets : List Sheet}

def Refuses (f : Sheet → Outcome Nat) (s : Sheet) : Prop := ∃ e, (f s).answer = .error e

theorem answer_of_not_refuses {s : Sheet} (h : ¬ Refuses f s) : ∃ n, (f s).answer = .ok n := by
  cases ha : (f s).answer with
  | error e => exact absurd ⟨e, ha⟩ h
  | ok n => exact ⟨n, rfl⟩

/-- Where doing `f` to one sheet after the other ends, and with which answer: behind the last sheet
if none refuses, else at the first that does. Sheets behind that one are as they were. -/
inductive Walked (f : Sheet → Outcome Nat) : List Sheet → Except Refusal Nat → List Sheet → Prop
  | through {sheets : List Sheet} (h : ∀ s ∈ sheets, ¬ Refuses f s) (n : Nat) :
    Walked f sheets (.ok n) (sheets.map fun s => (f s).sheet)
  | refused {before : List Sheet} {s : Sheet} {e : Refusal} (h : ∀ t ∈ before, ¬ Refuses f t)
    (hs : (f s).answer = .error e) (behind : List Sheet) :
    Walked f (before ++ s :: behind) (.error e)
      (before.map (fun t => (f t).sheet) ++ (f s).sheet :: behind)

theorem walked_each (f : Sheet → Outcome Nat) (sheets : List Sheet) :
    Walked f sheets (each f sheets).1 (each f sheets).2 := by
  induction sheets with
  | nil => exact .through (fun s hs => absurd hs List.not_mem_nil) 0
  | cons s rest ih =>
    by_cases hs : Refuses f s
    · obtain ⟨e, he⟩ := hs
      simp only [each, he]
      exact .refused (fun t ht => absurd ht List.not_mem_nil) he rest
    · obtain ⟨n, hn⟩ := answer_of_not_refuses hs
      simp only [each, hn]
      generalize each f rest = walk at ih
      obtain ⟨answer, sheets⟩ := walk
      cases ih with
      | through h m => exact .through (List.forall_mem_cons.mpr ⟨hs, h⟩) (n + m)
      | refused h he behind => exact .refused (List.forall_mem_cons.mpr ⟨hs, h⟩) he behind

/-! ## Sheets behind a refusal -/

/-- Whatever lies behind a sheet that refuses has the property. -/
def HeldBack (f : Sheet → Outcome Nat) (P : Sheet → Prop) (sheets : List Sheet) : Prop :=
  sheets.Pairwise fun s t => Refuses f s → P t

variable {P : Sheet → Prop}

theorem heldBack_of_none_refuses (h : ∀ s ∈ sheets, ¬ Refuses f s) : HeldBack f P sheets :=
  List.pairwise_of_forall_mem_list fun s hs _ _ hr => absurd hr (h s hs)

theorem heldBack_iff {before behind : List Sheet} {s : Sheet} (h : ∀ t ∈ before, ¬ Refuses f t)
    (hs : Refuses f s) : HeldBack f P (before ++ s :: behind) ↔ ∀ t ∈ behind, P t := by
  unfold HeldBack
  rw [List.pairwise_append, List.pairwise_cons]
  constructor
  · rintro ⟨-, ⟨hbehind, -⟩, -⟩
    exact fun t ht => hbehind t ht hs
  · intro hp
    exact ⟨heldBack_of_none_refuses h, ⟨fun t ht _ => hp t ht,
      List.pairwise_of_forall_mem_list fun _ _ t ht _ => hp t ht⟩,
      fun t ht _ _ hr => absurd hr (h t ht)⟩

/-- All sheets are as if each had been reached exactly if those behind a refusal would have stayed
as they were. -/
theorem Walked.eq_map_iff {answer : Except Refusal Nat} {after : List Sheet}
    (h : Walked f sheets answer after) :
    after = sheets.map (fun s => (f s).sheet) ↔ HeldBack f (fun t => (f t).sheet = t) sheets := by
  cases h with
  | through h n => exact iff_of_true rfl (heldBack_of_none_refuses h)
  | @refused before s e h hs behind =>
    have hself : behind = behind.map (fun t => (f t).sheet) ↔ ∀ t ∈ behind, (f t).sheet = t := by
      rw [eq_comm, ← List.map_inj_left, List.map_id']
    rw [heldBack_iff h ⟨e, hs⟩, ← hself, List.map_append, List.map_cons, List.append_right_inj,
      List.cons_inj_right]

/-- What `f` brings about is found on all sheets exactly if those behind a refusal had it anyway. -/
theorem Walked.forall_iff {answer : Except Refusal Nat} {after : List Sheet}
    (h : Walked f sheets answer after) (hP : ∀ s, P (f s).sheet) :
    (∀ t ∈ after, P t) ↔ HeldBack f P sheets := by
  cases h with
  | through h n =>
    refine iff_of_true (fun t ht => ?_) (heldBack_of_none_refuses h)
    obtain ⟨s, -, rfl⟩ := List.mem_map.mp ht
    exact hP s
  | @refused before s e h hs behind =>
    rw [heldBack_iff h ⟨e, hs⟩, List.forall_mem_append, List.forall_mem_cons, List.forall_mem_map]
    exact ⟨fun hall => hall.2.2, fun hall => ⟨fun t _ => hP t, hP s, hall⟩⟩

/-- Both walks end behind the last sheet or at the first one that cannot recalculate, which is
reported. To resume takes one pause back on each sheet that is reached and calculates there if none
is left, and to register a function makes it known there. On all sheets they do so exactly if those
behind a failure have no part in it, so certainly if nothing feeds itself anywhere. -/
theorem walks_end_at_failure (w : Workbook) :
    (Walked (·.resume) w.sheets w.resume.1 w.resume.2.sheets ∧
      (∀ s : Sheet, s.resume.sheet.pauseDepth = s.pauseDepth - 1 ∧
        s.resume = if s.settings.autoCalculate = true ∧ s.pauseDepth ≤ 1 then
          ({ s with pauseDepth := s.pauseDepth - 1 } : Sheet).calculate
        else ⟨{ s with pauseDepth := s.pauseDepth - 1 }, .ok 0⟩) ∧
      (w.resume.2.sheets = w.sheets.map (·.resume.sheet) ↔
        HeldBack (·.resume) (fun t => t.resume.sheet = t) w.sheets)) ∧
    (∀ name f functions, w.functions.register name f = .ok functions →
      (w.register name f).2.functions = functions ∧
      (∃ answer, (w.register name f).1 = answer.map (fun _ => ()) ∧
        Walked (·.setFunctions functions) w.sheets answer (w.register name f).2.sheets) ∧
      ((∀ t ∈ (w.register name f).2.sheets, t.functions = functions) ↔
        HeldBack (·.setFunctions functions) (fun t => t.functions = functions) w.sheets)) ∧
    ((∀ s ∈ w.sheets, s.Reachable ∧ s.IsAcyclic) →
      (w.resume.2.sheets = w.sheets.map (·.resume.sheet)) ∧
      ∀ name f functions, w.functions.register name f = .ok functions →
        ∀ t ∈ (w.register name f).2.sheets, t.functions = functions) := by
  have hresume : Walked (·.resume) w.sheets w.resume.1 w.resume.2.sheets := walked_each _ _
  have hregister (name : String) (f : Function) (functions : Registry)
      (h : w.functions.register name f = .ok functions) :
      (w.register name f).2.functions = functions ∧
      ∃ answer, (w.register name f).1 = answer.map (fun _ => ()) ∧
        Walked (·.setFunctions functions) w.sheets answer (w.register name f).2.sheets := by
    unfold register
    rw [h]
    exact ⟨rfl, _, rfl, walked_each _ _⟩
  refine ⟨⟨hresume, Sheet.resume_spec, hresume.eq_map_iff⟩, fun name f functions h => ?_,
    fun hs => ⟨?_, fun name f functions h => ?_⟩⟩
  · obtain ⟨hfunctions, answer, hanswer, hwalk⟩ := hregister name f functions h
    exact ⟨hfunctions, ⟨answer, hanswer, hwalk⟩,
      hwalk.forall_iff fun s => s.setFunctions_functions functions⟩
  · refine hresume.eq_map_iff.mpr (heldBack_of_none_refuses fun s hmem ⟨e, he⟩ => ?_)
    obtain ⟨⟨n, hn⟩, -⟩ := (hs s hmem).1.calculates (hs s hmem).2 s.functions
    cases hn.symm.trans he
  · obtain ⟨-, answer, -, hwalk⟩ := hregister name f functions h
    refine (hwalk.forall_iff fun s => s.setFunctions_functions functions).mpr
      (heldBack_of_none_refuses fun s hmem ⟨e, he⟩ => ?_)
    obtain ⟨-, n, hn⟩ := (hs s hmem).1.calculates (hs s hmem).2 functions
    cases hn.symm.trans he

/-- `=G()` and `=A1` wait on two paused sheets. Once they are resumed both have been computed, and
once `G` is registered both sheets know it and show what it gives. -/
theorem walks_reach_waiting_sheets :
    let now : Ambient := ⟨.midnight 0, 0⟩
    let g : Function := ⟨[], false, .steady fun _ => .logical true⟩
    let waiting (name : String) := (Sheet.empty name default .empty now).after
      [⟨now, .pause⟩, ⟨now, .setFormula ⟨0, 0⟩ (.ofExpr (.call "G" []))⟩,
        ⟨now, .setFormula ⟨0, 1⟩ (.ofExpr (.reference (.ofPosition ⟨0, 0⟩)))⟩]
    let w : Workbook := ⟨[waiting "a", waiting "b"], .empty, default, now⟩
    (∀ s ∈ w.sheets, s.Reachable ∧ s.IsAcyclic) ∧
      w.resume.2.sheets = w.sheets.map (·.resume.sheet) ∧ w.resume.1 = .ok 4 ∧
      w.resume.2.sheets.map (·.value ⟨0, 1⟩) = [.error .unknownName, .error .unknownName] ∧
      ∃ functions, w.functions.register "G" g = .ok functions ∧
        (∀ t ∈ (w.register "G" g).2.sheets, t.functions = functions) ∧
        (w.register "G" g).2.sheets.map (·.value ⟨0, 1⟩) = [.logical true, .logical true] := by
  intro now g waiting w
  have hcarried (name : String) : (waiting name).CarriedAlong :=
    (((Sheet.CarriedAlong.settled (.empty name default .empty now) rfl).call
      ⟨now, .pause⟩ (by decide) nofun).call
      ⟨now, .setFormula ⟨0, 0⟩ (.ofExpr (.call "G" []))⟩ (by decide) nofun).call
      ⟨now, .setFormula ⟨0, 1⟩ (.ofExpr (.reference (.ofPosition ⟨0, 0⟩)))⟩ (by decide) nofun
  have hsheets : ∀ s ∈ w.sheets, s.Reachable ∧ s.IsAcyclic := by
    intro s hs
    obtain ⟨name, rfl⟩ : ∃ name, waiting name = s := by
      obtain rfl | hs := List.mem_cons.mp hs
      · exact ⟨_, rfl⟩
      · exact ⟨_, (List.mem_singleton.mp hs).symm⟩
    exact ⟨(hcarried name).reachable, (hcarried name).isAcyclic⟩
  obtain ⟨functions, hfunctions⟩ : ∃ functions, w.functions.register "G" g = .ok functions :=
    ⟨_, rfl⟩
  obtain ⟨hresume, hregister⟩ := (walks_end_at_failure w).2.2 hsheets
  refine ⟨hsheets, hresume, by decide +kernel, ?_, functions, hfunctions,
    hregister "G" g functions hfunctions, ?_⟩
  all_goals
    subst w waiting g now
    rfl

/-- A sheet that comes to read itself while it is paused, as `=$B$2` does in `B1` when a row comes
in above, keeps the one behind it paused and without the new function. -/
theorem circular_sheet_holds_back :
    let now : Ambient := ⟨.midnight 0, 0⟩
    let f : Formula := .ofExpr (.reference (.ofPlace (.cell ⟨1, true⟩ ⟨1, true⟩ true)))
    let g : Function := ⟨[], false, .steady fun _ => .logical true⟩
    let a := (Sheet.empty "a" default .empty now).after
      [⟨now, .pause⟩, ⟨now, .setFormula ⟨0, 1⟩ f⟩, ⟨now, .edit (.insert .row 0 1)⟩]
    let b := (Sheet.empty "b" default .empty now).after
      [⟨now, .pause⟩, ⟨now, .setFormula ⟨0, 0⟩ (.ofExpr (.literal (.logical true)))⟩]
    let w : Workbook := ⟨[a, b], .empty, default, now⟩
    w.resume.1 = .error (.circular [.cell ⟨1, 1⟩, .cell ⟨1, 1⟩]) ∧
      w.resume.2.sheets.map (·.pauseDepth) = [0, 1] ∧
      (w.register "G" g).1 = .error (.circular [.cell ⟨1, 1⟩, .cell ⟨1, 1⟩]) ∧
      (w.register "G" g).2.functions.contains "G" = true ∧
      (w.register "G" g).2.sheets.map (·.functions.contains "G") = [true, false] := by
  intro now f g a b w
  exact ⟨by decide +kernel, by decide +kernel, by decide +kernel, by decide +kernel,
    by decide +kernel⟩

end Workbook

end Spreadsheet
