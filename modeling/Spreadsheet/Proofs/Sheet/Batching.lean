import Spreadsheet.Proofs.Sheet.Completeness
import Spreadsheet.Proofs.Sheet.Tracking

/-! Edits that are calculated one by one, and the same edits while calculation is paused. Whatever
no mark of the waiting sheet leads to shows the same on both sheets at every step. So what can
differ in the end is the value of a formula that an edit leads to, and it does where the live sheet
shows something else than the formula would give if it were computed now: no dependency says which
lines are in use. -/

namespace Spreadsheet.Sheet

open Relation

variable {s t x y : Sheet}

/-- A calculation leaves the sheets side by side. -/
theorem Tracks.computed (h : x.Tracks y) (hc : x.Computed t) : t.Tracks y where
  input := hc.sameInput.symm.trans h.input
  settings := by
    rw [hc.cells_eq]
    exact h.settings
  vacant := h.vacant.trans hc.revalued.vacant
  live := by
    rw [hc.cells_eq]
    exact h.live
  depth := by
    rw [hc.cells_eq]
    exact h.depth
  dirty d hd := by
    rw [hc.dirty] at hd
    exact absurd hd Std.ExtTreeSet.not_mem_empty

/-- `s` is live with nothing to calculate, and `t` waits beside it. -/
structure InStep (s t : Sheet) : Prop where
  tracks : s.Tracks t
  left : s.Sound
  right : t.Sound
  clean : s.dirty = ∅
  agree : ∀ p, ¬ t.IsAffected (.cell p) → t.value p = s.value p

namespace InStep

theorem withAmbient (h : s.InStep t) (a b : Ambient) : (s.withAmbient a).InStep (t.withAmbient b) :=
  ⟨h.tracks.withAmbient a b, h.left.withAmbient a, h.right.withAmbient b, h.clean, h.agree⟩

/-- Before anything is calculated, the sheets agree on what no mark leads to. -/
theorem agree_staged {X Y : Vertex → Prop} (h : s.InStep t) (hx : s.Staged x X) (hy : t.Staged y Y)
    (hxy : x.Tracks y) {p : Position} (hp : ¬ y.IsAffected (.cell p)) : y.value p = x.value p := by
  have hpx : ¬ x.IsAffected (.cell p) := fun hx => hp (hxy.isAffected hx)
  cases hf : y.formula? p with
  | none =>
    have hfx : x.formula? p = none := by rw [← hxy.input.formula? p, hf]
    rw [(hx.proper h.left.proper).value_eq hfx, (hy.proper h.right.proper).value_eq hf,
      hxy.input.contents]
  | some f =>
    have hformula : y.isFormula p = true := isFormula_of_formula? hf
    have hformulax : x.isFormula p = true :=
      isFormula_of_formula? ((hxy.input.formula? p).symm.trans hf)
    have hkept := hy.kept.resolve_left fun hall => hp (isAffected_of_mem (hall p hformula))
    have hkeptx := hx.kept.resolve_left fun hall => hpx (isAffected_of_mem (hall p hformulax))
    have hcell := hkept.cell p fun hd => hp (isAffected_of_mem hd)
    have hcellx := hkeptx.cell p fun hd => hpx (isAffected_of_mem hd)
    calc y.value p = t.value p := value_congr hcell
      _ = s.value p := h.agree p fun ha => hp (hkept.isAffected ha)
      _ = x.value p := (value_congr hcellx).symm

/-- Both sheets are left as they come to be. -/
theorem leave (h : s.InStep t) (hx : s.Staged x fun _ => False) (hy : t.Staged y fun _ => False)
    (hxy : x.Tracks y) (hd : x.dirty = s.dirty) {g g' : Graph Vertex} (hl : (x.withGraph g).Linked)
    (hl' : (y.withGraph g').Linked) : (x.withGraph g).InStep (y.withGraph g') where
  tracks := hxy.withGraph g g'
  left := (hx.withGraph g).sound h.left hl fun _ => False.elim
  right := (hy.withGraph g').sound h.right hl' fun _ => False.elim
  clean := hd.trans h.clean
  agree _ hp := h.agree_staged hx hy hxy hp

theorem isAcyclic (h : s.InStep t) : s.IsAcyclic := h.left.isAcyclic h.clean

/-- The live sheet calculates, and the other one waits. -/
theorem settle {X Y : Vertex → Prop} (h : s.InStep t) (hx : s.Staged x X) (hy : t.Staged y Y)
    (hxy : x.Tracks y) (hacyclic : x.IsAcyclic) {g g' : Graph Vertex}
    (hl : (x.withGraph g).Linked) (hl' : (y.withGraph g').Linked) :
    ∃ t' n, (x.withGraph g).resettle = ⟨t', .ok n⟩ ∧
      (y.withGraph g').resettle = ⟨y.withGraph g', .ok 0⟩ ∧ t'.InStep (y.withGraph g') := by
  have hsound := (hx.withGraph g).sound h.left hl fun v _ => hacyclic v
  have hsound' := (hy.withGraph g').sound h.right hl' fun v _ hv =>
    hacyclic v (by rw [← hxy.input.feeds]; exact hv)
  obtain ⟨t', n, he, hc, -⟩ := hsound.calculate_of_isAcyclic hacyclic
  have hlive : (x.withGraph g).isLive = true := hxy.live
  have hwaits : (y.withGraph g').isLive = false := (hxy.withGraph g g').isLive_eq_false
  refine ⟨t', n, ?_, ?_, (hxy.withGraph g g').computed hc, hc.sound hsound fun v _ => hacyclic v,
    hsound', hc.dirty, fun p hp => ?_⟩
  · unfold resettle
    rw [if_pos hlive]
    exact he
  · unfold resettle
    rw [hwaits]
    rfl
  · have hcell := hc.unaffected p fun ha => hp (hxy.isAffected ha)
    have hagree : y.value p = x.value p := h.agree_staged hx hy hxy hp
    exact hagree.trans (value_congr hcell).symm

/-- An edit is accepted or refused by both sheets, and leaves them side by side. -/
theorem apply (h : s.InStep t) {op : Operation} (hop : op.isInput = true) (hgrid : op.OnGrid) :
    (s.apply op).sheet.InStep (t.apply op).sheet ∧
      SameAnswer (s.apply op).answer (t.apply op).answer := by
  have hplans := h.tracks.plan hop
  have hs := s.plan_staged hgrid
  have ht := t.plan_staged hgrid
  have hnarrow := s.plan_narrows (Operation.isReshaping_of_isInput hop)
  have hdone := apply_fulfilled h.left.linked op
  have hdone' := apply_fulfilled h.right.linked op
  generalize s.plan op = plan at hplans hs hnarrow hdone
  generalize t.plan op = plan' at hplans ht hdone'
  cases hplans with
  | refuse reason =>
    have he : s.apply op = ⟨s, .error reason⟩ := hdone
    have he' : t.apply op = ⟨t, .error reason⟩ := hdone'
    rw [he, he']
    exact ⟨h, .error reason⟩
  | leave hxy hd answer =>
    obtain ⟨g, hl, he⟩ := hdone
    obtain ⟨g', hl', he'⟩ := hdone'
    rw [he, he']
    exact ⟨h.leave hs ht hxy hd hl hl', .ok answer⟩
  | settle hxy answer =>
    obtain ⟨g, hl, he⟩ := hdone
    obtain ⟨g', hl', he'⟩ := hdone'
    obtain ⟨u, n, hr, hr', hu⟩ := h.settle hs ht hxy
      (h.isAcyclic.of_narrows hnarrow fun _ => False.elim) hl hl'
    rw [he, he', hr, hr']
    exact ⟨hu, .ok answer⟩
  | check hxy v hback hd =>
    have hfeeds := hxy.input.feeds
    rcases hdone with ⟨hc, g, path, hl, he⟩ | ⟨hno, g, hl, he⟩
    · rcases hdone' with ⟨-, g', path', hl', he'⟩ | ⟨hno', -⟩
      · rw [he, he']
        exact ⟨h.leave hs.2 ht.2 hback hd hl hl', .circular path path'⟩
      · rw [hfeeds] at hno'
        exact absurd hc hno'
    · rcases hdone' with ⟨hc', -⟩ | ⟨-, g', hl', he'⟩
      · rw [hfeeds] at hc'
        exact absurd hc' hno
      · obtain ⟨u, n, hr, hr', hu⟩ := h.settle hs.1 ht.1 hxy
          (h.isAcyclic.of_narrows hnarrow.1 fun _ e => e ▸ hno) hl hl'
        rw [he, he', hr, hr']
        exact ⟨hu, .ok .done⟩

/-- The same edits, whatever time and chance they meet, leave the sheets side by side. -/
theorem run (h : s.InStep t) {cs ds : List Call}
    (hcd : List.Forall₂ (fun c d => d.operation = c.operation) cs ds)
    (hc : ∀ c ∈ cs, c.operation.isInput = true ∧ c.operation.OnGrid) :
    (s.after cs).InStep (t.after ds) ∧ List.Forall₂ SameAnswer (s.answers cs) (t.answers ds) := by
  induction hcd generalizing s t with
  | nil => exact ⟨h, .nil⟩
  | @cons c d cs ds hop _ ih =>
    obtain ⟨hinput, hgrid⟩ := hc c List.mem_cons_self
    obtain ⟨hstep, hanswer⟩ := (h.withAmbient c.ambient d.ambient).apply hinput hgrid
    have hcall : t.call d = (t.withAmbient d.ambient).apply c.operation := by
      unfold call
      rw [hop]
    rw [← hcall] at hstep hanswer
    obtain ⟨hrun, hanswers⟩ := ih hstep fun e he => hc e (List.mem_cons_of_mem c he)
    exact ⟨hrun, .cons hanswer hanswers⟩

theorem pause (hs : s.Sound) (hl : s.isLive = true) (hd : s.dirty = ∅) (a : Ambient) :
    s.InStep (s.call ⟨a, .pause⟩).sheet where
  tracks := ⟨⟨rfl, rfl, rfl, fun _ => rfl⟩, rfl, rfl, hl, rfl, fun _ hd => hd⟩
  left := hs
  right := (hs.withAmbient a).apply fun _ hp => nomatch hp
  clean := hd
  agree _ _ := rfl

end InStep

/-! ## The end of the pause -/

/-- `u` is what `t` becomes that waited beside `s`. -/
structure Resumed (s t u : Sheet) : Prop where
  sound : u.Sound
  clean : u.dirty = ∅
  input : s.SameInput u
  extent : s.cells.SameExtent u.cells
  unaffected : ∀ p, ¬ t.IsAffected (.cell p) → u.value p = s.value p
  computed : ∀ p f, t.IsAffected (.cell p) → s.formula? p = some f →
    u.value p = f.evaluate (u.sourceFor p)

def unpaused (s : Sheet) : Sheet := { s with pauseDepth := s.pauseDepth - 1 }

theorem resume_eq (s : Sheet) : s.resume = s.unpaused.resettle := rfl

theorem Tracks.isLive_unpaused (h : s.Tracks t) : t.unpaused.isLive = true := by
  have hl := h.live
  unfold isLive at hl ⊢
  change (t.settings.autoCalculate && (t.pauseDepth - 1 == 0)) = true
  rw [h.settings, h.depth]
  exact hl

theorem InStep.resume (h : s.InStep t) (b : Ambient) :
    ∃ u n, t.call ⟨b, .resume⟩ = ⟨u, .ok (.count n)⟩ ∧ s.Resumed t u := by
  have hsound : (t.withAmbient b).unpaused.Sound := by
    have hstaged : t.Staged (t.withAmbient b).unpaused fun _ => False :=
      staged_of_eq rfl rfl rfl rfl
    exact hstaged.sound h.right h.right.linked fun _ => False.elim
  have hacyclic : (t.withAmbient b).unpaused.IsAcyclic := by
    intro v hv
    refine h.isAcyclic v ?_
    rw [← h.tracks.input.feeds]
    exact hv
  have hlive : (t.withAmbient b).unpaused.isLive = true := h.tracks.isLive_unpaused
  obtain ⟨u, n, he, hc, -⟩ := hsound.calculate_of_isAcyclic hacyclic
  have hinput : t.SameInput u :=
    ⟨hc.sameInput.axis, hc.sameInput.functions, hc.sameInput.names, hc.sameInput.contents⟩
  refine ⟨u, n, ?_, hc.sound hsound fun v _ => hacyclic v, hc.dirty, h.tracks.input.trans hinput,
    h.tracks.sameExtent.trans hc.revalued.sameExtent, fun p hp => ?_, fun p f hp hf => ?_⟩
  · change (t.withAmbient b).resume.map _ = _
    rw [resume_eq, resettle, if_pos hlive, he]
    rfl
  · exact (value_congr (hc.unaffected p hp)).trans (h.agree p hp)
  · exact hc.computed p f hp ((h.tracks.input.formula? p).trans hf)

namespace Resumed

variable {u : Sheet}

/-- With the same lines in use, a formula has the same value on both sheets once they agree on what
feeds its cell. -/
theorem evaluate_eq (h : s.Resumed t u) (hs : s.Sound) (hsteady : s.IsSteady) {p : Position}
    {f : Formula} (hf : s.formula? p = some f)
    (hv : ∀ q, TransGen s.Feeds (.cell q) (.cell p) → u.value q = s.value q) :
    f.evaluate (u.sourceFor p) = s.evaluate f :=
  ((h.input.alike hf hv).evaluate_eq h.extent hs.proper.onGrid h.sound.proper.onGrid
    (Or.inr (hsteady p f hf))).symm

/-- The sheets show the same exactly where the live one shows, for every formula that an edit leads
to, what the formula would give. -/
theorem value_eq_iff (h : s.Resumed t u) (hs : s.Sound) (hacyclic : s.IsAcyclic)
    (hsteady : s.IsSteady) :
    (∀ p, u.value p = s.value p) ↔
      ∀ p f, t.IsAffected (.cell p) → s.formula? p = some f → s.value p = s.evaluate f := by
  constructor
  · intro hv p f hp hf
    rw [← hv p, h.computed p f hp hf]
    exact h.evaluate_eq hs hsteady hf fun q _ => hv q
  · intro hcurrent
    exact h.input.value_eq_of_computed h.extent hs.proper h.sound.proper hacyclic
      (fun p f hf => Or.inr (hsteady p f hf)) h.unaffected
      fun p f hp hf => ⟨hcurrent p f hp hf, h.computed p f hp hf⟩

end Resumed

/-- Edits that are calculated one by one and edits that wait are accepted alike and leave the same
contents and names. They leave the same values wherever formulas see nothing but values; and
everywhere exactly if the live sheet shows, for every formula that an edit leads to, what the
formula would give. -/
theorem batching_agrees_iff (hs : s.Reachable) (hl : s.isLive = true) (hd : s.dirty = ∅)
    {cs ds : List Call} (hcd : List.Forall₂ (fun c d => d.operation = c.operation) cs ds)
    (hc : ∀ c ∈ cs, c.operation.isInput = true ∧ c.operation.OnGrid) (a b : Ambient) :
    let live := s.after cs
    let paused := (s.call ⟨a, .pause⟩).sheet
    let waiting := paused.after ds
    let resumed := waiting.call ⟨b, .resume⟩
    List.Forall₂ SameAnswer (s.answers cs) (paused.answers ds) ∧
      (∃ n, resumed.answer = .ok (.count n)) ∧
      (∀ p, resumed.sheet.contents? p = live.contents? p) ∧ resumed.sheet.names = live.names ∧
      (∀ p, live.IsDetermined p → resumed.sheet.value p = live.value p) ∧
      (live.IsSteady →
        ((∀ p, resumed.sheet.value p = live.value p) ↔
          ∀ p f, waiting.IsAffected (.cell p) → live.formula? p = some f →
            live.value p = live.evaluate f)) := by
  intro live paused waiting resumed
  obtain ⟨hin, hanswers⟩ := (InStep.pause hs.sound hl hd a).run hcd hc
  obtain ⟨u, n, he, hu⟩ := hin.resume b
  have hresumed : resumed = ⟨u, .ok (.count n)⟩ := he
  rw [hresumed]
  refine ⟨hanswers, ⟨n, rfl⟩, hu.input.contents, hu.input.names, fun p hp => ?_, fun hsteady => ?_⟩
  · exact hu.input.value_eq hin.left hu.sound hin.clean hu.clean hp
  · exact hu.value_eq_iff hin.left hin.isAcyclic hsteady

/-- `=A1` in `B1` shows the same, whether or not it waits for `A1` to be filled. -/
theorem batching_agrees_on_one_reader :
    let cs : List Call := [⟨⟨.midnight 0, 0⟩,
        .setFormula ⟨0, 1⟩ (.ofExpr (.reference (.ofPosition ⟨0, 0⟩)))⟩,
      ⟨⟨.midnight 0, 0⟩, .setValue ⟨0, 0⟩ (.logical true)⟩]
    let s := Sheet.empty "Sheet1" default .empty ⟨.midnight 0, 0⟩
    let waiting := (s.call ⟨⟨.midnight 0, 0⟩, .pause⟩).sheet.after cs
    (waiting.call ⟨⟨.midnight 0, 0⟩, .resume⟩).sheet.value ⟨0, 1⟩ = (s.after cs).value ⟨0, 1⟩ := by
  intro cs s waiting
  have hagree := batching_agrees_iff (s := s) (Reachable.empty _ _ _ _) rfl rfl
    (show List.Forall₂ (fun c d => d.operation = c.operation) cs cs from
      List.forall₂_same.mpr fun _ _ => rfl) (by decide) ⟨.midnight 0, 0⟩ ⟨.midnight 0, 0⟩
  have hbounded : (s.after cs).IsBounded := ⟨by decide +kernel, by decide +kernel⟩
  have hsteady : (s.after cs).functions.IsSteady := by decide +kernel
  exact hagree.2.2.2.2.1 ⟨0, 1⟩ fun _ _ _ hf => hbounded.determines hsteady hf

/-- `=A:A` in `B1` goes down to the last line in use. Filling `C3` brings two more lines into use,
and nothing says that `B1` depends on that. -/
theorem batching_disagrees_on_column :
    ∃ (s : Sheet) (cs : List Call) (a : Ambient), s.Reachable ∧ s.isLive = true ∧ s.dirty = ∅ ∧
      (∀ c ∈ cs, c.operation.isInput = true ∧ c.operation.OnGrid) ∧ (s.after cs).IsSteady ∧
      ∃ p, (((s.call ⟨a, .pause⟩).sheet.after cs).call ⟨a, .resume⟩).sheet.value p ≠
        (s.after cs).value p := by
  refine ⟨.empty "Sheet1" default .empty ⟨.midnight 0, 0⟩,
    [⟨⟨.midnight 0, 0⟩, .setValue ⟨0, 0⟩ (.logical true)⟩,
      ⟨⟨.midnight 0, 0⟩, .setFormula ⟨0, 1⟩ (.ofExpr (.reference (.single
        (.between (.column ⟨0, false⟩ true) (.column ⟨0, false⟩ true)))))⟩,
      ⟨⟨.midnight 0, 0⟩, .setValue ⟨2, 2⟩ (.logical true)⟩], ⟨.midnight 0, 0⟩,
    .empty _ _ _ _, rfl, rfl, by decide, fun _ f _ => ?_, ⟨0, 1⟩, fun h => ?_⟩
  · exact Registry.IsSteady.steady (by decide +kernel) _
  · have hbatch : Value.array [[.logical true], [.empty], [.empty]] = .array [[.logical true]] := h
    cases hbatch

end Spreadsheet.Sheet
