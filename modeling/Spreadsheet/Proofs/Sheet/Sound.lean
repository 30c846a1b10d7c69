import Spreadsheet.Proofs.Sheet.Calculation
import Spreadsheet.Proofs.Sheet.Staging

/-! What is true of every sheet that operations lead to: the graph is in step with the contents,
whatever no mark leads to is current, and a mark leads to every cycle. An operation changes nothing
behind the marks it sets, and a calculation makes current all that they lead to. -/

namespace Spreadsheet

open Relation

/-- An operation, with the time and chance that volatile functions see from then on. -/
structure Call where
  ambient : Ambient
  operation : Operation

/-- Where two relations differ only about some elements, so do the ways along them. -/
theorem transGen_or_through {α : Type} {R S : α → α → Prop} {D : α → Prop}
    (h : ∀ a b, R a b → ¬ D a → ¬ D b → S a b) {a b : α} (hab : TransGen R a b) :
    TransGen S a b ∨ ∃ w, D w ∧ ReflTransGen R a w ∧ ReflTransGen R w b := by
  induction hab with
  | @single b hab =>
    by_cases ha : D a
    · exact Or.inr ⟨a, ha, .refl, .single hab⟩
    by_cases hb : D b
    · exact Or.inr ⟨b, hb, .single hab, .refl⟩
    exact Or.inl (.single (h a b hab ha hb))
  | @tail b c hb hbc ih =>
    rcases ih with hS | ⟨w, hw, haw, hwb⟩
    · by_cases hDb : D b
      · exact Or.inr ⟨b, hDb, hb.to_reflTransGen, .single hbc⟩
      by_cases hDc : D c
      · exact Or.inr ⟨c, hDc, hb.to_reflTransGen.tail hbc, .refl⟩
      exact Or.inl (hS.tail (h b c hbc hDb hDc))
    · exact Or.inr ⟨w, hw, haw, hwb.tail hbc⟩

/-- What lies on a cycle is on a cycle from there. -/
theorem transGen_rotate {α : Type} {R : α → α → Prop} {a b : α} (h : TransGen R a a)
    (hab : ReflTransGen R a b) (hba : ReflTransGen R b a) : TransGen R b b :=
  TransGen.trans_right hba (h.trans_left hab)

namespace Sheet

def call (s : Sheet) (c : Call) : Outcome Answer := (s.withAmbient c.ambient).apply c.operation

/-- The sheet after one call after the other, whatever they answer. -/
def after (s : Sheet) : List Call → Sheet
  | [] => s
  | c :: cs => (s.call c).sheet.after cs

/-- What each call answers. -/
def answers (s : Sheet) : List Call → List (Except Refusal Answer)
  | [] => []
  | c :: cs => (s.call c).answer :: (s.call c).sheet.answers cs

/-- The sheets that an empty one can become. -/
inductive Reachable : Sheet → Prop
  | empty (name : String) (settings : Settings) (functions : Registry) (ambient : Ambient) :
    Reachable (.empty name settings functions ambient)
  | call {s : Sheet} (hs : Reachable s) (c : Call) (hc : c.operation.OnGrid) :
    Reachable (s.call c).sheet

variable {s t : Sheet}

theorem Reachable.after (hs : s.Reachable) {cs : List Call} (hc : ∀ c ∈ cs, c.operation.OnGrid) :
    (s.after cs).Reachable := by
  induction cs generalizing s with
  | nil => exact hs
  | cons c cs ih =>
    exact ih (hs.call c (hc c List.mem_cons_self)) fun d hd => hc d (List.mem_cons_of_mem c hd)

/-- The formula in the cell, if there is one that sees nothing but values, has the value that is
shown. -/
def IsCurrent (s : Sheet) (p : Position) : Prop :=
  ∀ f, s.formula? p = some f → s.Determines f → s.value p = f.evaluate (s.sourceFor p)

structure Sound (s : Sheet) : Prop where
  linked : s.Linked
  proper : s.Proper
  dirty : ∀ d ∈ s.dirty, d.region? = none
  current : ∀ p, ¬ s.IsAffected (.cell p) → s.IsCurrent p
  cycles : ∀ v, TransGen s.Feeds v v → s.IsAffected v
  names : ∀ v, ¬ TransGen s.NameFeeds v v

theorem IsCurrent.transfer {p : Position} (h : s.IsCurrent p) (hcell : t.cell? p = s.cell? p)
    (halike : ∀ f, t.formula? p = some f → t.Alike s f.references)
    (haxis : t.cells.axis = s.cells.axis) (hs : s.OnGrid) (ht : t.OnGrid) : t.IsCurrent p := by
  intro f hf hdet
  have hfs : s.formula? p = some f := (formula?_congr hcell).symm.trans hf
  calc t.value p = s.value p := value_congr hcell
    _ = f.evaluate (s.sourceFor p) := h f hfs (hdet.of_alike (halike f hf))
    _ = f.evaluate (t.sourceFor p) := (hdet.evaluate_eq (halike f hf) haxis ht hs _ _).symm

/-! ## Without a calculation -/

theorem isAffected_of_mem {v : Vertex} (h : v ∈ s.dirty) : s.IsAffected v := ⟨v, h, .refl⟩

theorem IsAffected.feeds {u v : Vertex} (hu : s.IsAffected u) (h : ReflTransGen s.Feeds u v) :
    s.IsAffected v := by
  obtain ⟨d, hd, hdu⟩ := hu
  exact ⟨d, hd, hdu.trans h⟩

namespace KeptIn

theorem references (h : s.KeptIn t) {v : Vertex} (hv : v ∉ t.dirty) :
    t.references v = s.references v := by
  exact references_congr (fun p e => formula?_congr (h.cell p (e ▸ hv)))
    fun n e => h.name n (e ▸ hv)

theorem feeds_iff (h : s.KeptIn t) {u v : Vertex} (hv : v ∉ t.dirty) :
    t.Feeds u v ↔ s.Feeds u v := by
  unfold Feeds
  rw [h.references hv]

theorem isAffected (h : s.KeptIn t) {v : Vertex} (hv : s.IsAffected v) : t.IsAffected v := by
  obtain ⟨d, hd, hdv⟩ := hv
  induction hdv with
  | refl => exact isAffected_of_mem (h.dirty d hd)
  | @tail b c _ hbc ih =>
    by_cases hc : c ∈ t.dirty
    · exact isAffected_of_mem hc
    · exact ih.feeds (.single ((h.feeds_iff hc).mpr hbc))

/-- A formula that no mark leads to comes to read what it read before. -/
theorem alike (h : s.KeptIn t) {p : Position} (hp : ¬ t.IsAffected (.cell p)) {f : Formula}
    (hf : t.formula? p = some f) : t.Alike s f.references where
  functions := h.functions
  names _ hn := h.name _ fun hd =>
    hp ((isAffected_of_mem hd).feeds (feeds_of_follows_name hf hn).to_reflTransGen)
  value _ hr _ hg q hq := value_congr (h.cell q fun hd =>
    hp ((isAffected_of_mem hd).feeds (feeds_of_follows_cell hf hr hg hq).to_reflTransGen))

end KeptIn

/-- Names alone make no cycle, so a cycle leads through a formula. -/
theorem exists_cell_of_cycle (hn : ∀ v, ¬ TransGen s.NameFeeds v v) {v : Vertex}
    (hv : TransGen s.Feeds v v) : ∃ p, s.isFormula p = true ∧ ReflTransGen s.Feeds (.cell p) v := by
  have hname {u : Vertex} (hr : u.region? = none) (hc : ¬ ∃ p, u = .cell p) :
      u.name?.isSome = true := by
    cases u with
    | cell p => exact absurd ⟨p, rfl⟩ hc
    | region g => contradiction
    | name n => rfl
  rcases transGen_or_through (S := s.NameFeeds) (D := fun u => ∃ p, u = .cell p)
    (fun a b hab ha hb => ⟨hab, hname hab.source_region? ha, hname hab.target_region? hb⟩) hv with
    h | ⟨_, ⟨p, rfl⟩, hvp, hpv⟩
  · exact absurd h (hn v)
  · exact ⟨p, active_of_transGen (transGen_rotate hv hvp hpv) p rfl, hpv⟩

theorem Staged.withGraph {tested : Vertex → Prop} (h : s.Staged t tested) (g : Graph Vertex) :
    s.Staged (t.withGraph g) tested where
  axis := h.axis
  proper := h.proper
  marks := h.marks
  names := h.names
  kept := h.kept.imp_right fun k => ⟨k.functions, k.cell, k.name, k.dirty⟩

/-- What is reached without a calculation is sound, once the names that were tested do not feed
themselves. -/
theorem Staged.sound {tested : Vertex → Prop} (h : s.Staged t tested) (hs : s.Sound)
    (hl : t.Linked) (ht : ∀ v, tested v → ¬ TransGen t.Feeds v v) : t.Sound := by
  have hnames (v : Vertex) : ¬ TransGen t.NameFeeds v v := by
    intro hv
    rcases transGen_or_through (S := s.NameFeeds) (D := tested)
      (fun a b hab _ hb => h.names a b hab hb) hv with hv' | ⟨w, hw, hvw, hwv⟩
    · exact hs.names v hv'
    · exact ht w hw (TransGen.mono (fun _ _ hab => hab.1) w w (transGen_rotate hv hvw hwv))
  refine ⟨hl, h.proper hs.proper, fun d hd => (h.marks d hd).elim (hs.dirty d) id,
    fun p hp => ?_, fun v hv => ?_, hnames⟩
  · rcases h.kept with hall | hkept
    · intro f hf
      exact absurd (isAffected_of_mem (hall p (isFormula_of_formula? hf))) hp
    · exact (hs.current p fun ha => hp (hkept.isAffected ha)).transfer
        (hkept.cell p fun hd => hp (isAffected_of_mem hd)) (fun f hf => hkept.alike hp hf) h.axis
        hs.proper.onGrid (h.proper hs.proper).onGrid
  · rcases h.kept with hall | hkept
    · obtain ⟨p, hp, hpv⟩ := exists_cell_of_cycle hnames hv
      exact (isAffected_of_mem (hall p hp)).feeds hpv
    · rcases transGen_or_through (S := s.Feeds) (D := (· ∈ t.dirty))
        (fun a b hab _ hb => (hkept.feeds_iff hb).mp hab) hv with hv' | ⟨w, hw, -, hwv⟩
      · exact hkept.isAffected (hs.cycles v hv')
      · exact (isAffected_of_mem hw).feeds hwv

theorem Sound.withAmbient (hs : s.Sound) (a : Ambient) : (s.withAmbient a).Sound := by
  have h : s.Staged (s.withAmbient a) fun _ => False := staged_of_eq rfl rfl rfl rfl
  exact h.sound hs hs.linked fun _ => False.elim

/-! ## With a calculation -/

namespace Computed

theorem cells_eq (h : s.Computed t) : t = ({ s with dirty := ∅ } : Sheet).withCells t.cells :=
  h.revalued.rest

theorem dirty (h : s.Computed t) : t.dirty = ∅ := by
  rw [h.cells_eq]
  rfl

theorem not_isAffected (h : s.Computed t) (v : Vertex) : ¬ t.IsAffected v := by
  intro he
  obtain ⟨d, hd, -⟩ := he
  rw [h.dirty] at hd
  exact Std.ExtTreeSet.not_mem_empty hd

theorem feeds (h : s.Computed t) : t.Feeds = s.Feeds := h.revalued.feeds

theorem proper (h : s.Computed t) (hs : s.Proper) : t.Proper := by
  intro p c hc
  rcases h.revalued.cell p with he | ⟨f, v, w, hv, hw⟩
  · exact hs p c (he.symm.trans hc)
  · rw [hc] at hw
    cases hw
    exact ⟨(hs p _ hv).1, nofun⟩

/-- A formula that nothing edited leads to comes to read what it read before. -/
theorem alike (h : s.Computed t) {p : Position} (hp : ¬ s.IsAffected (.cell p)) {f : Formula}
    (hf : t.formula? p = some f) : t.Alike s f.references where
  functions := h.revalued.functions
  names _ _ := by rw [h.revalued.definition?]; rfl
  value r hr g hg q hq := by
    have hqp := feeds_of_follows_cell hf hr hg hq
    rw [h.feeds] at hqp
    exact value_congr (h.unaffected q fun hd => hp (hd.feeds hqp.to_reflTransGen))

/-- Every formula of the sheet is current, whether it was computed or not. -/
theorem isCurrent (h : s.Computed t) (hs : s.Sound) (p : Position) : t.IsCurrent p := by
  by_cases hp : s.IsAffected (.cell p)
  · intro f hf _
    exact h.computed p f hp ((h.revalued.formula? p).symm.trans hf)
  · exact (hs.current p hp).transfer (h.unaffected p hp) (fun f hf => h.alike hp hf)
      h.revalued.axis.symm hs.proper.onGrid (h.proper hs.proper).onGrid

theorem sound (h : s.Computed t) (hs : s.Sound)
    (hno : ∀ v, s.IsAffected v → ¬ TransGen s.Feeds v v) : t.Sound where
  linked := h.revalued.linked hs.linked
  proper := h.proper hs.proper
  dirty d hd := absurd ⟨d, hd, .refl⟩ (h.not_isAffected d)
  current p _ := h.isCurrent hs p
  cycles v hv := by
    rw [h.feeds] at hv
    exact absurd hv (hno v (hs.cycles v hv))
  names v hv := by
    refine hs.names v (TransGen.mono (fun a b hab => ?_) v v hv)
    unfold NameFeeds at hab
    rwa [h.feeds] at hab

end Computed

theorem Sound.calculate (hs : s.Sound) : s.calculate.sheet.Sound := by
  rcases calculate_spec hs.linked hs.dirty hs.proper.onGrid with
    ⟨-, path, he⟩ | ⟨hno, t, n, he, h, -⟩
  · rw [he]
    exact hs
  · rw [he]
    exact h.sound hs hno

theorem Sound.resettle (hs : s.Sound) : s.resettle.sheet.Sound := by
  unfold Sheet.resettle
  split
  · exact hs.calculate
  · exact hs

/-! ## Operations -/

/-- An operation on `s` with the outcome `o` did what was planned, on a sheet that is sound. -/
def Plan.Done (s : Sheet) : Plan → Outcome Answer → Prop
  | .refuse reason, o => o = ⟨s, .error reason⟩
  | .leave t answer, o => ∃ g, (t.withGraph g).Sound ∧ o = ⟨t.withGraph g, .ok answer⟩
  | .settle t answer, o => ∃ g, (t.withGraph g).Sound ∧ o = (t.withGraph g).resettle.map answer
  | .calculate t, o => ∃ g, (t.withGraph g).Sound ∧ o = (t.withGraph g).calculate.map .count
  | .check t v back, o =>
    (TransGen t.Feeds v v ∧
        ∃ g path, (back.withGraph g).Sound ∧ o = ⟨back.withGraph g, .error (.circular path)⟩) ∨
      (¬ TransGen t.Feeds v v ∧
        ∃ g, (t.withGraph g).Sound ∧ o = (t.withGraph g).resettle.map fun _ => .done)

theorem Sound.done (hs : s.Sound) {op : Operation} (hop : op.OnGrid) :
    (s.plan op).Done s (s.apply op) := by
  have hplan := s.plan_staged hop
  have hdone := apply_fulfilled hs.linked op
  have hsound {t : Sheet} {g : Graph Vertex} (ht : s.Staged t fun _ => False)
      (hl : (t.withGraph g).Linked) : (t.withGraph g).Sound :=
    (ht.withGraph g).sound hs hl fun _ => False.elim
  generalize s.plan op = plan at hplan hdone
  cases plan with
  | refuse reason => exact hdone
  | leave t answer =>
    obtain ⟨g, hl, he⟩ := hdone
    exact ⟨g, hsound hplan hl, he⟩
  | settle t answer =>
    obtain ⟨g, hl, he⟩ := hdone
    exact ⟨g, hsound hplan hl, he⟩
  | calculate t =>
    obtain ⟨g, hl, he⟩ := hdone
    exact ⟨g, hsound hplan hl, he⟩
  | check t v back =>
    obtain ⟨ht, hback⟩ := hplan
    rcases hdone with ⟨hc, g, path, hl, he⟩ | ⟨hno, g, hl, he⟩
    · exact Or.inl ⟨hc, g, path, hsound hback hl, he⟩
    · exact Or.inr ⟨hno, g, (ht.withGraph g).sound hs hl fun _ e => e ▸ hno, he⟩

theorem Sound.apply (hs : s.Sound) {op : Operation} (hop : op.OnGrid) :
    (s.apply op).sheet.Sound := by
  have hdone := hs.done hop
  generalize s.plan op = plan at hdone
  cases plan with
  | refuse reason =>
    have he : s.apply op = ⟨s, .error reason⟩ := hdone
    rw [he]
    exact hs
  | leave t answer =>
    obtain ⟨g, hsound, he⟩ := hdone
    rw [he]
    exact hsound
  | settle t answer =>
    obtain ⟨g, hsound, he⟩ := hdone
    rw [he]
    exact hsound.resettle
  | calculate t =>
    obtain ⟨g, hsound, he⟩ := hdone
    rw [he]
    exact hsound.calculate
  | check t v back =>
    rcases hdone with ⟨-, g, path, hsound, he⟩ | ⟨-, g, hsound, he⟩
    · rw [he]
      exact hsound
    · rw [he]
      exact hsound.resettle

theorem sound_empty (name : String) (settings : Settings) (functions : Registry)
    (ambient : Ambient) : (Sheet.empty name settings functions ambient).Sound := by
  have hcell (p : Position) : (Sheet.empty name settings functions ambient).cell? p = none :=
    Matrix.get?_empty ..
  have hreferences (v : Vertex) :
      (Sheet.empty name settings functions ambient).references v = [] := by
    cases v with
    | region g => rfl
    | cell p => simp only [references, formula?, hcell]; rfl
    | name n => simp [references, Sheet.empty]
  have hfeeds (u v : Vertex) : ¬ (Sheet.empty name settings functions ambient).Feeds u v := by
    intro he
    obtain ⟨r, hr, -⟩ := he
    rw [hreferences] at hr
    exact List.not_mem_nil hr
  refine ⟨Graph.Wired.mono (wired_empty _) (fun v _ => ⟨fun h => h (hreferences v), rfl⟩)
    fun p _ => ⟨?_, rfl⟩, fun p c hc => ?_, fun d hd => ?_, fun p _ f hf => ?_, fun v hv => ?_,
    fun v hv => ?_⟩
  · exact id
  · rw [hcell] at hc
    contradiction
  · exact absurd hd Std.ExtTreeSet.not_mem_empty
  · rw [formula?_eq_none (hcell p)] at hf
    contradiction
  · obtain ⟨w, -, hw⟩ := TransGen.tail'_iff.mp hv
    exact absurd hw (hfeeds w v)
  · obtain ⟨w, -, hw⟩ := TransGen.tail'_iff.mp hv
    exact absurd hw.1 (hfeeds w v)

/-- Whatever operations lead to is sound. -/
theorem Reachable.sound (h : s.Reachable) : s.Sound := by
  induction h with
  | empty name settings functions ambient => exact sound_empty name settings functions ambient
  | call _ c hc ih => exact (ih.withAmbient c.ambient).apply hc

end Sheet

end Spreadsheet
