import Spreadsheet.Proofs.Sheet.Reshaping

/-! What an operation brings about before anything is calculated. Whatever it changes it marks as
edited, or else it marks every formula there is. So a formula that no mark leads to is as it was,
and so is all that it comes to read. -/

namespace Spreadsheet

open Relation

/-- A constant is shown as it is. -/
def Cell.IsFaithful (c : Cell) : Prop := ∀ v, c.contents = .value v → c.value = v

theorem Cell.isFaithful_ofValue (v : Value) : (ofValue v).IsFaithful := by
  intro w hw
  cases hw
  rfl

theorem Cell.isFaithful_ofFormula (f : Formula) : (ofFormula f).IsFaithful := nofun

theorem Cell.IsFaithful.mapFormula {c : Cell} (h : c.IsFaithful) (f : Formula → Formula) :
    (c.mapFormula f).IsFaithful := by
  obtain ⟨contents, v⟩ := c
  cases contents with
  | value w => exact h
  | formula g => nofun

/-- The cell that is written. -/
def Operation.target? : Operation → Option Position
  | .setValue p _ | .setFormula p _ | .setInput p _ | .copy _ p => some p
  | _ => none

/-- What is written goes onto the grid. -/
def Operation.OnGrid (op : Operation) : Prop := ∀ p ∈ op.target?, p.OnGrid

instance : DecidablePred Operation.OnGrid := fun op =>
  inferInstanceAs (Decidable (∀ p ∈ op.target?, p.OnGrid))

namespace Sheet

variable {s t : Sheet}

/-- What is stored is on the grid, and constants are shown as they are. -/
def Proper (s : Sheet) : Prop := ∀ p c, s.cell? p = some c → p.OnGrid ∧ c.IsFaithful

theorem Proper.onGrid (h : s.Proper) : s.OnGrid := by
  intro p hp
  obtain ⟨c, hc⟩ := Option.isSome_iff_exists.mp hp
  exact (h p c hc).1

theorem Proper.reshaped (h : s.Proper) (e : Edit) : (s.reshaped e).Proper := by
  intro q c hc
  obtain ⟨p, c', hp, -, rfl⟩ := cell?_reshaped.mp hc
  exact ⟨h.onGrid.reshaped q (by rw [hc]; rfl), (h p c' hp).2.mapFormula _⟩

/-- What a name stands for reads a name. -/
def NameFeeds (s : Sheet) (u v : Vertex) : Prop :=
  s.Feeds u v ∧ u.name?.isSome = true ∧ v.name?.isSome = true

/-- Every formula is marked as edited. -/
def AllMarked (s : Sheet) : Prop := ∀ p, s.isFormula p = true → .cell p ∈ s.dirty

/-- `t` has what `s` has, except where it is marked. -/
structure KeptIn (s t : Sheet) : Prop where
  functions : t.functions = s.functions
  cell : ∀ p, .cell p ∉ t.dirty → t.cell? p = s.cell? p
  name : ∀ n, .name n ∉ t.dirty → t.names[n]? = s.names[n]?
  dirty : ∀ d ∈ s.dirty, d ∈ t.dirty

/-- `s` may become `t` without a calculation, where the names that are `tested` may come to read
other names. -/
structure Staged (s t : Sheet) (tested : Vertex → Prop) : Prop where
  axis : t.cells.axis = s.cells.axis
  proper : s.Proper → t.Proper
  marks : ∀ d ∈ t.dirty, d ∈ s.dirty ∨ d.region? = none
  names : ∀ u v, t.NameFeeds u v → ¬ tested v → s.NameFeeds u v
  kept : t.AllMarked ∨ s.KeptIn t

theorem mem_markDirty {v : Vertex} {vs : List Vertex} :
    v ∈ (s.markDirty vs).dirty ↔ v ∈ vs ∨ v ∈ s.dirty := by
  induction vs generalizing s with
  | nil => simp [markDirty]
  | cons u vs ih =>
    rw [← markDirty_cons, ih]
    change v ∈ vs ∨ v ∈ s.dirty.insert u ↔ _
    rw [Std.ExtTreeSet.mem_insert, Std.compare_eq_iff_eq, List.mem_cons]
    constructor
    · rintro (h | h | h)
      · exact Or.inl (Or.inr h)
      · exact Or.inl (Or.inl h.symm)
      · exact Or.inr h
    · rintro ((h | h) | h)
      · exact Or.inr (Or.inl h.symm)
      · exact Or.inl h
      · exact Or.inr (Or.inr h)

/-! ## Contents and names -/

theorem nameFeeds_of_references {u v : Vertex}
    (h : ∀ n, v = .name n → t.references (.name n) = s.references (.name n))
    (huv : t.NameFeeds u v) : s.NameFeeds u v := by
  obtain ⟨⟨r, hr, hu⟩, hnames⟩ := huv
  cases v with
  | cell p => exact absurd hnames.2 Bool.false_ne_true
  | region g => exact absurd hnames.2 Bool.false_ne_true
  | name n => exact ⟨⟨r, h n rfl ▸ hr, hu⟩, hnames⟩

/-- Cells change where they are marked. -/
theorem staged_withCells {m : Matrix Cell} {vs : List Vertex} (ha : m.axis = s.cells.axis)
    (hvs : ∀ d ∈ vs, d.region? = none) (hoff : ∀ q, .cell q ∉ vs → m.get? q = s.cells.get? q)
    (hnew : ∀ q c, m.get? q = some c → s.cells.get? q = some c ∨ q.OnGrid ∧ c.IsFaithful) :
    s.Staged ((s.withCells m).markDirty vs) fun _ => False where
  axis := ha
  proper h q c hc := (hnew q c hc).elim (h q c) id
  marks d hd := (mem_markDirty.mp hd).symm.imp_right (hvs d)
  names _ _ huv _ := nameFeeds_of_references (t := (s.withCells m).markDirty vs)
    (fun _ _ => rfl) huv
  kept := Or.inr
    { functions := rfl
      cell := fun p hp => hoff p fun h => hp (mem_markDirty.mpr (Or.inl h))
      name := fun _ _ => rfl
      dirty := fun _ hd => mem_markDirty.mpr (Or.inr hd) }

theorem staged_set {p : Position} {c : Cell} (hp : p.OnGrid) (hc : c.IsFaithful) :
    s.Staged ((s.withCells (s.cells.set p c)).markDirty [.cell p]) fun _ => False := by
  refine staged_withCells (Matrix.axis_set ..) (by simp [Vertex.region?]) (fun q hq => ?_) fun q d hd => ?_
  · exact Matrix.get?_set_of_ne _ _ fun e => hq (by simp [e])
  · rw [Matrix.get?_set] at hd
    split at hd
    · rename_i e
      cases hd
      exact Or.inr ⟨e ▸ hp, hc⟩
    · exact Or.inl hd

theorem staged_remove (p : Position) {vs : List Vertex}
    (hvs : vs = [.cell p] ∨ vs = [] ∧ s.cell? p = none) :
    s.Staged ((s.withCells (s.cells.remove p)).markDirty vs) fun _ => False := by
  have hkept {q : Position} {c : Cell} (h : (s.cells.remove p).get? q = some c) :
      s.cells.get? q = some c := by
    rw [Matrix.get?_remove] at h
    split at h
    · contradiction
    · exact h
  refine staged_withCells (Matrix.axis_remove ..) ?_ (fun q hq => ?_) fun q c h => Or.inl (hkept h)
  · rcases hvs with rfl | ⟨rfl, -⟩ <;> simp [Vertex.region?]
  · rw [Matrix.get?_remove]
    split
    · rename_i e
      subst e
      rcases hvs with rfl | ⟨rfl, hnone⟩
      · exact absurd (List.mem_singleton_self _) hq
      · exact hnone.symm
    · rfl

/-- One name changes, and is marked. -/
theorem staged_withNames {ns : Std.ExtTreeMap String Definition} {key : String}
    (hn : ∀ n, n ≠ key → ns[n]? = s.names[n]?) :
    s.Staged ((s.withNames ns).markDirty [.name key]) (· = .name key) where
  axis := rfl
  proper := id
  marks d hd := (mem_markDirty.mp hd).symm.imp_right fun h => by
    rw [List.mem_singleton.mp h]
    rfl
  names u v huv hv := by
    refine nameFeeds_of_references (fun n e => ?_) huv
    refine references_congr nofun fun m hm => ?_
    cases hm
    exact hn n fun h => hv (by rw [e, h])
  kept := Or.inr
    { functions := rfl
      cell := fun _ _ => rfl
      name := fun n h => hn n fun e => h (mem_markDirty.mpr (Or.inl (by simp [e])))
      dirty := fun d hd => mem_markDirty.mpr (Or.inr hd) }

theorem Staged.untested {tested : Vertex → Prop} (h : s.Staged t tested)
    (hn : ∀ u v, tested v → ¬ t.NameFeeds u v) : s.Staged t fun _ => False :=
  { h with names := fun u v huv _ => h.names u v huv fun hv => hn u v hv huv }

/-- What has no part in contents, names and functions may change. -/
theorem staged_of_eq (hc : t.cells = s.cells) (hn : t.names = s.names)
    (hf : t.functions = s.functions) (hd : t.dirty = s.dirty) :
    s.Staged t fun _ => False where
  axis := by rw [hc]
  proper h p c hp := h p c (by unfold cell? at hp ⊢; rwa [← hc])
  marks d hmem := Or.inl (hd ▸ hmem)
  names u v huv _ := nameFeeds_of_references (fun n _ => references_congr nofun fun m _ => by
    rw [hn]) huv
  kept := Or.inr
    { functions := hf
      cell := fun p _ => by unfold cell?; rw [hc]
      name := fun n _ => by rw [hn]
      dirty := fun d hmem => hd ▸ hmem }

/-! ## Every formula -/

theorem allMarked_markFormulas (s : Sheet) : s.markFormulas.AllMarked := by
  intro p hp
  obtain ⟨f, hf⟩ := Option.isSome_iff_exists.mp hp
  exact mem_markDirty.mpr (Or.inl (List.mem_map.mpr ⟨(p, f), mem_formulas.mpr hf, rfl⟩))

theorem mem_markFormulas {d : Vertex} (h : d ∈ s.markFormulas.dirty) :
    d ∈ s.dirty ∨ d.region? = none := by
  rcases mem_markDirty.mp h with h | h
  · obtain ⟨c, -, rfl⟩ := List.mem_map.mp h
    exact Or.inr rfl
  · exact Or.inl h

theorem staged_markFormulas (hc : t.cells = s.cells) (hn : t.names = s.names)
    (hd : t.dirty = s.dirty) : s.Staged t.markFormulas fun _ => False where
  axis := by
    change t.cells.axis = _
    rw [hc]
  proper h p c hp := h p c (by rw [← hp]; exact congrArg (·.get? p) hc.symm)
  marks d hmem := hd ▸ mem_markFormulas hmem
  names u v huv _ := nameFeeds_of_references (fun n _ => references_congr nofun fun m _ => by
    change t.names[m]? = _
    rw [hn]) huv
  kept := Or.inl t.allMarked_markFormulas

theorem staged_reshaped (e : Edit) : s.Staged (s.reshaped e).markFormulas fun _ => False where
  axis := rfl
  proper h := h.reshaped e
  marks d hmem := mem_markFormulas (s := s.reshaped e) hmem
  names u v huv _ := by
    obtain ⟨⟨r, hr, hu⟩, hnames⟩ := huv
    cases v with
    | cell p => exact absurd hnames.2 Bool.false_ne_true
    | region g => exact absurd hnames.2 Bool.false_ne_true
    | name n =>
      have hr' : r ∈ (s.reshaped e).references (.name n) := hr
      rw [references_reshaped_name, List.mem_map] at hr'
      obtain ⟨r', hr', rfl⟩ := hr'
      refine ⟨⟨r', hr', ?_⟩, hnames⟩
      cases hu with
      | name hn => exact .name (Edit.reference_eq_name.mp hn)
      | cell _ _ => exact absurd hnames.1 Bool.false_ne_true
  kept := Or.inl (s.reshaped e).allMarked_markFormulas

/-! ## Plans -/

/-- Every sheet that the plan can lead to comes of `s` without a calculation. -/
def Plan.Staged (s : Sheet) : Plan → Prop
  | .refuse _ => True
  | .leave t _ | .settle t _ | .calculate t => s.Staged t fun _ => False
  | .check t v back => s.Staged t (· = v) ∧ s.Staged back fun _ => False

theorem planClear_staged (s : Sheet) (p : Position) : (s.planClear p).Staged s := by
  unfold planClear
  cases hc : s.cell? p with
  | none => exact staged_remove p (Or.inr ⟨rfl, hc⟩)
  | some c => exact staged_remove p (Or.inl rfl)

theorem planValue_staged (s : Sheet) {p : Position} (hp : p.OnGrid) (v : Value) :
    (s.planValue p v).Staged s := by
  unfold planValue
  split
  · exact s.planClear_staged p
  · exact staged_set hp (Cell.isFaithful_ofValue v)

theorem planFormula_staged (s : Sheet) {p : Position} (hp : p.OnGrid) (f : Formula) :
    (s.planFormula p f).Staged s := by
  unfold planFormula
  split
  · trivial
  · have h := staged_set (s := s) hp (Cell.isFaithful_ofFormula f)
    refine ⟨{ h with names := fun u v huv _ => h.names u v huv id }, ?_⟩
    change s.Staged ((s.withCells (s.cells.occupied p)).markDirty []) _
    exact staged_withCells rfl nofun (fun q _ => Matrix.get?_occupied s.cells p q) fun _ _ hc =>
      Or.inl ((Matrix.get?_occupied ..).symm.trans hc)

theorem planContents_staged (s : Sheet) {p : Position} (hp : p.OnGrid) (c : Option Contents) :
    (s.planContents p c).Staged s := by
  cases c with
  | none => exact s.planClear_staged p
  | some c =>
    cases c with
    | value v => exact s.planValue_staged hp v
    | formula f => exact s.planFormula_staged hp f

theorem planClearRegion_staged (s : Sheet) (r : Region) : (s.plan (.clearRegion r)).Staged s := by
  refine staged_withCells rfl (fun d hd => ?_) (fun q hq => ?_) fun q c hc => Or.inl ?_
  · obtain ⟨c, -, rfl⟩ := List.mem_map.mp hd
    rfl
  · rw [Matrix.get?_removeRegion]
    split
    · rename_i hr
      cases hc : s.cells.get? q with
      | none => rfl
      | some c =>
        exact absurd (List.mem_map.mpr ⟨(q, c), Matrix.mem_linesIn.mpr ⟨hc, hr⟩, rfl⟩) hq
    · rfl
  · rw [Matrix.get?_removeRegion] at hc
    split at hc
    · contradiction
    · exact hc

theorem planDefine_staged (s : Sheet) (name : String) (d : Definition) :
    (s.planDefine name d).Staged s := by
  unfold planDefine
  split
  · trivial
  · exact ⟨staged_withNames (insert_getElem? d), staged_of_eq rfl rfl rfl rfl⟩

theorem planUndefine_staged (s : Sheet) (name : String) : (s.planUndefine name).Staged s := by
  unfold planUndefine
  dsimp only
  split
  · refine (staged_withNames erase_getElem?).untested ?_
    rintro u _ rfl ⟨⟨r, hr, -⟩, -⟩
    have hnone : (s.withNames (s.names.erase (Text.upperAscii name))).references
        (.name (Text.upperAscii name)) = [] := by
      simp [references, withNames]
    exact absurd (hnone ▸ hr : r ∈ []) List.not_mem_nil
  · exact staged_of_eq rfl rfl rfl rfl

theorem planEdit_staged (s : Sheet) (e : Edit) : (s.planEdit e).Staged s := by
  unfold planEdit
  split
  · exact staged_of_eq rfl rfl rfl rfl
  · exact staged_reshaped e

theorem plan_staged (s : Sheet) {op : Operation} (hop : op.OnGrid) : (s.plan op).Staged s := by
  cases op with
  | setValue p v => exact s.planValue_staged (hop p rfl) v
  | setFormula p f => exact s.planFormula_staged (hop p rfl) f
  | setInput p text => exact s.planContents_staged (hop p rfl) _
  | clear p => exact s.planClear_staged p
  | clearRegion r => exact s.planClearRegion_staged r
  | copy source target => exact s.planContents_staged (hop target rfl) _
  | define name d => exact s.planDefine_staged name d
  | undefine name => exact s.planUndefine_staged name
  | edit e => exact s.planEdit_staged e
  | setFormat r f => cases f <;> exact staged_of_eq rfl rfl rfl rfl
  | pause => exact staged_of_eq rfl rfl rfl rfl
  | resume => exact staged_of_eq rfl rfl rfl rfl
  | setAutoCalculate on => exact staged_of_eq rfl rfl rfl rfl
  | calculate => exact staged_of_eq rfl rfl rfl rfl
  | calculateAll => exact staged_markFormulas rfl rfl rfl
  | setFunctions functions => exact staged_markFormulas rfl rfl rfl

end Sheet

end Spreadsheet
