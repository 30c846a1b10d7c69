import Spreadsheet.Proofs.Sheet.Reshaping

/-! What operations keep of cells and names. A plan leaves a cell as it was, edits or copies one, or
makes one from what comes in; so what is asked of every cell lasts when it survives edits and copies
and is true of what comes in. The same goes for names. -/

namespace Spreadsheet

/-- A formula among contents has no fault. -/
def Contents.IsFaultless (c : Contents) : Prop := ∀ f, c.formula? = some f → f.diagnostics = []

/-- Contents as they are copied over the given offsets. -/
def Contents.shifted (rows columns : Int) : Contents → Contents
  | formula f => formula (f.shifted rows columns)
  | value v => value v

/-- A formula that is typed in is read from its text. -/
theorem exists_text_of_ofInput? {patterns : List String} {text : String} {f : Formula}
    (h : Contents.ofInput? patterns text = some (.formula f)) : ∃ text, f = .ofText text := by
  unfold Contents.ofInput? at h
  dsimp only at h
  split at h
  · cases h
  · split at h
    · exact ⟨_, (Contents.formula.inj (Option.some.inj h)).symm⟩
    · split at h
      · cases h
      · cases h

namespace Sheet

/-- What is asked of cells and of what names stand for is true of all that is typed in, and
survives edits and copies. -/
structure Lasting (K : Cell → Prop) (D : Definition → Prop) : Prop where
  entered : ∀ (patterns : List String) (text : String) (c : Contents),
    Contents.ofInput? patterns text = some c → c.IsFaultless → K (.ofContents c)
  copied : ∀ (c : Cell) (rows columns : Int), K c →
    K (.ofContents (c.contents.shifted rows columns))
  edited : ∀ (c : Cell) (e : Edit), K c → K (c.mapFormula fun f => f.edited e)
  moved : ∀ (d : Definition) (e : Edit), D d → D (editedDefinition e d)

/-- What the operation brings in is as it is asked for. -/
def Brings (K : Cell → Prop) (D : Definition → Prop) : Operation → Prop
  | .setValue _ v => K (.ofValue v)
  | .setFormula _ f => f.diagnostics = [] → K (.ofFormula f)
  | .define _ d => D d
  | _ => True

/-- Every cell and every name is as it is asked for. -/
structure Holds (s : Sheet) (K : Cell → Prop) (D : Definition → Prop) : Prop where
  cells : ∀ p c, s.cell? p = some c → K c
  names : ∀ (n : String) (d : Definition), s.names[n]? = some d → D d

/-- A sheet that the plan can lead to before anything is calculated. -/
def Plan.LeadsTo (s : Sheet) : Plan → Sheet → Prop
  | .refuse _, t => t = s
  | .leave t' _, t | .settle t' _, t | .calculate t', t => t = t'
  | .check t' _ back, t => t = t' ∨ t = back

variable {s t : Sheet}

theorem resettle_cases (s : Sheet) :
    s.resettle.sheet = s ∨ s.resettle.sheet = s.calculate.sheet := by
  unfold resettle
  split
  · exact .inr rfl
  · exact .inl rfl

/-- An operation leaves what was planned, or that and then calculated. -/
theorem Plan.Fulfilled.leadsTo {plan : Plan} {o : Outcome Answer} (h : plan.Fulfilled s o) :
    ∃ t g, plan.LeadsTo s t ∧
      (o.sheet = t.withGraph g ∨ o.sheet = (t.withGraph g).calculate.sheet) := by
  cases plan with
  | refuse reason =>
    have ho : o = ⟨s, .error reason⟩ := h
    rw [ho]
    exact ⟨s, s.graph, rfl, .inl rfl⟩
  | leave t answer =>
    obtain ⟨g, -, rfl⟩ := h
    exact ⟨t, g, rfl, .inl rfl⟩
  | settle t answer =>
    obtain ⟨g, -, rfl⟩ := h
    exact ⟨t, g, rfl, (t.withGraph g).resettle_cases⟩
  | calculate t =>
    obtain ⟨g, -, rfl⟩ := h
    exact ⟨t, g, rfl, .inr rfl⟩
  | check t v back =>
    obtain ⟨-, g, path, -, rfl⟩ | ⟨-, g, -, rfl⟩ := h
    · exact ⟨back, g, .inr rfl, .inl rfl⟩
    · exact ⟨t, g, .inl rfl, (t.withGraph g).resettle_cases⟩

/-! ## What only few operations change -/

/-- The sheets have the same functions, time, chance and formats. -/
structure SameRest (s t : Sheet) : Prop where
  functions : t.functions = s.functions
  ambient : t.ambient = s.ambient
  formats : t.formats = s.formats

/-- The sheets differ at most in what is in one cell and in what waits. -/
structure SameElsewhere (s : Sheet) (p : Position) (t : Sheet) : Prop where
  cell : ∀ q, q ≠ p → t.cell? q = s.cell? q
  names : t.names = s.names
  settings : t.settings = s.settings
  sameRest : s.SameRest t

/-- The sheets differ at most in names and in what waits. -/
structure SameButNames (s t : Sheet) : Prop where
  cells : t.cells = s.cells
  settings : t.settings = s.settings
  sameRest : s.SameRest t

section

variable {p : Position}

theorem sameElsewhere_planClear (ht : (s.planClear p).LeadsTo s t) : s.SameElsewhere p t := by
  have hcell (q : Position) (hq : q ≠ p) : (s.cells.remove p).get? q = s.cell? q :=
    Matrix.get?_remove_of_ne _ (Ne.symm hq)
  unfold planClear at ht
  split at ht <;> (obtain rfl : t = _ := ht; exact ⟨hcell, rfl, rfl, rfl, rfl, rfl⟩)

/-- To change what is in a cell changes nothing else, whatever comes of it. -/
theorem sameElsewhere_planContents {c : Option Contents} (ht : (s.planContents p c).LeadsTo s t) :
    s.SameElsewhere p t := by
  have hset (c : Cell) (q : Position) (hq : q ≠ p) : (s.cells.set p c).get? q = s.cell? q :=
    Matrix.get?_set_of_ne _ c (Ne.symm hq)
  cases c with
  | none => exact sameElsewhere_planClear ht
  | some c =>
    cases c with
    | value v =>
      change (s.planValue p v).LeadsTo s t at ht
      unfold planValue at ht
      split at ht
      · exact sameElsewhere_planClear ht
      · obtain rfl : t = _ := ht
        exact ⟨hset _, rfl, rfl, rfl, rfl, rfl⟩
    | formula f =>
      change (s.planFormula p f).LeadsTo s t at ht
      unfold planFormula at ht
      split at ht
      · obtain rfl : t = s := ht
        exact ⟨fun _ _ => rfl, rfl, rfl, rfl, rfl, rfl⟩
      · obtain rfl | rfl : t = _ ∨ t = _ := ht
        · exact ⟨hset _, rfl, rfl, rfl, rfl, rfl⟩
        · exact ⟨fun q _ => s.cells.get?_occupied p q, rfl, rfl, rfl, rfl, rfl⟩

theorem sameButNames_planDefine {name : String} {d : Definition}
    (ht : (s.planDefine name d).LeadsTo s t) : s.SameButNames t := by
  unfold planDefine at ht
  split at ht
  · obtain rfl : t = s := ht
    exact ⟨rfl, rfl, rfl, rfl, rfl⟩
  · obtain rfl | rfl : t = _ ∨ t = _ := ht <;> exact ⟨rfl, rfl, rfl, rfl, rfl⟩

theorem sameButNames_planUndefine {name : String} (ht : (s.planUndefine name).LeadsTo s t) :
    s.SameButNames t := by
  unfold planUndefine at ht
  dsimp only at ht
  split at ht <;> (obtain rfl : t = _ := ht; exact ⟨rfl, rfl, rfl, rfl, rfl⟩)

end

/-! ## Cells and names -/

namespace Holds

variable {K : Cell → Prop} {D : Definition → Prop}

theorem empty (name : String) (settings : Settings) (functions : Registry) (ambient : Ambient) :
    (Sheet.empty name settings functions ambient).Holds K D where
  cells p c hc := by
    have hnone : (Sheet.empty name settings functions ambient).cell? p = none :=
      Matrix.get?_empty ..
    rw [hnone] at hc
    cases hc
  names n d hd := by
    have hnone : (Sheet.empty name settings functions ambient).names[n]? = none :=
      Std.ExtTreeMap.getElem?_empty
    rw [hnone] at hd
    cases hd

theorem congr (h : s.Holds K D) (hcells : t.cells = s.cells) (hnames : t.names = s.names) :
    t.Holds K D where
  cells p c hc := h.cells p c (by rwa [cell?, hcells] at hc)
  names n d hd := h.names n d (by rwa [hnames] at hd)

/-- Cells change, and those that are new are as they are asked for. -/
theorem withCells (h : s.Holds K D) {m : Matrix Cell}
    (hm : ∀ p c, m.get? p = some c → s.cells.get? p = some c ∨ K c) :
    (s.withCells m).Holds K D where
  cells p c hc := (hm p c hc).elim (h.cells p c) id
  names := h.names

theorem set (h : s.Holds K D) (p : Position) {c : Cell} (hc : K c) :
    (s.withCells (s.cells.set p c)).Holds K D := by
  refine h.withCells fun q d hd => ?_
  rw [Matrix.get?_set] at hd
  split at hd
  · cases hd
    exact .inr hc
  · exact .inl hd

theorem remove (h : s.Holds K D) (p : Position) : (s.withCells (s.cells.remove p)).Holds K D := by
  refine h.withCells fun q d hd => .inl ?_
  rw [Matrix.get?_remove] at hd
  split at hd
  · cases hd
  · exact hd

theorem removeRegion (h : s.Holds K D) (r : Region) :
    (s.withCells (s.cells.removeRegion r)).Holds K D := by
  refine h.withCells fun q d hd => .inl ?_
  rw [Matrix.get?_removeRegion] at hd
  split at hd
  · cases hd
  · exact hd

/-- One name changes. -/
theorem withNames (h : s.Holds K D) {ns : Std.ExtTreeMap String Definition} {key : String}
    (hn : ∀ n, n ≠ key → ns[n]? = s.names[n]?) (hkey : ∀ d, ns[key]? = some d → D d) :
    (s.withNames ns).Holds K D where
  cells := h.cells
  names n d hd := by
    by_cases hnk : n = key
    · subst hnk
      exact hkey d hd
    · exact h.names n d ((hn n hnk).symm.trans hd)

theorem reshaped (hlast : Lasting K D) (h : s.Holds K D) (e : Edit) : (s.reshaped e).Holds K D where
  cells q c hc := by
    obtain ⟨p, c', hp, -, rfl⟩ := cell?_reshaped.mp hc
    exact hlast.edited c' e (h.cells p c' hp)
  names n d hd := by
    have hmap : (s.reshaped e).names[n]? = s.names[n]?.map (editedDefinition e) :=
      Std.ExtTreeMap.getElem?_map
    rw [hmap] at hd
    obtain ⟨d', hd', rfl⟩ := Option.map_eq_some_iff.mp hd
    exact hlast.moved d' e (h.names n d' hd')

/-! ## Plans -/

variable {p : Position}

theorem planClear (h : s.Holds K D) (ht : (s.planClear p).LeadsTo s t) : t.Holds K D := by
  unfold Sheet.planClear at ht
  split at ht
  · obtain rfl : t = s.withCells (s.cells.remove p) := ht
    exact h.remove p
  · obtain rfl : t = (s.withCells (s.cells.remove p)).markDirty [.cell p] := ht
    exact (h.remove p).congr rfl rfl

theorem planValue (h : s.Holds K D) {v : Value} (hv : K (.ofValue v))
    (ht : (s.planValue p v).LeadsTo s t) : t.Holds K D := by
  unfold Sheet.planValue at ht
  split at ht
  · exact h.planClear ht
  · obtain rfl : t = (s.withCells (s.cells.set p (.ofValue v))).markDirty [.cell p] := ht
    exact (h.set p hv).congr rfl rfl

theorem planFormula (h : s.Holds K D) {f : Formula} (hf : f.diagnostics = [] → K (.ofFormula f))
    (ht : (s.planFormula p f).LeadsTo s t) : t.Holds K D := by
  unfold Sheet.planFormula at ht
  split at ht
  · obtain rfl : t = s := ht
    exact h
  · next hdiagnostics =>
    obtain rfl | rfl : t = _ ∨ t = _ := ht
    · exact (h.set p (hf hdiagnostics)).congr rfl rfl
    · exact h.withCells fun _ _ hc => .inl ((Matrix.get?_occupied ..).symm.trans hc)

theorem planContents (h : s.Holds K D) {c : Option Contents}
    (hc : ∀ d, c = some d → d.IsFaultless → K (.ofContents d))
    (ht : (s.planContents p c).LeadsTo s t) : t.Holds K D := by
  cases c with
  | none => exact h.planClear ht
  | some c =>
    cases c with
    | value v => exact h.planValue (hc _ rfl nofun) ht
    | formula f =>
      refine h.planFormula (fun hf => hc _ rfl fun g hg => ?_) ht
      cases hg
      exact hf

theorem planDefine (h : s.Holds K D) {name : String} {d : Definition} (hd : D d)
    (ht : (s.planDefine name d).LeadsTo s t) : t.Holds K D := by
  unfold Sheet.planDefine at ht
  split at ht
  · obtain rfl : t = s := ht
    exact h
  · obtain rfl | rfl : t = _ ∨ t = _ := ht
    · refine (h.withNames (insert_getElem? d) fun d' hd' => ?_).congr rfl rfl
      rw [Std.ExtTreeMap.getElem?_insert_self] at hd'
      cases hd'
      exact hd
    · exact h

theorem planUndefine (h : s.Holds K D) {name : String} (ht : (s.planUndefine name).LeadsTo s t) :
    t.Holds K D := by
  unfold Sheet.planUndefine at ht
  dsimp only at ht
  split at ht
  · obtain rfl : t = _ := ht
    refine (h.withNames erase_getElem? fun d hd => ?_).congr rfl rfl
    rw [Std.ExtTreeMap.getElem?_erase_self] at hd
    cases hd
  · obtain rfl : t = s := ht
    exact h

theorem planEdit (hlast : Lasting K D) (h : s.Holds K D) {e : Edit}
    (ht : (s.planEdit e).LeadsTo s t) : t.Holds K D := by
  unfold Sheet.planEdit at ht
  split at ht
  · obtain rfl : t = s := ht
    exact h
  · obtain rfl : t = (s.reshaped e).markFormulas := ht
    exact (h.reshaped hlast e).congr rfl rfl

/-- What lasts is kept by every plan for an operation that brings in nothing else. -/
theorem plan (hlast : Lasting K D) (h : s.Holds K D) {op : Operation} (hop : Brings K D op)
    (ht : (s.plan op).LeadsTo s t) : t.Holds K D := by
  cases op with
  | setValue p v => exact h.planValue hop ht
  | setFormula p f => exact h.planFormula hop ht
  | setInput p text => exact h.planContents (fun c hc => hlast.entered _ text c hc) ht
  | clear p => exact h.planClear ht
  | clearRegion r =>
    obtain rfl : t = _ := ht
    exact (h.removeRegion r).congr rfl rfl
  | copy source target =>
    refine h.planContents (fun c hc _ => ?_) ht
    obtain ⟨cell, hcell, rfl⟩ := Option.map_eq_some_iff.mp hc
    exact hlast.copied cell _ _ (h.cells source cell hcell)
  | define name d => exact h.planDefine hop ht
  | undefine name => exact h.planUndefine ht
  | edit e => exact h.planEdit hlast ht
  | setFormat r f =>
    obtain rfl : t = s.setFormat r f := ht
    cases f <;> exact h.congr rfl rfl
  | pause | resume | setAutoCalculate _ | calculate | calculateAll | setFunctions _ =>
    obtain rfl : t = _ := ht
    exact h.congr rfl rfl

end Holds

end Sheet

end Spreadsheet
