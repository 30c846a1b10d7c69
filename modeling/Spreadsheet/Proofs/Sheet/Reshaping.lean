import Spreadsheet.Proofs.Sheet.Operation

/-! What is where after an edit of the grid. Every cell that is left was somewhere before, every
formula and every name refers to the edited forms of what it referred to, and a reference is a name
afterwards only if it was that name before. -/

namespace Spreadsheet

theorem Target.stretched_ne_name (a b : Place) (axis : Axis) (m n : Mark) (s : Span)
    (name : String) : stretched a b axis m n s ≠ .name name := nofun

theorem Target.afterInsert_eq_name {axis : Axis} {start count : Nat} {t : Target} {n : String} :
    t.afterInsert axis start count = .name n ↔ t = .name n := by
  cases t with
  | place p => simp [afterInsert]
  | name m => rfl
  | range a b =>
    unfold afterInsert
    dsimp only
    split
    · exact iff_of_false (stretched_ne_name _ _ _ _ _ _ _) nofun
    · rfl

theorem Target.afterRemove_eq_name {axis : Axis} {start count : Nat} {t : Target} {n : String} :
    t.afterRemove axis start count = .name n ↔ t = .name n := by
  cases t with
  | place p => simp [afterRemove]
  | name m => rfl
  | range a b =>
    unfold afterRemove
    dsimp only
    split
    · split
      · exact iff_of_false (stretched_ne_name _ _ _ _ _ _ _) nofun
      · exact iff_of_false nofun nofun
    · rfl

theorem Reference.map_eq_name {f : Target → Target} {n : String}
    (hf : ∀ t, f t = .name n ↔ t = .name n) {r : Reference} :
    r.map f = .single (.name n) ↔ r = .single (.name n) := by
  cases r with
  | single t => simp [Reference.map, hf]
  | union parts => simp [Reference.map]

/-- An edit leaves names alone, and makes none. -/
theorem Edit.reference_eq_name {e : Edit} {r : Reference} {n : String} :
    e.reference r = .single (.name n) ↔ r = .single (.name n) := by
  cases e with
  | insert axis start count =>
    unfold reference Reference.afterInsert
    dsimp only
    split
    · rfl
    · exact Reference.map_eq_name fun t => Target.afterInsert_eq_name
  | remove axis start count =>
    unfold reference Reference.afterRemove
    dsimp only
    split
    · rfl
    · exact Reference.map_eq_name fun t => Target.afterRemove_eq_name

namespace Expr

mutual
/-- A change of references that leaves names alone changes each of them in its place. -/
theorem references_mapReferences {f : Reference → Reference} (hf : ∀ n, f (.ofName n) = .ofName n) :
    ∀ e : Expr, (e.mapReferences f).references = e.references.map f
  | literal _ => rfl
  | name n => by simp [mapReferences, references, hf]
  | reference _ => rfl
  | sign _ e => references_mapReferences hf e
  | binary _ left right => by
    simp only [mapReferences, references, List.map_append, references_mapReferences hf left,
      references_mapReferences hf right]
  | paren e => references_mapReferences hf e
  | call _ args => referencesAll_mapReferencesAll hf args
  | array _ => rfl
  | missing => rfl
theorem referencesAll_mapReferencesAll {f : Reference → Reference}
    (hf : ∀ n, f (.ofName n) = .ofName n) :
    ∀ es : List Expr, referencesAll (mapReferencesAll f es) = (referencesAll es).map f
  | [] => rfl
  | e :: rest => by
    simp only [mapReferencesAll, referencesAll, List.map_append, references_mapReferences hf e,
      referencesAll_mapReferencesAll hf rest]
end

end Expr

theorem Formula.references_edited (f : Formula) (e : Edit) :
    (f.edited e).references = f.references.map e.reference :=
  Expr.references_mapReferences (fun _ => Edit.reference_eq_name.mpr rfl) f.expr

namespace Sheet

variable {s : Sheet} {e : Edit} {q : Position}

theorem cell?_reshaped {c : Cell} : (s.reshaped e).cell? q = some c ↔
    ∃ p c', s.cell? p = some c' ∧ e.position? p = some q ∧
      c = c'.mapFormula fun f => f.edited e := by
  unfold cell? reshaped
  dsimp only
  rw [Matrix.get?_map, Option.map_eq_some_iff]
  simp only [Matrix.get?_edited]
  constructor
  · intro h
    obtain ⟨c', ⟨p, hp, hq⟩, rfl⟩ := h
    exact ⟨p, c', hp, hq, rfl⟩
  · intro h
    obtain ⟨p, c', hp, hq, rfl⟩ := h
    exact ⟨c', ⟨p, hp, hq⟩, rfl⟩

theorem formula?_reshaped {f : Formula} : (s.reshaped e).formula? q = some f ↔
    ∃ p g, s.formula? p = some g ∧ e.position? p = some q ∧ f = g.edited e := by
  have hmap (c : Cell) : (c.mapFormula fun f => f.edited e).formula? =
      c.formula?.map fun f => f.edited e := by
    obtain ⟨contents, v⟩ := c
    cases contents <;> rfl
  unfold formula?
  simp only [Option.bind_eq_some_iff, cell?_reshaped]
  constructor
  · intro h
    obtain ⟨c, ⟨p, c', hp, hq, rfl⟩, hf⟩ := h
    rw [hmap, Option.map_eq_some_iff] at hf
    obtain ⟨g, hg, rfl⟩ := hf
    exact ⟨p, g, ⟨c', hp, hg⟩, hq, rfl⟩
  · intro h
    obtain ⟨p, g, ⟨c', hp, hg⟩, hq, rfl⟩ := h
    exact ⟨_, ⟨p, c', hp, hq, rfl⟩, by rw [hmap, hg]; rfl⟩

theorem references_reshaped_name (s : Sheet) (e : Edit) (n : String) :
    (s.reshaped e).references (.name n) = (s.references (.name n)).map e.reference := by
  unfold references reshaped
  dsimp only
  rw [Std.ExtTreeMap.getElem?_map]
  cases s.names[n]? with
  | none => rfl
  | some d => cases d <;> rfl

theorem references_reshaped_cell {p : Position} (h : e.position? p = some q) :
    (s.reshaped e).references (.cell q) = (s.references (.cell p)).map e.reference := by
  cases hp : s.formula? p with
  | some g =>
    rw [references_cell hp, references_cell (formula?_reshaped.mpr ⟨p, g, hp, h, rfl⟩)]
    exact g.references_edited e
  | none =>
    have hq : (s.reshaped e).formula? q = none := by
      rw [Option.eq_none_iff_forall_ne_some]
      intro f hf
      obtain ⟨p', g, hg, hp', -⟩ := formula?_reshaped.mp hf
      rw [Edit.position?_inj hp' h, hp] at hg
      contradiction
    simp only [references, hp, hq]
    rfl

theorem OnGrid.reshaped (hs : s.OnGrid) : (s.reshaped e).OnGrid := by
  intro q hq
  obtain ⟨c, hc⟩ := Option.isSome_iff_exists.mp hq
  obtain ⟨p, c', hp, hpq, -⟩ := cell?_reshaped.mp hc
  exact Edit.position?_onGrid hpq (hs p (by rw [hp]; rfl))

end Sheet

end Spreadsheet
