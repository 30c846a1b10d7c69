import Spreadsheet.Proofs.Sheet.Acyclicity
import Spreadsheet.Proofs.Sheet.Agreement

/-! A sheet that calculates at once, and one beside it on which edits wait. Apart from what has been
computed and what is marked they hold the same, so they plan the same for every edit of cells and
names, and go on holding the same. -/

namespace Spreadsheet

open Relation

/-- An edit of cells or names. -/
def Operation.isInput : Operation → Bool
  | .setValue .. | .setFormula .. | .setInput .. | .clear .. | .clearRegion .. | .copy .. |
    .define .. | .undefine .. => true
  | _ => false

theorem Operation.isReshaping_of_isInput {op : Operation} (h : op.isInput = true) :
    op.isReshaping = false := by
  cases op with
  | edit e => contradiction
  | _ => rfl

namespace Sheet

variable {s t x y : Sheet}

/-- `s` calculates at once and `t` waits; apart from what has been computed and what is marked, they
are the same. -/
structure Tracks (s t : Sheet) : Prop where
  input : s.SameInput t
  settings : t.settings = s.settings
  vacant : t.cells.vacant = s.cells.vacant
  live : s.isLive = true
  depth : t.pauseDepth = s.pauseDepth + 1
  dirty : ∀ d ∈ s.dirty, d ∈ t.dirty

namespace Tracks

theorem isLive_eq_false (h : s.Tracks t) : t.isLive = false := by
  unfold isLive
  rw [h.depth]
  exact Bool.and_false _

theorem sameExtent (h : s.Tracks t) : s.cells.SameExtent t.cells where
  axis := h.input.axis.symm
  vacant := h.vacant.symm
  filled p := by
    have hp := congrArg Option.isSome (h.input.contents p)
    unfold contents? at hp
    rw [Option.isSome_map, Option.isSome_map] at hp
    exact hp.symm

theorem isAffected (h : s.Tracks t) {v : Vertex} (hv : s.IsAffected v) : t.IsAffected v := by
  obtain ⟨d, hd, hdv⟩ := hv
  refine ⟨d, h.dirty d hd, ?_⟩
  rwa [h.input.feeds]

theorem withGraph (h : s.Tracks t) (g g' : Graph Vertex) :
    (s.withGraph g).Tracks (t.withGraph g') :=
  ⟨⟨h.input.axis, h.input.functions, h.input.names, h.input.contents⟩, h.settings, h.vacant, h.live,
    h.depth, h.dirty⟩

theorem withAmbient (h : s.Tracks t) (a b : Ambient) : (s.withAmbient a).Tracks (t.withAmbient b) :=
  ⟨⟨h.input.axis, h.input.functions, h.input.names, h.input.contents⟩, h.settings, h.vacant, h.live,
    h.depth, h.dirty⟩

theorem markDirty (h : s.Tracks t) (vs : List Vertex) : (s.markDirty vs).Tracks (t.markDirty vs) :=
  ⟨⟨h.input.axis, h.input.functions, h.input.names, h.input.contents⟩, h.settings, h.vacant, h.live,
    h.depth, fun d hd => mem_markDirty.mpr ((mem_markDirty.mp hd).imp_right (h.dirty d))⟩

theorem withCells (h : s.Tracks t) {m n : Matrix Cell} (ha : n.axis = m.axis)
    (hv : n.vacant = m.vacant)
    (hc : ∀ q, (n.get? q).map (·.contents) = (m.get? q).map (·.contents)) :
    (s.withCells m).Tracks (t.withCells n) :=
  ⟨⟨ha, h.input.functions, h.input.names, hc⟩, h.settings, hv, h.live, h.depth, h.dirty⟩

theorem withNames (h : s.Tracks t) (ns : Std.ExtTreeMap String Definition) :
    (s.withNames ns).Tracks (t.withNames ns) :=
  ⟨⟨h.input.axis, h.input.functions, rfl, h.input.contents⟩, h.settings, h.vacant, h.live, h.depth,
    h.dirty⟩

theorem remove (h : s.Tracks t) (p : Position) :
    (s.withCells (s.cells.remove p)).Tracks (t.withCells (t.cells.remove p)) := by
  refine h.withCells (by simp only [Matrix.axis_remove, h.input.axis]) ?_ fun q => ?_
  · rw [Matrix.vacant_remove, Matrix.vacant_remove, h.vacant, h.input.axis]
  · rw [Matrix.get?_remove, Matrix.get?_remove]
    split
    · rfl
    · exact h.input.contents q

theorem set (h : s.Tracks t) (p : Position) (c : Cell) :
    (s.withCells (s.cells.set p c)).Tracks (t.withCells (t.cells.set p c)) := by
  refine h.withCells (by simp only [Matrix.axis_set, h.input.axis]) ?_ fun q => ?_
  · rw [Matrix.vacant_set, Matrix.vacant_set, h.vacant, h.input.axis]
  · rw [Matrix.get?_set, Matrix.get?_set]
    split
    · rfl
    · exact h.input.contents q

theorem removeRegion (h : s.Tracks t) (r : Region) :
    (s.withCells (s.cells.removeRegion r)).Tracks (t.withCells (t.cells.removeRegion r)) := by
  refine h.withCells h.input.axis ?_ fun q => ?_
  · rw [Matrix.vacant_removeRegion, Matrix.vacant_removeRegion, h.vacant, h.input.axis]
  · rw [Matrix.get?_removeRegion, Matrix.get?_removeRegion]
    split
    · rfl
    · exact h.input.contents q

theorem occupied (h : s.Tracks t) (p : Position) :
    (s.withCells (s.cells.occupied p)).Tracks (t.withCells (t.cells.occupied p)) := by
  refine h.withCells h.input.axis ?_ fun q => ?_
  · rw [Matrix.vacant_occupied, Matrix.vacant_occupied, h.vacant, h.input.axis]
  · rw [Matrix.get?_occupied, Matrix.get?_occupied]
    exact h.input.contents q

theorem positionsIn (h : s.Tracks t) (r : Region) :
    (t.cells.linesIn r).map (·.1) = (s.cells.linesIn r).map (·.1) := by
  have hfilter (m : Matrix Cell) :
      (m.linesIn r).map (·.1) = (m.toList.map (·.1)).filter r.contains := by
    rw [Matrix.linesIn_eq_filter, List.filter_map]
    rfl
  rw [hfilter, hfilter, h.sameExtent.positions]

theorem copied? (h : s.Tracks t) (source target : Position) :
    t.copied? source target = s.copied? source target := by
  have hc := h.input.contents source
  unfold contents? at hc
  unfold Sheet.copied?
  cases hs : s.cell? source with
  | none =>
    rw [hs, Option.map_none, Option.map_eq_none_iff] at hc
    rw [hc]
  | some c =>
    rw [hs, Option.map_some, Option.map_eq_some_iff] at hc
    obtain ⟨c', ht, he⟩ := hc
    rw [ht, Option.map_some, Option.map_some, he]

end Tracks

/-! ## Plans -/

/-- The plans of a sheet like `s` and of one that waits. -/
inductive Plan.Tracks (s : Sheet) : Plan → Plan → Prop
  | refuse (reason : Refusal) : Tracks s (.refuse reason) (.refuse reason)
  | leave {x y : Sheet} (h : x.Tracks y) (hd : x.dirty = s.dirty) (answer : Answer) :
    Tracks s (.leave x answer) (.leave y answer)
  | settle {x y : Sheet} (h : x.Tracks y) (answer : Answer) :
    Tracks s (.settle x fun _ => answer) (.settle y fun _ => answer)
  | check {x y back back' : Sheet} (h : x.Tracks y) (v : Vertex) (hb : back.Tracks back')
    (hd : back.dirty = s.dirty) : Tracks s (.check x v back) (.check y v back')

theorem Tracks.planClear (h : s.Tracks t) (p : Position) :
    Plan.Tracks s (s.planClear p) (t.planClear p) := by
  have hc := congrArg Option.isSome (h.input.contents p)
  unfold contents? at hc
  rw [Option.isSome_map, Option.isSome_map] at hc
  unfold Sheet.planClear
  cases hs : s.cell? p with
  | none =>
    rw [hs, Option.isSome_none, Option.isSome_eq_false_iff, Option.isNone_iff_eq_none] at hc
    rw [hc]
    exact Plan.Tracks.leave (s := s) (h.remove p) rfl _
  | some c =>
    rw [hs] at hc
    obtain ⟨c', hc⟩ := Option.isSome_iff_exists.mp hc
    rw [hc]
    exact .settle ((h.remove p).markDirty _) _

theorem Tracks.planValue (h : s.Tracks t) (p : Position) (v : Value) :
    Plan.Tracks s (s.planValue p v) (t.planValue p v) := by
  unfold Sheet.planValue
  split
  · exact h.planClear p
  · exact .settle ((h.set p _).markDirty _) _

theorem Tracks.planFormula (h : s.Tracks t) (p : Position) (f : Formula) :
    Plan.Tracks s (s.planFormula p f) (t.planFormula p f) := by
  unfold Sheet.planFormula
  split
  · exact .refuse _
  · exact .check ((h.set p _).markDirty _) _ (h.occupied p) rfl

theorem Tracks.planContents (h : s.Tracks t) (p : Position) (c : Option Contents) :
    Plan.Tracks s (s.planContents p c) (t.planContents p c) := by
  cases c with
  | none => exact h.planClear p
  | some c =>
    cases c with
    | value v => exact h.planValue p v
    | formula f => exact h.planFormula p f

theorem Tracks.planClearRegion (h : s.Tracks t) (r : Region) :
    Plan.Tracks s (s.plan (.clearRegion r)) (t.plan (.clearRegion r)) := by
  have hmarks : ((t.cells.linesIn r).map fun c => Vertex.cell c.1) =
      (s.cells.linesIn r).map fun c => .cell c.1 := by
    have := congrArg (List.map Vertex.cell) (h.positionsIn r)
    rwa [List.map_map, List.map_map] at this
  have hlength : (t.cells.linesIn r).length = (s.cells.linesIn r).length := by
    have := congrArg List.length (h.positionsIn r)
    rwa [List.length_map, List.length_map] at this
  unfold plan
  dsimp only
  rw [hmarks, hlength]
  exact .settle ((h.removeRegion r).markDirty _) _

theorem Tracks.planDefine (h : s.Tracks t) (name : String) (d : Definition) :
    Plan.Tracks s (s.planDefine name d) (t.planDefine name d) := by
  unfold Sheet.planDefine
  rw [h.input.names]
  split
  · exact .refuse _
  · exact .check ((h.withNames _).markDirty _) _ h rfl

theorem Tracks.planUndefine (h : s.Tracks t) (name : String) :
    Plan.Tracks s (s.planUndefine name) (t.planUndefine name) := by
  unfold Sheet.planUndefine
  rw [h.input.names]
  dsimp only
  split
  · exact .settle ((h.withNames _).markDirty _) _
  · exact .leave h rfl _

/-- Both sheets plan the same. -/
theorem Tracks.plan (h : s.Tracks t) {op : Operation} (hop : op.isInput = true) :
    Plan.Tracks s (s.plan op) (t.plan op) := by
  cases op with
  | setValue p v => exact h.planValue p v
  | setFormula p f => exact h.planFormula p f
  | setInput p text =>
    change Plan.Tracks s (s.planContents p _)
      (t.planContents p (Contents.ofInput? t.settings.datePatterns text))
    rw [h.settings]
    exact h.planContents p _
  | clear p => exact h.planClear p
  | clearRegion r => exact h.planClearRegion r
  | copy source target =>
    change Plan.Tracks s (s.planContents target _) (t.planContents target (t.copied? source target))
    rw [h.copied?]
    exact h.planContents target _
  | define name d => exact h.planDefine name d
  | undefine name => exact h.planUndefine name
  | _ => contradiction

end Sheet

end Spreadsheet
