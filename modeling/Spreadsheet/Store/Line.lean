import Std.Data.ExtTreeMap
import Spreadsheet.Grid.Edit

/-! One row or column with values in some of its cells. Only filled cells are stored, in the order
of their indices, so the filled cell nearest to an index is found without a look at empty ones. -/

namespace Spreadsheet

/-- The values in the filled cells of a line, by index. -/
structure Line (α : Type) where
  cells : Std.ExtTreeMap Nat α

namespace Line

variable {α β : Type}

def empty : Line α := ⟨∅⟩

instance : Inhabited (Line α) := ⟨empty⟩

/-- The line with these values; the last one given for an index counts. -/
def ofList (items : List (Nat × α)) : Line α := ⟨.ofList items⟩

/-- The filled cells from first to last. -/
def toList (l : Line α) : List (Nat × α) := l.cells.toList

def size (l : Line α) : Nat := l.cells.size

def isEmpty (l : Line α) : Bool := l.cells.isEmpty

def get? (l : Line α) (i : Nat) : Option α := l.cells[i]?

def set (l : Line α) (i : Nat) (a : α) : Line α := ⟨l.cells.insert i a⟩

/-- Fill the cell unless it is filled. -/
def setIfEmpty (l : Line α) (i : Nat) (a : α) : Line α := ⟨l.cells.insertIfNew i a⟩

def remove (l : Line α) (i : Nat) : Line α := ⟨l.cells.erase i⟩

/-- Change the value in a cell, if there is one. -/
def modify (l : Line α) (i : Nat) (f : α → α) : Line α := ⟨l.cells.modify i f⟩

/-- The first filled cell. -/
def first? (l : Line α) : Option (Nat × α) := l.toList.head?

/-- The last filled cell. -/
def last? (l : Line α) : Option (Nat × α) := l.toList.getLast?

/-- The first filled cell from `i` on. -/
def next? (l : Line α) (i : Nat) : Option (Nat × α) := l.toList.find? fun c => i ≤ c.1

/-- The last filled cell up to `i`. -/
def previous? (l : Line α) (i : Nat) : Option (Nat × α) := l.toList.reverse.find? fun c => c.1 ≤ i

/-- The filled cells from `first` to `last`, both included. -/
def range (l : Line α) (first last : Nat) : List (Nat × α) :=
  l.toList.filter fun c => first ≤ c.1 && c.1 ≤ last

/-- Change the values from `first` to `last`. -/
def modifyRange (l : Line α) (first last : Nat) (f : α → α) : Line α :=
  ⟨l.cells.map fun i a => if first ≤ i && i ≤ last then f a else a⟩

/-- Keep the cells that `f` accepts. -/
def filter (l : Line α) (f : Nat → α → Bool) : Line α := ⟨l.cells.filter f⟩

/-- Change every value. -/
def map (l : Line α) (f : α → β) : Line β := ⟨l.cells.map fun _ a => f a⟩

/-- Change every value or take its cell out. -/
def filterMap (l : Line α) (f : Nat → α → Option β) : Line β := ⟨l.cells.filterMap f⟩

/-- The line with its cells moved; those that move nowhere are lost. -/
def moved (l : Line α) (to? : Nat → Option Nat) : Line α :=
  ofList (l.toList.filterMap fun c => (to? c.1).map fun i => (i, c.2))

/-- Open a gap of `count` empty cells at `start`. -/
def openGap (l : Line α) (start count : Nat) : Line α := l.moved (Edit.opened? start count)

/-- Take out the `count` cells from `start` on, together with what they hold. -/
def closeGap (l : Line α) (start count : Nat) : List (Nat × α) × Line α :=
  (l.toList.filter fun c => start ≤ c.1 && c.1 < start + count,
    l.moved (Edit.closed? start count))

/-- The line after an edit along it. -/
def edited (l : Line α) : Edit → Line α
  | .insert _ start count => l.openGap start count
  | .remove _ start count => (l.closeGap start count).2

/-- What `f` counts in the values, added up. -/
def total (l : Line α) (f : α → Nat) : Nat := (l.toList.map fun c => f c.2).foldr (· + ·) 0

theorem ext_get? {l l' : Line α} (h : ∀ i, l.get? i = l'.get? i) : l = l' := by
  obtain ⟨cells⟩ := l
  obtain ⟨cells'⟩ := l'
  obtain rfl : cells = cells' := Std.ExtTreeMap.ext_getElem? h
  rfl

theorem mem_toList {l : Line α} {i : Nat} {a : α} : (i, a) ∈ l.toList ↔ l.get? i = some a := by
  simp [toList, get?, Std.ExtTreeMap.mem_toList_iff_getElem?_eq_some]

theorem toList_forward (l : Line α) : l.toList.Pairwise fun c d => c.1 < d.1 :=
  l.cells.ordered_keys_toList.imp fun h => Nat.compare_eq_lt.mp h

theorem toList_nodup (l : Line α) : l.toList.Nodup :=
  l.toList_forward.imp fun {_ _} h e => Nat.ne_of_lt h (congrArg Prod.fst e)

/-! ## What a cell holds -/

@[simp] theorem get?_empty (i : Nat) : (empty : Line α).get? i = none := by
  simp [get?, empty]

theorem isEmpty_iff {l : Line α} : l.isEmpty = true ↔ l = empty := by
  obtain ⟨cells⟩ := l
  simp [isEmpty, empty]

theorem get?_set (l : Line α) (i j : Nat) (a : α) :
    (l.set i a).get? j = if i = j then some a else l.get? j := by
  simp [get?, set, Std.ExtTreeMap.getElem?_insert]

theorem get?_remove (l : Line α) (i j : Nat) :
    (l.remove i).get? j = if i = j then none else l.get? j := by
  simp [get?, remove, Std.ExtTreeMap.getElem?_erase]

theorem get?_modify (l : Line α) (i j : Nat) (f : α → α) :
    (l.modify i f).get? j = if i = j then (l.get? j).map f else l.get? j := by
  unfold get? modify
  rw [Std.ExtTreeMap.getElem?_modify]
  by_cases h : i = j
  · simp [h]
  · simp [h]

theorem get?_map (l : Line α) (f : α → β) (i : Nat) : (l.map f).get? i = (l.get? i).map f := by
  unfold get? map
  rw [Std.ExtTreeMap.getElem?_map]

theorem get?_filter (l : Line α) (f : Nat → α → Bool) (i : Nat) :
    (l.filter f).get? i = (l.get? i).filter (f i) := by
  unfold get? filter
  rw [Std.ExtTreeMap.getElem?_filter']

theorem get?_filterMap (l : Line α) (f : Nat → α → Option β) (i : Nat) :
    (l.filterMap f).get? i = (l.get? i).bind (f i) := by
  unfold get? filterMap
  rw [Std.ExtTreeMap.getElem?_filterMap']

theorem get?_ofList {items : List (Nat × α)} (h : items.Pairwise fun c d => c.1 ≠ d.1) {i : Nat}
    {a : α} : (ofList items).get? i = some a ↔ (i, a) ∈ items := by
  have hd : items.Pairwise fun c d => ¬ compare c.1 d.1 = .eq :=
    h.imp fun hne e => hne (Std.compare_eq_iff_eq.mp e)
  have hget {b : α} (hb : (i, b) ∈ items) : (ofList items).get? i = some b :=
    Std.ExtTreeMap.getElem?_ofList_of_mem Std.ReflOrd.compare_self hd hb
  refine ⟨fun ha => ?_, hget⟩
  have hi : i ∈ (ofList items).cells := by
    rw [Std.ExtTreeMap.mem_iff_isSome_getElem?]
    exact Option.isSome_iff_exists.mpr ⟨a, ha⟩
  obtain ⟨⟨_, b⟩, hb, rfl⟩ :=
    List.mem_map.mp (List.contains_iff_mem.mp (Std.ExtTreeMap.mem_ofList.mp hi))
  rw [hget hb] at ha
  cases ha
  exact hb

/-- Cells that move to different places keep what they hold. -/
theorem get?_moved {l : Line α} {to? : Nat → Option Nat}
    (inj : ∀ {i i' j}, to? i = some j → to? i' = some j → i = i') {j : Nat} {a : α} :
    (l.moved to?).get? j = some a ↔ ∃ i, l.get? i = some a ∧ to? i = some j := by
  have hmoved : (l.toList.filterMap fun c => (to? c.1).map fun i => (i, c.2)).Pairwise
      fun c d => c.1 ≠ d.1 := by
    refine List.Pairwise.filterMap _ (fun c d hcd x hx y hy hxy => ?_) l.toList_forward
    obtain ⟨i, hi, rfl⟩ := Option.map_eq_some_iff.mp hx
    obtain ⟨i', hi', rfl⟩ := Option.map_eq_some_iff.mp hy
    cases hxy
    exact Nat.ne_of_lt hcd (inj hi hi')
  refine (get?_ofList hmoved).trans ?_
  simp only [List.mem_filterMap, Option.map_eq_some_iff, Prod.exists, Prod.mk.injEq, mem_toList]
  constructor
  · rintro ⟨i, b, hb, j', hj', rfl, rfl⟩
    exact ⟨i, hb, hj'⟩
  · rintro ⟨i, hi, hj⟩
    exact ⟨i, a, hi, j, hj, rfl, rfl⟩

theorem edited_eq (l : Line α) (e : Edit) : l.edited e = l.moved e.index? := by
  cases e <;> rfl

/-! ## Counting -/

theorem isEmpty_iff_size {l : Line α} : l.isEmpty = true ↔ l.size = 0 := by
  rw [isEmpty, Std.ExtTreeMap.isEmpty_eq_size_beq_zero, beq_iff_eq]
  rfl

theorem eq_empty_iff_size {l : Line α} : l = empty ↔ l.size = 0 :=
  isEmpty_iff.symm.trans isEmpty_iff_size

theorem size_eq_length (l : Line α) : l.size = l.toList.length :=
  Std.ExtTreeMap.length_toList.symm

theorem size_set (l : Line α) (i : Nat) (a : α) :
    (l.set i a).size = if (l.get? i).isNone then l.size + 1 else l.size := by
  unfold size set get?
  rw [Std.ExtTreeMap.size_insert]
  by_cases h : i ∈ l.cells <;> simp [h]

theorem size_remove (l : Line α) (i : Nat) :
    (l.remove i).size = if (l.get? i).isSome then l.size - 1 else l.size := by
  unfold size remove get?
  rw [Std.ExtTreeMap.size_erase]
  by_cases h : i ∈ l.cells <;> simp [h]

theorem range_eq_filter (l : Line α) (s : Span) :
    l.range s.first s.last = l.toList.filter fun c => s.contains c.1 := rfl

/-- The cells of a span and those outside of it are all cells. -/
theorem size_outside (l : Line α) (s : Span) :
    (l.filter fun i _ => !s.contains i).size + (l.range s.first s.last).length = l.size := by
  have hnot : (fun c : Nat × α => decide ¬s.contains c.1 = true) = fun c => !s.contains c.1 := by
    funext c
    cases s.contains c.1 <;> rfl
  have hall := List.length_eq_countP_add_countP (l := l.toList) fun c => s.contains c.1
  rw [hnot, List.countP_eq_length_filter, List.countP_eq_length_filter] at hall
  rw [size_eq_length, size_eq_length, hall, Nat.add_comm]
  unfold toList filter
  rw [Std.ExtTreeMap.toList_filter]
  rfl

theorem size_pos_of_get? {l : Line α} {i : Nat} {a : α} (h : l.get? i = some a) : 0 < l.size := by
  rw [size_eq_length]
  exact List.length_pos_of_mem (mem_toList.mpr h)

theorem size_modify (l : Line α) (i : Nat) (f : α → α) : (l.modify i f).size = l.size := by
  unfold size modify
  exact Std.ExtTreeMap.size_modify

theorem size_map (l : Line α) (f : α → β) : (l.map f).size = l.size :=
  Std.ExtTreeMap.size_map

/-- One cell counts for itself, and the others for themselves. -/
theorem total_eq (l : Line α) (f : α → Nat) (i : Nat) :
    l.total f = (l.get? i).elim 0 f + (l.remove i).total f := by
  cases h : l.get? i with
  | none =>
    have hself : l.remove i = l := ext_get? fun j => by
      rw [get?_remove]
      split
      · next e => rw [← e, h]
      · rfl
    rw [hself]
    exact (Nat.zero_add _).symm
  | some a =>
    have hperm : l.toList.Perm ((i, a) :: (l.remove i).toList) := by
      have hout : (i, a) ∉ (l.remove i).toList := by
        rw [mem_toList, get?_remove, if_pos rfl]
        exact nofun
      refine (List.perm_ext_iff_of_nodup l.toList_nodup
        (List.nodup_cons.mpr ⟨hout, toList_nodup _⟩)).mpr fun ⟨j, b⟩ => ?_
      rw [List.mem_cons, mem_toList, mem_toList, get?_remove]
      by_cases hj : i = j
      · subst hj
        simp [h, eq_comm]
      · simp [hj, Ne.symm hj]
    exact (hperm.map fun c => f c.2).sum_nat

theorem total_set (l : Line α) (f : α → Nat) (i : Nat) (a : α) :
    (l.set i a).total f = f a + (l.remove i).total f := by
  have hremove : (l.set i a).remove i = l.remove i := ext_get? fun j => by
    rw [get?_remove, get?_remove, get?_set]
    split <;> rfl
  rw [total_eq _ f i, get?_set, if_pos rfl, hremove]
  rfl

theorem total_modify (l : Line α) {f : α → Nat} (i : Nat) {g : α → α} (h : ∀ a, f (g a) = f a) :
    (l.modify i g).total f = l.total f := by
  have hremove : (l.modify i g).remove i = l.remove i := ext_get? fun j => by
    rw [get?_remove, get?_remove, get?_modify]
    split <;> rfl
  rw [total_eq _ f i, total_eq l f i, get?_modify, if_pos rfl, hremove]
  cases l.get? i with
  | none => rfl
  | some a => exact congrArg (· + _) (h a)

theorem total_map (l : Line α) {f : α → Nat} {g : α → β} {f' : β → Nat} (h : ∀ a, f' (g a) = f a) :
    (l.map g).total f' = l.total f := by
  unfold total toList map
  rw [Std.ExtTreeMap.toList_map, List.map_map]
  simp only [Function.comp_def, h]

theorem total_filterMap (l : Line α) (f : Nat → α → Option β) (g : β → Nat) :
    (l.filterMap f).total g =
      (l.toList.map fun c => (f c.1 c.2).elim 0 g).foldr (· + ·) 0 := by
  unfold total toList filterMap
  rw [Std.ExtTreeMap.toList_filterMap]
  induction l.cells.toList with
  | nil => rfl
  | cons c cs ih =>
    rw [List.filterMap_cons, List.map_cons, List.foldr_cons, ← ih]
    cases f c.1 c.2 with
    | none => exact (Nat.zero_add _).symm
    | some b => rfl

end Line

end Spreadsheet
