/-! Runs of consecutive lines (rows or columns). Lines are numbered from zero, and a run that
ends at `endless` goes to the end of the grid, wherever lines are inserted or removed. -/

namespace Spreadsheet

/-- The last index of a run that goes to the end of the grid. -/
def endless : Nat := 4294967295

/-- The lines from `first` to `last`, both included. -/
structure Span where
  first : Nat
  last : Nat
  first_le_last : first ≤ last := by omega
  deriving DecidableEq, Repr

namespace Span

/-- The span between two lines given in either order. -/
def between (a b : Nat) : Span := ⟨min a b, max a b, by omega⟩

def single (i : Nat) : Span := ⟨i, i, Nat.le_refl i⟩

/-- Every line of the grid. -/
def all : Span := ⟨0, endless, Nat.zero_le _⟩

def contains (s : Span) (i : Nat) : Bool := s.first ≤ i && i ≤ s.last

/-- Every line of `t` is one of `s`. -/
def covers (s t : Span) : Bool := s.first ≤ t.first && t.last ≤ s.last

/-- The lines that `s` and `t` share, if any. -/
def meet? (s t : Span) : Option Span :=
  if h : max s.first t.first ≤ min s.last t.last then some ⟨_, _, h⟩ else none

def overlaps (s t : Span) : Bool := s.first ≤ t.last && t.first ≤ s.last

/-- The least span that covers both. -/
def hull (s t : Span) : Span :=
  ⟨min s.first t.first, max s.last t.last, by have := s.first_le_last; omega⟩

/-- No line lies between `s` and `t`. -/
def touches (s t : Span) : Bool := s.first ≤ t.last + 1 && t.first ≤ s.last + 1

/-- The lines of `s` before `cut`. -/
def before? (s cut : Span) : Option Span :=
  if h : s.first < cut.first then some ⟨s.first, cut.first - 1, by omega⟩ else none

/-- The lines of `s` after `cut`. -/
def after? (s cut : Span) : Option Span :=
  if h : cut.last < s.last then some ⟨cut.last + 1, s.last, by omega⟩ else none

def size (s : Span) : Nat := s.last - s.first + 1

/-- A line number that `count` lines inserted before it push on, at most to the last line. -/
def pushed (i count : Nat) : Nat :=
  if i = endless then endless else min (i + count) (endless - 1)

/-- A line number that `count` lines removed before it pull back. -/
def pulled (i count : Nat) : Nat := if i = endless then endless else i - count

/-- The span once `count` lines are inserted at line `start`: lines from there on move, and a span
around it grows. -/
def afterInsert (s : Span) (start count : Nat) : Span :=
  if count = 0 ∨ s.last < start then s
  else if start ≤ s.first then between (pushed s.first count) (pushed s.last count)
  else between s.first (pushed s.last count)

/-- The last of `count` removed lines, which may reach past the grid. -/
def lastRemoved (start count : Nat) : Nat := min (start + (count - 1)) endless

/-- The span once `count` lines from line `start` are removed, `none` when none of it is left. -/
def afterRemove? (s : Span) (start count : Nat) : Option Span :=
  let final := lastRemoved start count
  if count = 0 ∨ s.last < start then some s
  else if final < s.first then some (between (s.first - count) (pulled s.last count))
  else if start ≤ s.first ∧ s.last ≤ final then none
  else if final < s.last then some (between (min s.first start) (pulled s.last count))
  else some (between (min s.first start) (start - 1))

theorem mem_meet? {s t u : Span} (h : s.meet? t = some u) (i : Nat) :
    u.contains i = (s.contains i && t.contains i) := by
  unfold meet? at h
  split at h
  · cases h
    rw [Bool.eq_iff_iff]
    simp only [contains, Bool.and_eq_true, decide_eq_true_eq]
    omega
  · simp at h

theorem meet?_isSome (s t : Span) : (s.meet? t).isSome = s.overlaps t := by
  have hs := s.first_le_last
  have ht := t.first_le_last
  rw [Bool.eq_iff_iff]
  unfold meet? overlaps
  split <;> simp only [Option.isSome_some, Option.isSome_none, Bool.and_eq_true,
    decide_eq_true_eq, Bool.false_eq_true, false_iff, true_iff] <;> omega

end Span

end Spreadsheet
