import Spreadsheet.Proofs.Grid.Denoting
import Spreadsheet.Proofs.Store.Marking

/-! Tags that travel with their cells. Each region is moved by itself, and regions that share no
cell still share none afterwards, as long as the first line of each stays on the grid. A region that
is pushed off it comes to lie on the last line all the same, whatever else is moved there. -/

namespace Spreadsheet

/-! ## Regions under an edit -/

namespace Edit

variable {e : Edit} {r r' s s' : Region}

/-- Of two spans, the one behind stays behind, unless it is pushed off the grid. The one in front may
be pushed against the end of the grid, but not onto what is behind it. -/
theorem span?_apart {s s' t t' : Span} (hs : s.last ≤ endless) (ht : t.last ≤ endless)
    (hroom : e.HasRoom t) (h : s.last < t.first) (hs' : e.span? s = some s')
    (ht' : e.span? t = some t') : s'.last < t'.first := by
  by_cases hc : e.count = 0
  · rw [span?_of_count_eq_zero hc] at hs' ht'
    cases hs'
    cases ht'
    exact h
  have hle := s.first_le_last
  have hle' := t.first_le_last
  cases e with
  | insert axis start count =>
    cases hs'
    cases ht'
    have hroom : start ≤ t.first → t.first = endless ∨ t.first + count < endless := hroom
    unfold Span.afterInsert Span.between Span.pushed
    grind
  | remove axis start count =>
    have hcases := afterRemove?_cases hc hs hs'
    have hcases' := afterRemove?_cases hc ht ht'
    omega

/-- A span that is pushed off the grid comes to lie on the last line. -/
theorem contains_of_not_hasRoom {s s' : Span} {i j : Nat} (hs : s.last ≤ endless)
    (hroom : ¬ e.HasRoom s) (hs' : e.span? s = some s') (hi : e.index? i = some j) :
    s'.contains j = true ↔ j = endless - 1 := by
  have hle := s.first_le_last
  cases e with
  | insert axis start count =>
    cases hs'
    have hroom : ¬ (start ≤ s.first → s.first = endless ∨ s.first + count < endless) := hroom
    unfold index? opened? at hi
    rw [Span.contains_iff]
    unfold Span.afterInsert Span.between Span.pushed
    grind [endless]
  | remove axis start count => exact absurd trivial hroom

theorem exists_region?_of_not_hasRoom {s : Span} (hroom : ¬ e.HasRoom s) (r : Region) :
    ∃ r', e.region? r = some r' := by
  cases e with
  | insert axis start count => exact ⟨_, rfl⟩
  | remove axis start count => exact absurd trivial hroom

/-- Something is left of a span that has a line which is kept. -/
theorem exists_span? {s : Span} {i j : Nat} (hs : s.last ≤ endless) (hsi : s.contains i = true)
    (hi : e.index? i = some j) : ∃ s', e.span? s = some s' ∧ s'.contains j = true := by
  by_cases hc : e.count = 0
  · rw [index?_of_count_eq_zero hc] at hi
    cases hi
    exact ⟨s, span?_of_count_eq_zero hc s, hsi⟩
  cases e with
  | insert axis start count => exact ⟨_, rfl, afterInsert_contains hs hi hsi⟩
  | remove axis start count =>
    have hc : count ≠ 0 := hc
    cases hs' : s.afterRemove? start count with
    | none =>
      have hgone := (afterRemove?_eq_none hc hs).mp hs' i hsi
      have hij := closed?_eq_some hi
      omega
    | some s' => exact ⟨s', hs', afterRemove?_contains hc hs hs' hi hsi⟩

theorem position?_of_count_eq_zero {p q : Position} (hc : e.count = 0) (h : e.position? p = some q) :
    p = q := by
  obtain ⟨hi, hother⟩ := position?_eq_some.mp h
  rw [index?_of_count_eq_zero hc] at hi
  exact Position.ext_index (Option.some.inj hi) hother

theorem span_of_region? (h : e.region? r = some r') :
    e.span? (r.span e.axis) = some (r'.span e.axis) ∧
      r'.span e.axis.other = r.span e.axis.other := by
  rw [region?_eq] at h
  obtain ⟨s, hs, rfl⟩ := Option.map_eq_some_iff.mp h
  rw [Region.span_withSpan, Region.span_withSpan_other]
  exact ⟨hs, rfl⟩

/-- Regions that share no cell are apart along an axis. Along the edited one they stay apart, and
along the other one nothing moves. -/
theorem region?_disjoint (hr : r.OnGrid) (hs : s.OnGrid) (hroom : e.HasRoom (r.span e.axis))
    (hroom' : e.HasRoom (s.span e.axis)) (h : r.Disjoint s) (hr' : e.region? r = some r')
    (hs' : e.region? s = some s') : r'.Disjoint s' := by
  obtain ⟨hr', hother⟩ := span_of_region? hr'
  obtain ⟨hs', hother'⟩ := span_of_region? hs'
  obtain ⟨axis, h⟩ := Region.disjoint_iff_apart.mp h
  refine Region.disjoint_iff_apart.mpr ⟨axis, ?_⟩
  by_cases haxis : axis = e.axis
  · subst haxis
    exact h.imp (span?_apart (hr.last_le _) (hs.last_le _) hroom' · hr' hs')
      (span?_apart (hs.last_le _) (hr.last_le _) hroom · hs' hr')
  · obtain rfl := Axis.eq_other_of_ne haxis
    rwa [hother, hother']

theorem region?_onGrid (hr : r.OnGrid) (h : e.region? r = some r') : r'.OnGrid := by
  obtain ⟨hspan, hother⟩ := span_of_region? h
  have hlast := hr.last_le e.axis.other
  exact Region.onGrid_of_last (span?_last (hr.last_le _) hspan).1 (hother ▸ hlast)

/-- What is left of a region is where its cells are. -/
theorem region?_follows (hr : r.OnGrid) (hroom : e.HasRoom (r.span e.axis))
    (h : e.region? r = some r') : e.Follows r r' := by
  by_cases hc : e.count = 0
  · rw [region?_of_count_eq_zero hc] at h
    cases h
    exact fun p q _ hpq => by rw [position?_of_count_eq_zero hc hpq]
  · obtain ⟨hspan, hother⟩ := span_of_region? h
    exact follows_of_span hother fun i j hi hij =>
      contains_span?_iff hc (hr.last_le _) hroom hi hspan hij

/-- A region that is pushed off the grid comes to lie on the last line. -/
theorem contains_region?_of_not_hasRoom {p q : Position} (hr : r.OnGrid)
    (hroom : ¬ e.HasRoom (r.span e.axis)) (h : e.region? r = some r')
    (hpq : e.position? p = some q) : r'.contains q = true ↔
      q.index e.axis = endless - 1 ∧
        (r.span e.axis.other).contains (q.index e.axis.other) = true := by
  obtain ⟨hspan, hother⟩ := span_of_region? h
  rw [Region.contains_iff r' q e.axis, hother,
    contains_of_not_hasRoom (hr.last_le _) hroom hspan (position?_eq_some.mp hpq).1]

/-- Something is left of a region that has a cell which is kept. -/
theorem exists_region? {p q : Position} (hr : r.OnGrid) (hp : r.contains p = true)
    (hpq : e.position? p = some q) :
    ∃ r', e.region? r = some r' ∧ r'.contains q = true := by
  obtain ⟨hi, hother⟩ := position?_eq_some.mp hpq
  rw [Region.contains_iff r p e.axis, hother] at hp
  obtain ⟨s', hs', hj⟩ := exists_span? (hr.last_le _) hp.1 hi
  refine ⟨r.withSpan e.axis s', by rw [region?_eq, hs', Option.map_some], ?_⟩
  rw [Region.contains_iff _ q e.axis, Region.span_withSpan, Region.span_withSpan_other]
  exact ⟨hj, hp.2⟩

end Edit

namespace Tagging

variable {α : Type}

/-! ## Stores under an edit -/

/-- Every region is on the grid. -/
def OnGrid (t : Tagging α) : Prop := ∀ f ∈ t.entries, f.1.OnGrid

/-- The first line of each region stays on the grid. -/
def HasRoom (t : Tagging α) (e : Edit) : Prop := ∀ f ∈ t.entries, e.HasRoom (f.1.span e.axis)

instance (t : Tagging α) : DecidablePred t.HasRoom := fun e =>
  inferInstanceAs (Decidable (∀ f ∈ t.entries, e.HasRoom (f.1.span e.axis)))

theorem onGrid_iff {entries : List (Region × α)} :
    (∀ f ∈ entries, f.1.OnGrid) ↔ ∀ p a, Holds entries p a → p.OnGrid := by
  simp only [Region.onGrid_iff]
  constructor
  · rintro h p a ⟨r, hmem, hp⟩
    exact h _ hmem p hp
  · intro h f hf p hp
    exact h p f.2 ⟨f.1, hf, hp⟩

section
variable [DecidableEq α]

/-- Each cell that is kept has, where it comes to lie, the tag that it had. -/
def Travels (t : Tagging α) (e : Edit) : Prop :=
  ∀ p q, p.OnGrid → e.position? p = some q → (t.edited e).get? q = t.get? p

/-- A region that is pushed off the grid comes to lie on no cell of another tag. -/
def CoversOwn (t : Tagging α) (e : Edit) : Prop :=
  ∀ f ∈ t.entries, ¬ e.HasRoom (f.1.span e.axis) →
    ∀ p q, p.OnGrid → e.position? p = some q → q.index e.axis = endless - 1 →
      (f.1.span e.axis.other).contains (q.index e.axis.other) = true → t.get? p = some f.2

theorem holds_edited {t : Tagging α} {e : Edit} {q : Position} {a : α} :
    Holds (t.edited e).entries q a ↔
      ∃ r r', (r, a) ∈ t.entries ∧ e.region? r = some r' ∧ r'.contains q = true := by
  unfold edited
  rw [holds_ofEntries]
  unfold Holds
  simp only [List.mem_filterMap, Option.map_eq_some_iff, Prod.exists, Prod.mk.injEq]
  constructor
  · rintro ⟨_, ⟨r, b, hmem, r', hr', rfl, rfl⟩, hq⟩
    exact ⟨r, r', hmem, hr', hq⟩
  · rintro ⟨r, r', hmem, hr', hq⟩
    exact ⟨r', ⟨r, a, hmem, r', hr', rfl, rfl⟩, hq⟩

theorem scattered_edited {t : Tagging α} {e : Edit} (h : Scattered t.entries) (hgrid : t.OnGrid)
    (hroom : t.HasRoom e) : Scattered (t.edited e).entries := by
  refine scattered_ofEntries (List.pairwise_filterMap.mpr
    (h.imp_of_mem fun {f g} hf hg hfg x hx y hy => ?_))
  obtain ⟨r, hr, rfl⟩ := Option.map_eq_some_iff.mp hx
  obtain ⟨s, hs, rfl⟩ := Option.map_eq_some_iff.mp hy
  exact Edit.region?_disjoint (hgrid f hf) (hgrid g hg) (hroom f hf) (hroom g hg) hfg hr hs

theorem onGrid_edited {t : Tagging α} (e : Edit) (h : t.OnGrid) : (t.edited e).OnGrid := by
  refine onGrid_iff.mpr fun q a hq => ?_
  obtain ⟨r, r', hmem, hr', hq⟩ := holds_edited.mp hq
  exact Region.onGrid_iff.mp (Edit.region?_onGrid (h _ hmem) hr') q hq

/-- As long as the regions share no cell, all tags travel exactly if no cell of another tag lies
where regions are pushed off the grid. -/
theorem travels_iff {t : Tagging α} {e : Edit} (h : Scattered t.entries) (hgrid : t.OnGrid)
    (hedited : Scattered (t.edited e).entries) : t.Travels e ↔ t.CoversOwn e := by
  constructor
  · intro htravels f hf hroom p q hp hpq hlast hother
    obtain ⟨r', hr'⟩ := Edit.exists_region?_of_not_hasRoom hroom f.1
    rw [← htravels p q hp hpq, get?_eq_some_iff hedited, holds_edited]
    exact ⟨f.1, r', hf, hr', (Edit.contains_region?_of_not_hasRoom (hgrid _ hf) hroom hr' hpq).mpr
      ⟨hlast, hother⟩⟩
  · intro hown p q hp hpq
    ext a
    rw [get?_eq_some_iff hedited, holds_edited]
    constructor
    · rintro ⟨r, r', hmem, hr', hq⟩
      -- A region that stays on the grid follows its cells; one that is pushed off may cover the cell
      -- only on the last line.
      by_cases hroom : e.HasRoom (r.span e.axis)
      · rw [get?_eq_some_iff h]
        exact ⟨r, hmem, (Edit.region?_follows (hgrid _ hmem) hroom hr' p q hp hpq).mp hq⟩
      · obtain ⟨hlast, hother⟩ :=
          (Edit.contains_region?_of_not_hasRoom (hgrid _ hmem) hroom hr' hpq).mp hq
        exact hown _ hmem hroom p q hp hpq hlast hother
    · intro hget
      obtain ⟨r, hmem, hr⟩ := (get?_eq_some_iff h).mp hget
      obtain ⟨r', hr', hq⟩ := Edit.exists_region? (hgrid _ hmem) hr hpq
      exact ⟨r, r', hmem, hr', hq⟩

end

/-! ## Runs -/

/-- A write or an edit of the grid. -/
inductive Step (α : Type) where
  | write (w : Write α)
  | edit (e : Edit)

/-- A write goes to cells of the grid, and an edit pushes no region off it. -/
def Admits (t : Tagging α) : Step α → Prop
  | .write w => w.region.OnGrid
  | .edit e => t.HasRoom e

instance (t : Tagging α) : DecidablePred t.Admits := fun s =>
  match s with
  | .write w => inferInstanceAs (Decidable w.region.OnGrid)
  | .edit e => inferInstanceAs (Decidable (t.HasRoom e))

/-- The regions are on the grid and share no cell. -/
structure IsOrderly (t : Tagging α) : Prop where
  scattered : Scattered t.entries
  onGrid : t.OnGrid

theorem isOrderly_empty : (empty : Tagging α).IsOrderly :=
  ⟨List.Pairwise.nil, fun _ hf => nomatch hf⟩

section
variable [DecidableEq α]

def apply (t : Tagging α) : Step α → Tagging α
  | .write w => t.write w
  | .edit e => t.edited e

def after (t : Tagging α) (steps : List (Step α)) : Tagging α := steps.foldl apply t

def AdmitsAll : Tagging α → List (Step α) → Prop
  | _, [] => True
  | t, s :: steps => t.Admits s ∧ (t.apply s).AdmitsAll steps

theorem IsOrderly.write {t : Tagging α} (h : t.IsOrderly) {w : Write α} (hw : w.region.OnGrid) :
    (t.write w).IsOrderly := by
  have hscattered := scattered_write h.scattered w
  refine ⟨hscattered, onGrid_iff.mpr fun p a hp => ?_⟩
  rw [← get?_eq_some_iff hscattered, get?_write h.scattered] at hp
  split at hp
  · next hregion => exact Region.onGrid_iff.mp hw p hregion
  · exact onGrid_iff.mp h.onGrid p a ((get?_eq_some_iff h.scattered).mp hp)

theorem IsOrderly.apply {t : Tagging α} (h : t.IsOrderly) {s : Step α} (hs : t.Admits s) :
    (t.apply s).IsOrderly := by
  cases s with
  | write w => exact h.write hs
  | edit e => exact ⟨scattered_edited h.scattered h.onGrid hs, onGrid_edited e h.onGrid⟩

theorem IsOrderly.after {t : Tagging α} (h : t.IsOrderly) {steps : List (Step α)}
    (hsteps : t.AdmitsAll steps) : (t.after steps).IsOrderly := by
  induction steps generalizing t with
  | nil => exact h
  | cons s steps ih => exact ih (h.apply hsteps.1) hsteps.2

/-- Whatever has been tagged, cleared and edited: if an edit pushes no region off the grid, then
still no two share a cell, and every cell that is kept has, where it comes to lie, the tag that it
had, as it has what was stored in it. If it pushes some off and still no two share a cell, then the
tags travel exactly where no cell of another tag is moved to the place of those. -/
theorem tags_travel (steps : List (Step α)) (h : empty.AdmitsAll steps) (e : Edit) :
    let t := empty.after steps
    Scattered t.entries ∧
    (t.HasRoom e → Scattered (t.edited e).entries ∧ t.Travels e) ∧
    (Scattered (t.edited e).entries → (t.Travels e ↔ t.CoversOwn e)) ∧
    ∀ {β : Type} (m : Matrix β) p q, e.position? p = some q → (m.edited e).get? q = m.get? p := by
  intro t
  have ht : t.IsOrderly := isOrderly_empty.after h
  refine ⟨ht.scattered, fun hroom => ?_, travels_iff ht.scattered ht.onGrid, ?_⟩
  · have hedited := scattered_edited ht.scattered ht.onGrid hroom
    exact ⟨hedited, (travels_iff ht.scattered ht.onGrid hedited).mpr
      fun f hf hfull => absurd (hroom f hf) hfull⟩
  · intro β m p q hpq
    ext a
    rw [Matrix.get?_edited]
    constructor
    · rintro ⟨p', hp', hpq'⟩
      rwa [Edit.position?_inj hpq hpq']
    · intro hp
      exact ⟨p, hp, hpq⟩

end

/-- A column with a hole in it, through an insertion above the hole and a removal. -/
theorem tags_travel_in_column :
    let steps : List (Step Nat) := [.write ⟨.wholeColumns (.single 1), some 7⟩,
      .write ⟨.cell ⟨4, 1⟩, none⟩, .edit (.insert .row 3 2)]
    empty.AdmitsAll steps ∧ (empty.after steps).HasRoom (.remove .row 1 3) ∧
      ((empty.after steps).edited (.remove .row 1 3)).get? ⟨3, 1⟩ = none ∧
      ((empty.after steps).edited (.remove .row 1 3)).get? ⟨4294967292, 1⟩ = some 7 := by
  intro steps
  have hadmits : empty.AdmitsAll steps := ⟨by decide, by decide, by decide +kernel, trivial⟩
  have hroom : (empty.after steps).HasRoom (.remove .row 1 3) := fun _ _ => trivial
  have htravels := ((tags_travel steps hadmits (.remove .row 1 3)).2.1 hroom).2
  exact ⟨hadmits, hroom,
    (htravels ⟨6, 1⟩ ⟨3, 1⟩ (by decide) (by decide)).trans (by decide +kernel),
    (htravels ⟨4294967295, 1⟩ ⟨4294967292, 1⟩ (by decide) (by decide)).trans (by decide +kernel)⟩

/-- The lower of two cells is pushed off the grid. Its tag stays on the last line, where the upper
one comes to lie. -/
theorem tag_left_on_last_line :
    let steps : List (Step Nat) :=
      [.write ⟨.cell ⟨4294967292, 0⟩, some 1⟩, .write ⟨.cell ⟨4294967290, 0⟩, some 2⟩]
    let t := empty.after steps
    let e : Edit := .insert .row 0 4
    ¬ t.Travels e ∧ ¬ Scattered (t.edited e).entries ∧
      e.position? ⟨4294967290, 0⟩ = some ⟨4294967294, 0⟩ ∧
      t.get? ⟨4294967290, 0⟩ = some 2 ∧ (t.edited e).get? ⟨4294967294, 0⟩ = some 1 ∧
      e.position? ⟨4294967292, 0⟩ = none := by
  intro steps t e
  have hbefore : t.get? ⟨4294967290, 0⟩ = some 2 := by decide +kernel
  have hafter : (t.edited e).get? ⟨4294967294, 0⟩ = some 1 := by decide +kernel
  refine ⟨fun htravels => ?_, by decide +kernel, by decide, hbefore, hafter, by decide⟩
  have hsame := htravels ⟨4294967290, 0⟩ ⟨4294967294, 0⟩ (by decide) (by decide)
  rw [hbefore, hafter] at hsame
  cases hsame

end Tagging

end Spreadsheet
