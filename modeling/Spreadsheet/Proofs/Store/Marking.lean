import Mathlib.Data.List.Induction
import Mathlib.Data.List.Pairwise
import Mathlib.Data.List.Perm.Basic
import Spreadsheet.Proofs.Grid.Cutting
import Spreadsheet.Proofs.Store.Joining

/-! Tags cell by cell. However the tagged regions have been cut and joined, a cell has the tag that
the last write to it left there: regions are first cut where a new one lies, then joined two at a
time in whatever order they are found, and neither step changes the tag of any other cell. -/

namespace Spreadsheet.Tagging

variable {α : Type}

/-- An entry puts the tag on the cell. -/
def Holds (entries : List (Region × α)) (p : Position) (a : α) : Prop :=
  ∃ r, (r, a) ∈ entries ∧ r.contains p = true

/-- No cell lies in the regions of two entries. -/
def Scattered (entries : List (Region × α)) : Prop :=
  entries.Pairwise fun e f => e.1.Disjoint f.1

instance (entries : List (Region × α)) : Decidable (Scattered entries) :=
  inferInstanceAs (Decidable (entries.Pairwise fun e f => e.1.Disjoint f.1))

/-! ## One tag for each cell -/

theorem Scattered.eq_of_contains {entries : List (Region × α)} {e f : Region × α} {p : Position}
    (h : Scattered entries) (he : e ∈ entries) (hf : f ∈ entries) (hep : e.1.contains p = true)
    (hfp : f.1.contains p = true) : e = f := by
  by_contra hne
  have hsymm : Std.Symm fun e f : Region × α => e.1.Disjoint f.1 := ⟨fun _ _ => Region.Disjoint.symm⟩
  have hdisjoint : e.1.Disjoint f.1 := List.Pairwise.forall h he hf hne
  rw [hdisjoint p hep] at hfp
  cases hfp

theorem get?_eq_some_iff {t : Tagging α} {p : Position} {a : α} (h : Scattered t.entries) :
    t.get? p = some a ↔ Holds t.entries p a := by
  unfold get?
  constructor
  · intro hget
    obtain ⟨e, hfind, rfl⟩ := Option.map_eq_some_iff.mp hget
    have hp := List.find?_some hfind
    exact ⟨e.1, List.mem_of_find?_eq_some hfind, hp⟩
  · rintro ⟨r, hmem, hp⟩
    have hfound : (t.entries.find? fun e => e.1.contains p).isSome = true :=
      List.find?_isSome.mpr ⟨(r, a), hmem, hp⟩
    obtain ⟨e, hfind⟩ := Option.isSome_iff_exists.mp hfound
    have hep := List.find?_some hfind
    rw [hfind, h.eq_of_contains (List.mem_of_find?_eq_some hfind) hmem hep hp]
    rfl

theorem holds_nil {p : Position} {a : α} : ¬ Holds [] p a := by
  rintro ⟨r, hmem, -⟩
  cases hmem

theorem holds_append {entries more : List (Region × α)} {p : Position} {a : α} :
    Holds (entries ++ more) p a ↔ Holds entries p a ∨ Holds more p a := by
  simp only [Holds, List.mem_append, or_and_right, exists_or]

theorem holds_cons {e : Region × α} {entries : List (Region × α)} {p : Position} {a : α} :
    Holds (e :: entries) p a ↔ (e.1.contains p = true ∧ e.2 = a) ∨ Holds entries p a := by
  unfold Holds
  constructor
  · rintro ⟨r, hmem, hp⟩
    rcases List.mem_cons.mp hmem with rfl | hmem
    · exact .inl ⟨hp, rfl⟩
    · exact .inr ⟨r, hmem, hp⟩
  · rintro (⟨hp, rfl⟩ | ⟨r, hmem, hp⟩)
    · exact ⟨e.1, List.mem_cons_self, hp⟩
    · exact ⟨r, List.mem_cons_of_mem _ hmem, hp⟩

theorem Holds.perm {entries entries' : List (Region × α)} {p : Position} {a : α}
    (h : entries.Perm entries') : Holds entries p a ↔ Holds entries' p a := by
  simp only [Holds, h.mem_iff]

theorem Scattered.perm {entries entries' : List (Region × α)} (h : Scattered entries)
    (hperm : entries.Perm entries') : Scattered entries' :=
  hperm.pairwise h Region.Disjoint.symm

/-! ## Cutting -/

theorem mem_carve {entries : List (Region × α)} {r piece : Region} {a : α} :
    (piece, a) ∈ carve entries r ↔ ∃ s, (s, a) ∈ entries ∧ piece ∈ s.subtract r := by
  unfold carve
  simp only [List.mem_flatMap, List.mem_map, Prod.exists, Prod.mk.injEq]
  constructor
  · rintro ⟨s, b, hmem, piece, hpiece, rfl, rfl⟩
    exact ⟨s, hmem, hpiece⟩
  · rintro ⟨s, hmem, hpiece⟩
    exact ⟨s, a, hmem, piece, hpiece, rfl, rfl⟩

theorem holds_carve {entries : List (Region × α)} {r : Region} {p : Position} {a : α} :
    Holds (carve entries r) p a ↔ Holds entries p a ∧ r.contains p = false := by
  unfold Holds
  simp only [mem_carve]
  constructor
  · rintro ⟨piece, ⟨s, hmem, hpiece⟩, hp⟩
    obtain ⟨hs, hr⟩ := (Region.exists_mem_subtract_iff s r p).mp ⟨piece, hpiece, hp⟩
    exact ⟨⟨s, hmem, hs⟩, hr⟩
  · rintro ⟨⟨s, hmem, hs⟩, hr⟩
    obtain ⟨piece, hpiece, hp⟩ := (Region.exists_mem_subtract_iff s r p).mpr ⟨hs, hr⟩
    exact ⟨piece, ⟨s, hmem, hpiece⟩, hp⟩

theorem Scattered.carve {entries : List (Region × α)} (h : Scattered entries) (r : Region) :
    Scattered (carve entries r) := by
  refine List.pairwise_flatMap.mpr ⟨fun e _ => ?_, h.imp fun {e f} hef => ?_⟩
  · exact List.pairwise_map.mpr (Region.subtract_disjoint e.1 r)
  · intro x hx y hy
    obtain ⟨piece, hpiece, rfl⟩ := List.mem_map.mp hx
    obtain ⟨piece', hpiece', rfl⟩ := List.mem_map.mp hy
    exact hef.mono
      (fun p hp => ((Region.exists_mem_subtract_iff e.1 r p).mp ⟨piece, hpiece, hp⟩).1)
      (fun p hp => ((Region.exists_mem_subtract_iff f.1 r p).mp ⟨piece', hpiece', hp⟩).1)

/-! ## Joining -/

/-- Two of the entries have become one. -/
inductive Joins (entries fewer : List (Region × α)) : Prop
  | join {e f : Region × α} {r : Region} {rest : List (Region × α)}
    (before : entries.Perm (e :: f :: rest)) (tag : e.2 = f.2) (merged : e.1.merged? f.1 = some r)
    (after : fewer.Perm ((r, e.2) :: rest))

namespace Joins

variable {entries fewer : List (Region × α)}

theorem holds (h : Joins entries fewer) {p : Position} {a : α} :
    Holds fewer p a ↔ Holds entries p a := by
  obtain ⟨before, tag, merged, after⟩ := h
  rw [Holds.perm before, Holds.perm after, holds_cons, holds_cons, holds_cons,
    Region.contains_of_merged? merged p, ← tag, or_and_right, or_assoc]

theorem scattered (h : Joins entries fewer) (hentries : Scattered entries) : Scattered fewer := by
  obtain ⟨before, tag, merged, after⟩ := h
  have hbefore := hentries.perm before
  unfold Scattered at hbefore
  simp only [List.pairwise_cons, List.mem_cons, forall_eq_or_imp] at hbefore
  obtain ⟨⟨-, he⟩, hf, hrest⟩ := hbefore
  refine Scattered.perm (List.pairwise_cons.mpr ⟨fun g hg p hp => ?_, hrest⟩) after.symm
  obtain hp | hp := (Region.contains_of_merged? merged p).mp hp
  · exact he g hg p hp
  · exact hf g hg p hp

theorem cons (h : Joins entries fewer) (g : Region × α) : Joins (g :: entries) (g :: fewer) := by
  obtain ⟨before, tag, merged, after⟩ := h
  have hlast {l : List (Region × α)} : (g :: l).Perm (l ++ [g]) :=
    (List.perm_append_singleton g l).symm
  exact ⟨hlast.trans (before.append_right [g]), tag, merged, hlast.trans (after.append_right [g])⟩

end Joins

/-- The last entry fills the gap. -/
theorem dropAt_concat (init : List (Region × α)) (e : Region × α) (i : Nat) :
    dropAt (init ++ [e]) i = init.set i e := by
  unfold dropAt
  rw [List.getLast?_concat]
  dsimp only
  by_cases hi : i < init.length
  · rw [List.set_append_left _ _ hi, List.dropLast_concat]
  · -- The last entry takes its own place.
    have hset : (init ++ [e]).set i e = init ++ [e] := by
      rw [List.set_append_right _ _ (by omega)]
      cases i - init.length <;> rfl
    rw [hset, List.dropLast_concat, List.set_eq_of_length_le (by omega)]

theorem dropAt_perm {entries : List (Region × α)} {i : Nat} {f : Region × α}
    (h : entries[i]? = some f) : entries.Perm (f :: dropAt entries i) := by
  rcases entries.eq_nil_or_concat with rfl | ⟨init, e, rfl⟩
  · cases h
  rw [List.concat_eq_append] at h ⊢
  rw [dropAt_concat]
  by_cases hi : i < init.length
  · rw [List.getElem?_append_left hi, List.getElem?_eq_getElem hi] at h
    cases h
    calc (init ++ [e]).Perm (e :: init) := List.perm_append_singleton e init
      List.Perm _ (e :: init[i] :: init.eraseIdx i) :=
        (List.getElem_cons_eraseIdx_perm hi).symm.cons e
      List.Perm _ (init[i] :: e :: init.eraseIdx i) := .swap ..
      List.Perm _ (init[i] :: init.set i e) := (List.set_perm_cons_eraseIdx hi e).symm.cons _
  · rw [List.getElem?_append_right (by omega), List.getElem?_singleton] at h
    obtain ⟨-, hf⟩ := Option.ite_none_right_eq_some.mp h
    cases hf
    rw [List.set_eq_of_length_le (by omega)]
    exact List.perm_append_singleton _ init

section
variable [DecidableEq α]

theorem partner?_eq_some {e : Region × α} {entries : List (Region × α)} {i : Nat} {r : Region}
    (h : partner? e entries = some (i, r)) :
    ∃ f, entries[i]? = some f ∧ e.2 = f.2 ∧ e.1.merged? f.1 = some r := by
  induction entries generalizing i with
  | nil => cases h
  | cons f rest ih =>
    unfold partner? at h
    split at h
    · next hmerged =>
      cases h
      exact ⟨f, rfl, Option.ite_none_right_eq_some.mp hmerged⟩
    · obtain ⟨⟨j, r'⟩, hfound, heq⟩ := Option.map_eq_some_iff.mp h
      cases heq
      exact ih hfound

theorem joins_of_joinFirst? {entries fewer : List (Region × α)}
    (h : joinFirst? entries = some fewer) : Joins entries fewer := by
  induction entries generalizing fewer with
  | nil => cases h
  | cons e rest ih =>
    unfold joinFirst? at h
    split at h
    · next i r hpartner =>
      cases h
      obtain ⟨f, hf, htag, hmerged⟩ := partner?_eq_some hpartner
      exact ⟨(dropAt_perm hf).cons e, htag, hmerged, .refl _⟩
    · obtain ⟨fewer', hfewer, rfl⟩ := Option.map_eq_some_iff.mp h
      exact (ih hfewer).cons e

/-- What every joining of two entries keeps, joining all of them keeps. -/
theorem joinAll_induction {P : List (Region × α) → Prop}
    (step : ∀ entries fewer, Joins entries fewer → P entries → P fewer) (steps : Nat)
    {entries : List (Region × α)} (h : P entries) : P (joinAll steps entries) := by
  induction steps generalizing entries with
  | zero => exact h
  | succ steps ih =>
    unfold joinAll
    split
    · next fewer hfirst => exact ih (step _ _ (joins_of_joinFirst? hfirst) h)
    · exact h

theorem scattered_ofEntries {entries : List (Region × α)} (h : Scattered entries) :
    Scattered (ofEntries entries).entries := joinAll_induction (fun _ _ => Joins.scattered) _ h

theorem holds_ofEntries (entries : List (Region × α)) (p : Position) (a : α) :
    Holds (ofEntries entries).entries p a ↔ Holds entries p a :=
  joinAll_induction (P := fun fewer => Holds fewer p a ↔ Holds entries p a)
    (fun _ _ hjoins h => hjoins.holds.trans h) _ Iff.rfl

end

/-! ## Writing -/

/-- A region to tag anew, or to take the tags off. -/
structure Write (α : Type) where
  region : Region
  tag? : Option α

/-- The tag that the last write to a cell left there. -/
def lastTag? (ws : List (Write α)) (p : Position) : Option α :=
  (ws.reverse.find? fun w => w.region.contains p).bind (·.tag?)

theorem lastTag?_concat (ws : List (Write α)) (w : Write α) (p : Position) :
    lastTag? (ws ++ [w]) p = if w.region.contains p = true then w.tag? else lastTag? ws p := by
  unfold lastTag?
  rw [List.reverse_concat, List.find?_cons]
  cases w.region.contains p <;> rfl

section
variable [DecidableEq α]

def write (t : Tagging α) (w : Write α) : Tagging α :=
  match w.tag? with
  | some tag => t.add w.region tag
  | none => t.clear w.region

/-- What the writes leave, one after another, on a grid without tags. -/
def written (ws : List (Write α)) : Tagging α := ws.foldl write empty

theorem scattered_write {t : Tagging α} (h : Scattered t.entries) (w : Write α) :
    Scattered (t.write w).entries := by
  unfold write
  cases w.tag? with
  | none => exact scattered_ofEntries (h.carve w.region)
  | some tag =>
    refine scattered_ofEntries (List.pairwise_append.mpr
      ⟨h.carve w.region, List.pairwise_singleton _ _, fun e he f hf p hp => ?_⟩)
    rw [List.mem_singleton] at hf
    cases hf
    exact (holds_carve.mp ⟨e.1, he, hp⟩).2

/-- A write gives its tag to the cells of its region, and no other. -/
theorem get?_write {t : Tagging α} (h : Scattered t.entries) (w : Write α) (p : Position) :
    (t.write w).get? p = if w.region.contains p = true then w.tag? else t.get? p := by
  ext a
  rw [get?_eq_some_iff (scattered_write h w)]
  unfold write
  cases w.tag? with
  | none =>
    unfold clear
    rw [holds_ofEntries, holds_carve, ← get?_eq_some_iff h]
    cases w.region.contains p <;> simp
  | some tag =>
    unfold add
    rw [holds_ofEntries, holds_append, holds_carve, ← get?_eq_some_iff h, holds_cons]
    cases w.region.contains p <;> simp [holds_nil]

theorem scattered_written (ws : List (Write α)) : Scattered (written ws).entries := by
  unfold written
  induction ws using List.reverseRecOn with
  | nil => exact List.Pairwise.nil
  | append_singleton ws w ih =>
    rw [List.foldl_concat]
    exact scattered_write ih w

theorem get?_written (ws : List (Write α)) (p : Position) : (written ws).get? p = lastTag? ws p := by
  induction ws using List.reverseRecOn with
  | nil => rfl
  | append_singleton ws w ih =>
    rw [lastTag?_concat, ← ih, ← get?_write (scattered_written ws)]
    unfold written
    rw [List.foldl_concat]

theorem isJoined_written (ws : List (Write α)) : (written ws).IsJoined := by
  unfold written
  induction ws using List.reverseRecOn with
  | nil => exact isJoined_empty
  | append_singleton ws w ih =>
    rw [List.foldl_concat, write]
    cases w.tag? with
    | none => exact isJoined_ofEntries _
    | some tag => exact isJoined_ofEntries _

end

/-! ## Looking up -/

theorem mem_within {t : Tagging α} {q piece : Region} {a : α} :
    (piece, a) ∈ t.within q ↔ ∃ r, (r, a) ∈ t.entries ∧ r.meet? q = some piece := by
  unfold within
  simp only [List.mem_filterMap, Option.map_eq_some_iff, Prod.exists, Prod.mk.injEq]
  constructor
  · rintro ⟨r, b, hmem, cut, hcut, rfl, rfl⟩
    exact ⟨r, hmem, hcut⟩
  · rintro ⟨r, hmem, hcut⟩
    exact ⟨r, a, hmem, piece, hcut, rfl, rfl⟩

theorem holds_within {t : Tagging α} {q : Region} {p : Position} {a : α} :
    Holds (t.within q) p a ↔ q.contains p = true ∧ Holds t.entries p a := by
  unfold Holds
  simp only [mem_within]
  constructor
  · rintro ⟨piece, ⟨r, hmem, hmeet⟩, hp⟩
    rw [Region.contains_of_meet? hmeet, Bool.and_eq_true] at hp
    exact ⟨hp.2, r, hmem, hp.1⟩
  · rintro ⟨hq, r, hmem, hr⟩
    cases hmeet : r.meet? q with
    | none =>
      rw [Region.meet?_eq_none.mp hmeet p hr] at hq
      cases hq
    | some piece =>
      refine ⟨piece, ⟨r, hmem, hmeet⟩, ?_⟩
      rw [Region.contains_of_meet? hmeet, hr, hq, Bool.true_and]

theorem Scattered.within {t : Tagging α} (h : Scattered t.entries) (q : Region) :
    Scattered (t.within q) := by
  refine h.filterMap _ fun e f hef x hx y hy => ?_
  obtain ⟨cut, hcut, rfl⟩ := Option.map_eq_some_iff.mp hx
  obtain ⟨cut', hcut', rfl⟩ := Option.map_eq_some_iff.mp hy
  refine hef.mono (fun p hp => ?_) (fun p hp => ?_)
  · rw [Region.contains_of_meet? hcut, Bool.and_eq_true] at hp
    exact hp.1
  · rw [Region.contains_of_meet? hcut', Bool.and_eq_true] at hp
    exact hp.1

/-- Whatever is tagged and cleared in whatever order: the stored regions share no cell, each cell
has the tag of the last write to it, what is found in a region is its tagged cells with their tags,
each in one piece, and no two stored regions of one tag form a larger one. -/
theorem last_write_counts [DecidableEq α] (ws : List (Write α)) :
    Scattered (written ws).entries ∧
    (∀ p, (written ws).get? p = lastTag? ws p) ∧
    (∀ q, Scattered ((written ws).within q) ∧
      (∀ e ∈ (written ws).within q, q.covers e.1 = true) ∧
      ∀ p a, Holds ((written ws).within q) p a ↔ q.contains p = true ∧ lastTag? ws p = some a) ∧
    (written ws).entries.Pairwise fun e f =>
      e.2 = f.2 → e.1.merged? f.1 = none ∧ f.1.merged? e.1 = none := by
  refine ⟨scattered_written ws, get?_written ws, fun q => ⟨(scattered_written ws).within q, ?_, ?_⟩,
    ?_⟩
  · intro e he
    obtain ⟨r, -, hmeet⟩ := mem_within.mp he
    exact (Region.covers_of_meet? hmeet).2
  · intro p a
    rw [holds_within, ← get?_eq_some_iff (scattered_written ws), get?_written]
  · refine (isJoined_written ws).imp fun {e f} h htag => ?_
    have hnone := Option.isNone_iff_eq_none.mp (Option.isSome_eq_false_iff.mp (h htag))
    exact ⟨hnone, (Region.merged?_comm ..).trans hnone⟩

end Spreadsheet.Tagging
