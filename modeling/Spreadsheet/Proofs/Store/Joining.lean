import Mathlib.Data.List.Basic
import Spreadsheet.Proofs.Grid.Undoing
import Spreadsheet.Store.Tagging

/-! Tags after joining. What is left of the entries is apart: no two regions of one tag form a
larger one. Entries that are apart are left as they are, so the order in which others would be
joined does not matter for them. An insertion that pushes no region off the grid leaves them apart,
and to remove the lines again gives the same entries. -/

namespace Spreadsheet.Tagging

variable {α : Type}

/-- The regions of the entries do not form a larger one of one tag. -/
def Apart (e f : Region × α) : Prop := e.2 = f.2 → (e.1.merged? f.1).isSome = false

/-- No two entries can be joined. -/
def IsJoined (t : Tagging α) : Prop := t.entries.Pairwise Apart

theorem length_dropAt {entries : List (Region × α)} {i : Nat} (h : entries ≠ []) :
    (dropAt entries i).length + 1 = entries.length := by
  unfold dropAt
  cases hlast : entries.getLast? with
  | none => exact absurd (List.getLast?_eq_none_iff.mp hlast) h
  | some e =>
    have hpos := List.length_pos_iff.mpr h
    dsimp only
    rw [List.length_dropLast, List.length_set]
    omega

theorem isJoined_empty : (empty : Tagging α).IsJoined := List.Pairwise.nil

variable [DecidableEq α]

theorem partner?_eq_none {e : Region × α} {entries : List (Region × α)} :
    partner? e entries = none ↔ ∀ f ∈ entries, Apart e f := by
  induction entries with
  | nil => simp [partner?]
  | cons f rest ih =>
    have hapart : Apart e f ↔ (if e.2 = f.2 then e.1.merged? f.1 else none) = none := by
      unfold Apart
      split
      · next htag => simp [htag]
      · next htag => simp [htag]
    rw [List.forall_mem_cons, hapart, ← ih, partner?]
    cases (if e.2 = f.2 then e.1.merged? f.1 else none) with
    | some r => simp
    | none => simp

/-- There is nothing left to join exactly if all entries are apart. -/
theorem joinFirst?_eq_none {entries : List (Region × α)} :
    joinFirst? entries = none ↔ entries.Pairwise Apart := by
  induction entries with
  | nil => simp [joinFirst?]
  | cons e rest ih =>
    rw [List.pairwise_cons, ← partner?_eq_none, ← ih, joinFirst?]
    cases partner? e rest with
    | some found => simp
    | none => simp

/-- A step joins two entries into one. -/
theorem length_joinFirst? {entries fewer : List (Region × α)} (h : joinFirst? entries = some fewer) :
    fewer.length + 1 = entries.length := by
  induction entries generalizing fewer with
  | nil => cases h
  | cons e rest ih =>
    unfold joinFirst? at h
    cases hpartner : partner? e rest with
    | some found =>
      have hrest : rest ≠ [] := by
        intro hnil
        rw [hnil] at hpartner
        cases hpartner
      rw [hpartner] at h
      cases h
      exact congrArg (· + 1) (length_dropAt hrest)
    | none =>
      rw [hpartner] at h
      obtain ⟨fewer', hfewer, rfl⟩ := Option.map_eq_some_iff.mp h
      exact congrArg (· + 1) (ih hfewer)

theorem pairwise_joinAll {steps : Nat} {entries : List (Region × α)} (h : entries.length ≤ steps) :
    (joinAll steps entries).Pairwise Apart := by
  induction steps generalizing entries with
  | zero =>
    rw [List.eq_nil_of_length_eq_zero (Nat.le_zero.mp h)]
    exact List.Pairwise.nil
  | succ steps ih =>
    unfold joinAll
    cases hjoin : joinFirst? entries with
    | none => exact joinFirst?_eq_none.mp hjoin
    | some fewer =>
      have hlength := length_joinFirst? hjoin
      exact ih (by omega)

theorem isJoined_ofEntries (entries : List (Region × α)) : (ofEntries entries).IsJoined :=
  pairwise_joinAll (Nat.le_refl _)

/-- Entries that are apart are left as they are. -/
theorem ofEntries_eq {entries : List (Region × α)} (h : entries.Pairwise Apart) :
    ofEntries entries = ⟨entries⟩ := by
  unfold ofEntries
  congr 1
  cases hlength : entries.length with
  | zero => rfl
  | succ steps =>
    unfold joinAll
    rw [joinFirst?_eq_none.mpr h]

/-- To remove lines that have just come in undoes their insertion, as long as nothing was pushed off
the grid. -/
theorem edited_edited {t : Tagging α} {axis : Axis} {start count : Nat} (ht : t.IsJoined)
    (h : ∀ e ∈ t.entries, (e.1.span axis).Recovers start count) :
    (t.edited (.insert axis start count)).edited (.remove axis start count) = t := by
  have hinsert : t.edited (.insert axis start count) =
      ⟨t.entries.map fun e => (e.1.afterInsert axis start count, e.2)⟩ := by
    show ofEntries (t.entries.filterMap fun e =>
      some (e.1.afterInsert axis start count, e.2)) = _
    rw [List.filterMap_eq_map']
    refine ofEntries_eq (List.pairwise_map.mpr (ht.imp_of_mem fun he hf hapart htag => ?_))
    exact Bool.eq_false_iff.mpr fun hmerged => by
      have hbefore := Region.merged?_of_afterInsert (h _ he) (h _ hf) hmerged
      rw [hapart htag] at hbefore
      cases hbefore
  have hremove : (t.entries.map fun e => (e.1.afterInsert axis start count, e.2)).filterMap
      (fun e => (e.1.afterRemove? axis start count).map fun r => (r, e.2)) = t.entries := by
    rw [List.filterMap_map]
    refine (List.filterMap_congr fun e he => ?_).trans List.filterMap_some
    show ((e.1.afterInsert axis start count).afterRemove? axis start count).map _ = _
    rw [Region.afterRemove?_afterInsert (h e he)]
    rfl
  rw [hinsert]
  show ofEntries ((t.entries.map fun e => (e.1.afterInsert axis start count, e.2)).filterMap
    fun e => (e.1.afterRemove? axis start count).map fun r => (r, e.2)) = t
  rw [hremove, ofEntries_eq ht]

end Spreadsheet.Tagging
