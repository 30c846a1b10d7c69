import Spreadsheet.Proofs.Dependency.Cycle
import Spreadsheet.Proofs.Dependency.Sorting

/-! What a search for a way back answers. The vertices on the way so far lead from one to the next
against the edges, and all of them have been met; as the search goes on with a vertex only when it
is met for the first time, none is on the way twice. A vertex that was given up is not tried again,
and need not be: all it leads to has been met too, and the start is not among it. -/

namespace Spreadsheet.Graph

variable {V : Type} [Ord V] [Std.TransOrd V]

/-- From the start against the edges back to it, with no vertex twice on the way. -/
structure IsCycleThrough (g : Graph V) (start : V) (path : List V) : Prop where
  ends : ∃ inner, path = start :: (inner ++ [start]) ∧ (start :: inner).Nodup
  reads : path.IsChain fun v u => g.Edge u v

/-- The way from the start to the latest vertex, which stands first; all of it has been met. -/
structure IsWay (g : Graph V) (start : V) (seen : Std.ExtTreeSet V) (path : List V) : Prop where
  last : path.getLast? = some start
  nodup : path.Nodup
  met : ∀ v ∈ path, v = start ∨ v ∈ seen
  reads : path.IsChain g.Edge

variable {g : Graph V} {start v : V} {seen seen' : Std.ExtTreeSet V} {path : List V}

theorem isWay_start : g.IsWay start ∅ [start] where
  last := rfl
  nodup := List.nodup_singleton start
  met _ hv := Or.inl (List.mem_singleton.mp hv)
  reads := List.isChain_singleton start

namespace IsWay

theorem mono (h : g.IsWay start seen path) (hmono : ∀ x ∈ seen, x ∈ seen') :
    g.IsWay start seen' path :=
  { h with met := fun x hx => (h.met x hx).imp_right (hmono x) }

theorem cons {u : V} (h : g.IsWay start seen (v :: path)) (he : g.Edge u v) (hstart : u ≠ start)
    (hnew : u ∉ seen) : g.IsWay start (seen.insert u) (u :: v :: path) where
  last := h.last
  nodup := List.nodup_cons.mpr ⟨fun hu => (h.met u hu).elim hstart hnew, h.nodup⟩
  met x hx := by
    obtain rfl | hx := List.mem_cons.mp hx
    · exact Or.inr Std.ExtTreeSet.mem_insert_self
    · exact (h.met x hx).imp_right fun hm => Std.ExtTreeSet.mem_insert.mpr (Or.inr hm)
  reads := h.reads.cons_cons he

/-- Where the latest vertex reads the start, the way is closed. -/
theorem isCycleThrough (h : g.IsWay start seen (v :: path)) (he : g.Edge start v) :
    g.IsCycleThrough start (start :: v :: path).reverse where
  ends := by
    obtain ⟨inner, hpath⟩ := List.getLast?_eq_some_iff.mp h.last
    have hnodup : (inner ++ [start]).reverse.Nodup := List.nodup_reverse.mpr (hpath ▸ h.nodup)
    rw [List.reverse_concat] at hnodup
    refine ⟨inner.reverse, ?_, hnodup⟩
    rw [List.reverse_cons, hpath, List.reverse_concat, List.cons_append]
  reads := List.isChain_reverse.mpr (h.reads.cons_cons he)

end IsWay

variable [Std.LawfulEqOrd V] [DecidableEq V]

/-! ## Steps of the search -/

omit [Std.LawfulEqOrd V] in
/-- What has been met stays so. -/
theorem subset_of_seekNext {depth : Nat}
    (hseek : ∀ {seen seen' : Std.ExtTreeSet V},
      g.seek start depth (v :: path) seen v = .ok seen' → ∀ x ∈ seen, x ∈ seen')
    (h : g.seekNext start depth path seen v = .ok seen') : ∀ x ∈ seen, x ∈ seen' := by
  unfold seekNext at h
  split at h
  · cases h
  · split at h
    · cases h
      exact fun x hx => hx
    · exact fun x hx => hseek h x (Std.ExtTreeSet.mem_insert.mpr (Or.inr hx))

omit [Std.LawfulEqOrd V] in
theorem subset_of_seek {depth : Nat} : ∀ {path : List V} {v : V} {seen seen' : Std.ExtTreeSet V},
    g.seek start depth path seen v = .ok seen' → ∀ x ∈ seen, x ∈ seen' := by
  induction depth with
  | zero =>
    intro path v seen seen' h
    cases h
    exact fun x hx => hx
  | succ depth ih =>
    intro path v seen seen' h x hx
    rw [seek_succ] at h
    exact of_foldlM_eq_ok (P := (x ∈ ·)) hx
      (fun _ _ _ _ hs hnext => subset_of_seekNext ih hnext x hs) h

/-- A search that fails has closed its way. -/
theorem isCycleThrough_of_seek {depth : Nat} :
    ∀ {path : List V} {v : V} {seen : Std.ExtTreeSet V} {cycle : List V},
      g.IsWay start seen (v :: path) → g.seek start depth (v :: path) seen v = .error cycle →
        g.IsCycleThrough start cycle := by
  induction depth with
  | zero =>
    intro path v seen cycle _ h
    cases h
  | succ depth ih =>
    intro path v seen cycle hway h
    rw [seek_succ] at h
    obtain ⟨u, hu, s, hs, hfails⟩ := exists_step_of_foldlM_eq_error
      (P := (g.IsWay start · (v :: path))) hway
      (fun _ _ _ _ hs hnext => hs.mono (subset_of_seekNext subset_of_seek hnext)) h
    have he : g.Edge u v := mem_precedentsOf.mp hu
    unfold seekNext at hfails
    split at hfails
    · next hstart =>
      cases hfails
      subst hstart
      exact hs.isCycleThrough he
    · next hstart =>
      split at hfails
      · cases hfails
      · next hnew => exact ih (hs.cons he hstart (by simpa using hnew)) hfails

/-- A search that may go deeper than there are vertices left to meet does not do so. -/
theorem seek_deeper (hg : g.Mirrored) (depth : Nat) :
    ∀ (path : List V) (seen : Std.ExtTreeSet V) (v : V), g.missing seen.contains < depth →
      g.seek start (depth + 1) path seen v = g.seek start depth path seen v := by
  induction depth with
  | zero => exact fun _ _ _ h => absurd h (Nat.not_lt_zero _)
  | succ depth ih =>
    intro path seen v hdepth
    rw [seek_succ, seek_succ]
    refine foldlM_congr_of (P := fun s => g.missing s.contains ≤ depth) (Nat.le_of_lt_succ hdepth)
      (fun u _ s s' hs hnext => ?_) fun u hu s hs => ?_
    · have hsubset := subset_of_seekNext subset_of_seek hnext
      refine (g.missing_mono fun x hx => ?_).trans hs
      exact Std.ExtTreeSet.contains_iff_mem.mpr (hsubset x (Std.ExtTreeSet.contains_iff_mem.mp hx))
    · unfold seekNext
      by_cases hstart : u = start
      · rw [if_pos hstart, if_pos hstart]
      by_cases hmet : s.contains u
      · rw [if_neg hstart, if_neg hstart, if_pos hmet, if_pos hmet]
      rw [if_neg hstart, if_neg hstart, if_neg hmet, if_neg hmet]
      have hvertex : g.contains u = true := hg.source_mem (mem_precedentsOf.mp hu)
      have hlt := g.missing_lt (a := s.contains) (b := (s.insert u).contains) hvertex
        (Bool.eq_false_iff.mpr hmet) (by simp) fun x hx => by simp_all
      exact ih (u :: path) (s.insert u) u (Nat.lt_of_lt_of_le hlt hs)

/-! ## The answer -/

/-- In a graph that is built by any changes, and has any cycles, the search finds a way from a
vertex back to it exactly if there is one, and answers one that meets no vertex twice. It comes to
its end: to let it go deeper than there are vertices changes nothing. -/
theorem cycle_search_exact (us : List (Update V)) (start : V) :
    let g := empty.after us
    ((∃ path, g.cycleFrom? start = some path) ↔ Relation.TransGen g.Edge start start) ∧
    (∀ path, g.cycleFrom? start = some path → g.IsCycleThrough start path) ∧
    ∀ depth, g.size + 1 ≤ depth →
      g.seek start depth [start] ∅ start = g.seek start (g.size + 1) [start] ∅ start := by
  intro g
  have hg : g.Mirrored := mirrored_empty.after us
  refine ⟨?_, fun path hpath => ?_, fun depth hdepth => ?_⟩
  · rw [← Option.isSome_iff_exists]
    exact cycleFrom?_isSome hg
  · unfold cycleFrom? at hpath
    split at hpath
    · cases hpath
    · next hfails =>
      cases hpath
      exact isCycleThrough_of_seek isWay_start hfails
  · induction depth, hdepth using Nat.le_induction with
    | base => rfl
    | succ depth hdepth ih =>
      have hmissing := g.missing_le_size (∅ : Std.ExtTreeSet V).contains
      rw [seek_deeper hg depth [start] ∅ start (by omega), ih]

/-- A way back that passes a cycle it is not part of, and a vertex from which that cycle is all that
can be met. -/
theorem cycle_search_exact_past_other_cycle :
    let us : List (Update Nat) :=
      [.addEdges [2, 7] 1, .addEdges [3] 2, .addEdges [2, 4] 3, .addEdges [1] 4, .addEdges [8] 7,
        .addEdges [7] 8, .addEdges [7] 9]
    let g := empty.after us
    (g.cycleFrom? 1 = some [1, 2, 3, 4, 1] ∧ g.IsCycleThrough 1 [1, 2, 3, 4, 1]) ∧
      g.cycleFrom? 9 = none ∧ ¬ Relation.TransGen g.Edge 9 9 := by
  intro us g
  have hfound : g.cycleFrom? 1 = some [1, 2, 3, 4, 1] := by decide +kernel
  have hnone : g.cycleFrom? 9 = none := by decide +kernel
  obtain ⟨-, hcycle, -⟩ := cycle_search_exact us 1
  obtain ⟨hiff, -, -⟩ := cycle_search_exact us 9
  refine ⟨⟨hfound, hcycle _ hfound⟩, hnone, fun hback => ?_⟩
  obtain ⟨path, hpath⟩ := hiff.mpr hback
  exact nomatch hnone.symm.trans hpath

end Spreadsheet.Graph
