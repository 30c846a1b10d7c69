import Spreadsheet.Proofs.Dependency.Reach

/-! The search for a way back to a vertex. Like the walk to the dependents it marks what it meets,
so it is never cut short; it fails exactly where the vertex lies on a cycle. -/

namespace Spreadsheet.Graph

variable {V : Type} [Ord V] [Std.TransOrd V] [Std.LawfulEqOrd V] [DecidableEq V]

/-- The search that had met `seen` now has met `seen'`. What the vertices in `next` read, and what
all read that was met in between, is not the start and has been met. -/
structure Sought (g : Graph V) (start : V) (seen : Std.ExtTreeSet V) (next : List V)
    (seen' : Std.ExtTreeSet V) : Prop where
  mono : ∀ x ∈ seen, x ∈ seen'
  next : ∀ x ∈ next, x ≠ start ∧ x ∈ seen'
  closed : ∀ x ∈ seen', x ∉ seen → ∀ y, g.Edge y x → y ≠ start ∧ y ∈ seen'

/-- What is known after a search: how far it came, or that there is a way from the start. -/
def Sought.Result (g : Graph V) (start : V) (seen : Std.ExtTreeSet V) (next : List V) :
    Except (List V) (Std.ExtTreeSet V) → Prop
  | .ok seen' => g.Sought start seen next seen'
  | .error _ => ∃ v ∈ next, Relation.ReflTransGen g.Edge start v

omit [Std.LawfulEqOrd V] [DecidableEq V] in
theorem Sought.cons {g : Graph V} {start v : V} {s s' s'' : Std.ExtTreeSet V} {vs : List V}
    (h : g.Sought start s [v] s') (h' : g.Sought start s' vs s'') :
    g.Sought start s (v :: vs) s'' where
  mono x hx := h'.mono x (h.mono x hx)
  next x hx := by
    rcases List.mem_cons.mp hx with rfl | hx
    · obtain ⟨hne, hm⟩ := h.next x (List.mem_singleton_self x)
      exact ⟨hne, h'.mono x hm⟩
    · exact h'.next x hx
  closed x hx hs y hy := by
    by_cases hx' : x ∈ s'
    · obtain ⟨hne, hm⟩ := h.closed x hx' hs y hy
      exact ⟨hne, h'.mono y hm⟩
    · exact h'.closed x hx hx' y hy

omit [DecidableEq V] in
/-- What a vertex reads is searched with the vertex marked. -/
theorem Sought.of_precedents {g : Graph V} {start v : V} {s s' : Std.ExtTreeSet V}
    (hv : v ≠ start) (h : g.Sought start (s.insert v) (g.precedentsOf v) s') :
    g.Sought start s [v] s' where
  mono x hx := h.mono x (Std.ExtTreeSet.mem_insert.mpr (Or.inr hx))
  next x hx := by
    rw [List.mem_singleton.mp hx]
    exact ⟨hv, h.mono v Std.ExtTreeSet.mem_insert_self⟩
  closed x hx hs y hy := by
    by_cases hxv : v = x
    · exact h.next y (mem_precedentsOf.mpr (hxv ▸ hy))
    · refine h.closed x hx (fun hm => ?_) y hy
      rcases Std.ExtTreeSet.mem_insert.mp hm with hv | hm
      · exact hxv (Std.compare_eq_iff_eq.mp hv)
      · exact hs hm

/-- One step of the search: the start closes a cycle, a vertex met before is passed over, and any
other is marked and searched from. -/
def seekNext (g : Graph V) (start : V) (depth : Nat) (path : List V) (seen : Std.ExtTreeSet V)
    (v : V) : Except (List V) (Std.ExtTreeSet V) :=
  if v = start then .error (v :: path).reverse
  else if seen.contains v then .ok seen
  else g.seek start depth (v :: path) (seen.insert v) v

omit [Std.LawfulEqOrd V] in
theorem seek_succ (g : Graph V) (start : V) (depth : Nat) (path : List V)
    (seen : Std.ExtTreeSet V) (v : V) :
    g.seek start (depth + 1) path seen v =
      (g.precedentsOf v).foldlM (g.seekNext start depth path) seen := rfl

omit [Std.LawfulEqOrd V] in
theorem sought_foldlM {g : Graph V} {start : V} {depth : Nat} {path : List V}
    (step : ∀ (seen : Std.ExtTreeSet V) v, g.missing seen.contains ≤ depth →
      g.contains v = true → Sought.Result g start seen [v] (g.seekNext start depth path seen v))
    (vs : List V) :
    ∀ seen : Std.ExtTreeSet V, g.missing seen.contains ≤ depth →
      (∀ v ∈ vs, g.contains v = true) →
      Sought.Result g start seen vs (vs.foldlM (g.seekNext start depth path) seen) := by
  induction vs with
  | nil =>
    intro seen _ _
    exact ⟨fun _ h => h, by simp, fun _ h h' => absurd h h'⟩
  | cons v vs ih =>
    intro seen hd hvs
    have hv := step seen v hd (hvs v List.mem_cons_self)
    rw [List.foldlM_cons]
    cases hn : g.seekNext start depth path seen v with
    | error path' =>
      rw [hn] at hv
      obtain ⟨u, hu, hsu⟩ := hv
      exact ⟨u, List.mem_cons.mpr (Or.inl (List.mem_singleton.mp hu)), hsu⟩
    | ok seen' =>
      rw [hn] at hv
      have hr := ih seen' (Nat.le_trans (g.missing_mono hv.mono) hd)
        fun u hu => hvs u (List.mem_cons_of_mem v hu)
      change Sought.Result g start seen (v :: vs) (vs.foldlM (g.seekNext start depth path) seen')
      cases hf : vs.foldlM (g.seekNext start depth path) seen' with
      | error path' =>
        rw [hf] at hr
        obtain ⟨u, hu, hsu⟩ := hr
        exact ⟨u, List.mem_cons_of_mem v hu, hsu⟩
      | ok seen'' =>
        rw [hf] at hr
        exact hv.cons hr

theorem seek_spec {g : Graph V} (hg : g.Mirrored) (start : V) (depth : Nat) :
    ∀ (path : List V) (seen : Std.ExtTreeSet V) (v : V), g.missing seen.contains < depth →
      Sought.Result g start seen (g.precedentsOf v) (g.seek start depth path seen v) := by
  induction depth with
  | zero => exact fun _ _ _ h => absurd h (Nat.not_lt_zero _)
  | succ depth ih =>
    intro path seen v hd
    rw [seek_succ]
    refine sought_foldlM ?_ _ seen (Nat.le_of_lt_succ hd) fun u hu =>
      hg.source_mem (mem_precedentsOf.mp hu)
    intro seen u hd hu
    unfold seekNext
    split
    · rename_i hs
      exact ⟨u, List.mem_singleton_self u, hs ▸ .refl⟩
    · rename_i hs
      split
      · rename_i hm
        exact { mono := fun _ h => h
                next := fun x hx => by
                  rw [List.mem_singleton.mp hx]
                  exact ⟨hs, Std.ExtTreeSet.contains_iff_mem.mp hm⟩
                closed := fun _ h h' => absurd h h' }
      · rename_i hm
        have hn : u ∉ seen := by simpa using hm
        have hlt := g.missing_lt (a := seen.contains) (b := (seen.insert u).contains) hu
          (contains_eq_false hn) (by simp) fun x hx => by simp_all
        have h := ih (u :: path) (seen.insert u) u (Nat.lt_of_lt_of_le hlt hd)
        cases hr : g.seek start depth (u :: path) (seen.insert u) u with
        | error path' =>
          rw [hr] at h
          obtain ⟨w, hw, hsw⟩ := h
          exact ⟨u, List.mem_singleton_self u, hsw.tail (mem_precedentsOf.mp hw)⟩
        | ok seen' =>
          rw [hr] at h
          exact .of_precedents hs h

/-- A way back is found exactly where there is one. -/
theorem cycleFrom?_isSome {g : Graph V} (hg : g.Mirrored) {start : V} :
    (g.cycleFrom? start).isSome = true ↔ Relation.TransGen g.Edge start start := by
  have h := seek_spec hg start (g.size + 1) [start] ∅ start
    (Nat.lt_succ_of_le (g.missing_le_size _))
  unfold cycleFrom?
  cases hr : g.seek start (g.size + 1) [start] ∅ start with
  | error path =>
    rw [hr] at h
    obtain ⟨v, hv, hsv⟩ := h
    simpa using Relation.TransGen.tail' hsv (mem_precedentsOf.mp hv)
  | ok seen =>
    rw [hr] at h
    -- all from which the start can be reached has been met, and the start has not
    have hmet (x : V) (hx : Relation.TransGen g.Edge x start) : x ≠ start ∧ x ∈ seen := by
      induction hx using Relation.TransGen.head_induction_on with
      | single he => exact h.next _ (mem_precedentsOf.mpr he)
      | head he _ ih => exact h.closed _ ih.2 Std.ExtTreeSet.not_mem_empty _ he
    simpa using fun hc => (hmet start hc).1 rfl

end Spreadsheet.Graph
