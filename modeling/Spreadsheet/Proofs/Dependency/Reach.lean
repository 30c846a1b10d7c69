import Spreadsheet.Dependency.Order
import Spreadsheet.Proofs.Dependency.Edges

/-! What depends on some vertices. The walk marks a vertex when it meets it, so at any depth the
vertices not yet marked bound how much deeper it can go, and no walk is cut short: the closure is
exactly what can be reached along edges. -/

namespace Spreadsheet.Graph

variable {V : Type} [Ord V] [Std.TransOrd V]

theorem contains_eq_false {seen : Std.ExtTreeSet V} {v : V} (h : v ∉ seen) :
    seen.contains v = false :=
  Bool.eq_false_iff.mpr fun hc => h (Std.ExtTreeSet.contains_iff_mem.mp hc)

/-- How many vertices are not inside. -/
def missing (g : Graph V) (inside : V → Bool) : Nat := g.vertices.countP fun v => !inside v

theorem missing_le_size (g : Graph V) (inside : V → Bool) : g.missing inside ≤ g.size := by
  unfold missing size vertices
  rw [← Std.ExtTreeMap.length_keys]
  exact List.countP_le_length

theorem missing_mono (g : Graph V) {a b : V → Bool} (h : ∀ v, a v = true → b v = true) :
    g.missing b ≤ g.missing a := by
  apply List.countP_mono_left
  intro v _ hv
  rw [Bool.not_eq_true'] at hv ⊢
  by_contra ha
  rw [h v (by simpa using ha)] at hv
  contradiction

/-- `seen'` is `seen` with all that depends on some vertices; only what was in `seen` before may
still have dependents outside. -/
structure Spreads (g : Graph V) (seen : Std.ExtTreeSet V) (vs : List V)
    (seen' : Std.ExtTreeSet V) : Prop where
  mono : ∀ x ∈ seen, x ∈ seen'
  starts : ∀ x ∈ vs, x ∈ seen'
  reached : ∀ x ∈ seen', x ∈ seen ∨ ∃ v ∈ vs, Relation.ReflTransGen g.Edge v x
  closed : ∀ x ∈ seen', x ∉ seen → ∀ y, g.Edge x y → y ∈ seen'

theorem Spreads.nil (g : Graph V) (seen : Std.ExtTreeSet V) : g.Spreads seen [] seen where
  mono _ h := h
  starts := by simp
  reached _ h := Or.inl h
  closed _ h h' := absurd h h'

theorem Spreads.of_mem {g : Graph V} {seen : Std.ExtTreeSet V} {v : V} (h : v ∈ seen) :
    g.Spreads seen [v] seen where
  mono _ h := h
  starts x hx := by rwa [List.mem_singleton.mp hx]
  reached _ h := Or.inl h
  closed _ h h' := absurd h h'

theorem Spreads.cons {g : Graph V} {s s' s'' : Std.ExtTreeSet V} {v : V} {vs : List V}
    (h : g.Spreads s [v] s') (h' : g.Spreads s' vs s'') : g.Spreads s (v :: vs) s'' where
  mono x hx := h'.mono x (h.mono x hx)
  starts x hx := by
    rcases List.mem_cons.mp hx with rfl | hx
    · exact h'.mono x (h.starts x (List.mem_singleton_self x))
    · exact h'.starts x hx
  reached x hx := by
    rcases h'.reached x hx with hx | ⟨u, hu, hux⟩
    · rcases h.reached x hx with hx | ⟨u, hu, hux⟩
      · exact Or.inl hx
      · exact Or.inr ⟨u, List.mem_cons.mpr (Or.inl (List.mem_singleton.mp hu)), hux⟩
    · exact Or.inr ⟨u, List.mem_cons_of_mem v hu, hux⟩
  closed x hx hs y hy := by
    by_cases hx' : x ∈ s'
    · exact h'.mono y (h.closed x hx' hs y hy)
    · exact h'.closed x hx hx' y hy

variable [Std.LawfulEqOrd V]

theorem missing_lt (g : Graph V) {a b : V → Bool} {x : V} (hx : g.contains x = true)
    (ha : a x = false) (hb : b x = true) (h : ∀ v, a v = true → b v = true) :
    g.missing b < g.missing a := by
  obtain ⟨l, r, hl⟩ := List.append_of_mem (mem_vertices.mpr hx)
  have hle (s : List V) : (s.countP fun v => !b v) ≤ s.countP fun v => !a v := by
    apply List.countP_mono_left
    intro v _ hv
    rw [Bool.not_eq_true'] at hv ⊢
    by_contra ha
    rw [h v (by simpa using ha)] at hv
    contradiction
  have h₁ := hle l
  have h₂ := hle r
  unfold missing
  rw [hl, List.countP_append, List.countP_append, List.countP_cons_of_neg (by simpa using hb),
    List.countP_cons_of_pos (by simpa using ha)]
  omega

/-- The dependents of a vertex that is met are walked with the vertex marked. -/
theorem Spreads.of_dependents {g : Graph V} (hg : g.Mirrored) {s s' : Std.ExtTreeSet V} {v : V}
    (h : g.Spreads (s.insert v) (g.dependentsOf v) s') : g.Spreads s [v] s' where
  mono x hx := h.mono x (Std.ExtTreeSet.mem_insert.mpr (Or.inr hx))
  starts x hx := by
    rw [List.mem_singleton.mp hx]
    exact h.mono v Std.ExtTreeSet.mem_insert_self
  reached x hx := by
    rcases h.reached x hx with hx | ⟨u, hu, hux⟩
    · rcases Std.ExtTreeSet.mem_insert.mp hx with hv | hx
      · rw [← Std.compare_eq_iff_eq.mp hv]
        exact Or.inr ⟨v, List.mem_singleton_self v, .refl⟩
      · exact Or.inl hx
    · exact Or.inr ⟨v, List.mem_singleton_self v, .head (hg.mem_dependentsOf.mp hu) hux⟩
  closed x hx hs y hy := by
    by_cases hxv : v = x
    · exact h.starts y (hg.mem_dependentsOf.mpr (hxv ▸ hy))
    · refine h.closed x hx (fun hm => ?_) y hy
      rcases Std.ExtTreeSet.mem_insert.mp hm with hv | hm
      · exact hxv (Std.compare_eq_iff_eq.mp hv)
      · exact hs hm

omit [Std.LawfulEqOrd V] in
/-- A walk along a list of vertices, when the walk from each of them reaches far enough. -/
theorem spreads_foldl {g : Graph V} {depth : Nat}
    (step : ∀ (seen : Std.ExtTreeSet V) v, g.missing seen.contains ≤ depth →
      (g.contains v = true ∨ 0 < depth) → g.Spreads seen [v] (g.spread depth seen v))
    (vs : List V) :
    ∀ seen : Std.ExtTreeSet V, g.missing seen.contains ≤ depth →
      (∀ v ∈ vs, g.contains v = true ∨ 0 < depth) → g.Spreads seen vs (vs.foldl (g.spread depth) seen) := by
  induction vs with
  | nil => exact fun seen _ _ => .nil g seen
  | cons v vs ih =>
    intro seen hd hv
    have h := step seen v hd (hv v List.mem_cons_self)
    have hd' : g.missing (g.spread depth seen v).contains ≤ depth :=
      Nat.le_trans (g.missing_mono h.mono) hd
    exact h.cons (ih _ hd' fun u hu => hv u (List.mem_cons_of_mem v hu))

theorem spread_spec {g : Graph V} (hg : g.Mirrored) (depth : Nat) :
    ∀ (seen : Std.ExtTreeSet V) v, g.missing seen.contains ≤ depth →
      (g.contains v = true ∨ 0 < depth) → g.Spreads seen [v] (g.spread depth seen v) := by
  induction depth with
  | zero =>
    intro seen v hd hv
    have hm : v ∈ seen := by
      by_contra hn
      have hc : g.contains v = true := hv.resolve_right (Nat.lt_irrefl 0)
      have := g.missing_lt (a := seen.contains) (b := fun _ => true) hc (contains_eq_false hn) rfl
        fun _ _ => rfl
      omega
    exact .of_mem hm
  | succ depth ih =>
    intro seen v hd hv
    unfold spread
    split
    · rename_i hm
      exact .of_mem (by simpa using hm)
    · rename_i hm
      have hn : v ∉ seen := by simpa using hm
      apply Spreads.of_dependents hg
      by_cases hc : g.contains v = true
      · refine spreads_foldl ih _ _ ?_ fun u hu => ?_
        · have := g.missing_lt (a := seen.contains) (b := (seen.insert v).contains) hc
            (contains_eq_false hn) (by simp) fun x hx => by simp_all
          omega
        · exact Or.inl (hg.mem_dependentsOf.mp hu).target_mem
      · -- a vertex that is not in the graph has no dependents
        have hnil : g.dependentsOf v = [] := by
          rw [List.eq_nil_iff_forall_not_mem]
          exact fun u hu => hc (hg.source_mem (hg.mem_dependentsOf.mp hu))
        rw [hnil]
        exact .nil g _

theorem mem_closure {g : Graph V} (hg : g.Mirrored) {roots : List V} {x : V} :
    x ∈ g.closure roots ↔ ∃ v ∈ roots, Relation.ReflTransGen g.Edge v x := by
  have h : g.Spreads ∅ roots (g.closure roots) :=
    spreads_foldl (spread_spec hg _) roots ∅ (Nat.le_trans (g.missing_le_size _) (Nat.le_succ _))
      fun _ _ => Or.inr (Nat.succ_pos _)
  constructor
  · intro hx
    exact (h.reached x hx).resolve_left Std.ExtTreeSet.not_mem_empty
  · intro hsome
    obtain ⟨v, hv, hvx⟩ := hsome
    induction hvx with
    | refl => exact h.starts v hv
    | tail _ he ih => exact h.closed _ ih Std.ExtTreeSet.not_mem_empty _ he

end Spreadsheet.Graph
