import Spreadsheet.Proofs.Dependency.Reach

/-! Orders in which every vertex comes after what it reads. The vertices on the way to the one that
is placed all depend on it, so meeting one of them again closes a cycle; nothing else prevents an
order. -/

namespace Spreadsheet.Graph

variable {V : Type} [Ord V] [Std.TransOrd V]

/-- Vertices, the latest first, each once and after all it reads within `member`. -/
def InOrder (g : Graph V) (member : V → Bool) : List V → Prop
  | [] => True
  | v :: before => v ∉ before ∧ (∀ u, g.Edge u v → member u = true → u ∈ before) ∧
    g.InOrder member before

section
variable {g : Graph V} {member : V → Bool}

theorem InOrder.nodup {order : List V} (h : g.InOrder member order) : order.Nodup := by
  induction order with
  | nil => exact List.nodup_nil
  | cons v before ih => exact List.nodup_cons.mpr ⟨h.1, ih h.2.2⟩

theorem InOrder.mem_of_edge {order : List V} (h : g.InOrder member order) {u v : V} (hv : v ∈ order)
    (he : g.Edge u v) (hu : member u = true) : u ∈ order := by
  induction order with
  | nil => exact absurd hv List.not_mem_nil
  | cons x before ih =>
    obtain ⟨-, hx, hbefore⟩ := h
    rcases List.mem_cons.mp hv with rfl | hv
    · exact List.mem_cons_of_mem v (hx u he hu)
    · exact List.mem_cons_of_mem x (ih hbefore hv)

theorem member_of_reflTransGen (closed : ∀ u v, g.Edge u v → member u = true → member v = true)
    {u v : V} (h : Relation.ReflTransGen g.Edge u v) (hu : member u = true) : member v = true := by
  induction h with
  | refl => exact hu
  | tail _ he ih => exact closed _ _ he ih

/-- Nothing that is in order up to the latest vertex depends on that vertex. -/
theorem InOrder.not_transGen (closed : ∀ u v, g.Edge u v → member u = true → member v = true)
    {v : V} {before : List V} (h : g.InOrder member (v :: before)) (hv : member v = true) :
    ∀ x ∈ v :: before, ¬ Relation.TransGen g.Edge v x := by
  obtain ⟨hnew, hreads, hbefore⟩ := h
  have hback (w : V) (hw : w ∈ before) : ¬ Relation.ReflTransGen g.Edge v w := by
    intro hvw
    induction hvw with
    | refl => exact hnew hw
    | tail hvy he ih =>
      exact ih (hbefore.mem_of_edge hw he (member_of_reflTransGen closed hvy hv))
  intro x hx hvx
  obtain ⟨w, hvw, hwx⟩ := Relation.TransGen.tail'_iff.mp hvx
  have hw : member w = true := member_of_reflTransGen closed hvw hv
  rcases List.mem_cons.mp hx with rfl | hx
  · exact hback w (hreads w hwx hw) hvw
  · exact hback w (hbefore.mem_of_edge hx hwx hw) hvw

/-- There is no room for a cycle in an order. -/
theorem InOrder.no_cycle (closed : ∀ u v, g.Edge u v → member u = true → member v = true)
    {order : List V} (h : g.InOrder member order) :
    ∀ v ∈ order, member v = true → ¬ Relation.TransGen g.Edge v v := by
  induction order with
  | nil => exact fun _ hv => absurd hv List.not_mem_nil
  | cons x before ih =>
    intro v hv hm
    rcases List.mem_cons.mp hv with rfl | hv
    · exact h.not_transGen closed hm v List.mem_cons_self
    · exact ih h.2.2 v hv hm

end

variable [DecidableEq V]

/-- What is placed is in order, and none of it is on the way to what is placed next. -/
structure Placed.Sound (g : Graph V) (member : V → Bool) (path : List V) (p : Placed V) :
    Prop where
  members : ∀ x, x ∈ p.members ↔ x ∈ p.order
  within : ∀ x ∈ p.order, member x = true
  order : g.InOrder member p.order
  apart : ∀ x ∈ path, x ∉ p.order

/-- What is known after `vs` have been placed: they are there with all that was, or there is a
cycle. -/
def Placed.Result (g : Graph V) (member : V → Bool) (path : List V) (p : Placed V) (vs : List V) :
    Except (List V) (Placed V) → Prop
  | .ok p' => Placed.Sound g member path p' ∧ (∀ x ∈ p.order, x ∈ p'.order) ∧ ∀ x ∈ vs, x ∈ p'.order
  | .error _ => ∃ x, member x = true ∧ Relation.TransGen g.Edge x x

omit [DecidableEq V] in
/-- A vertex after all it reads. -/
theorem Placed.Sound.add [Std.LawfulEqOrd V] {g : Graph V} {member : V → Bool} {path : List V}
    {p : Placed V} {v : V} (h : p.Sound g member (v :: path)) (hv : member v = true)
    (hpath : v ∉ path) (hall : ∀ u, g.Edge u v → member u = true → u ∈ p.order) :
    (p.add v).Sound g member path where
  members x := by
    refine Std.ExtTreeSet.mem_insert.trans ?_
    rw [Std.compare_eq_iff_eq, h.members]
    exact (or_congr_left eq_comm).trans List.mem_cons.symm
  within x hx := by
    rcases List.mem_cons.mp hx with rfl | hx
    · exact hv
    · exact h.within x hx
  order := ⟨h.apart v List.mem_cons_self, hall, h.order⟩
  apart x hx hm := by
    rcases List.mem_cons.mp hm with rfl | hm
    · exact hpath hx
    · exact h.apart x (List.mem_cons_of_mem v hx) hm

theorem placed_foldlM {g : Graph V} {member : V → Bool} {depth : Nat} {path : List V}
    (vs : List V)
    (step : ∀ (p : Placed V), ∀ v ∈ vs, p.Sound g member path →
      Placed.Result g member path p [v] (g.place member depth path p v)) :
    ∀ p : Placed V, p.Sound g member path →
      Placed.Result g member path p vs (vs.foldlM (g.place member depth path) p) := by
  induction vs with
  | nil => exact fun p hp => ⟨hp, fun _ h => h, by simp⟩
  | cons v vs ih =>
    intro p hp
    have hv := step p v List.mem_cons_self hp
    rw [List.foldlM_cons]
    cases hn : g.place member depth path p v with
    | error c => rw [hn] at hv; exact hv
    | ok p' =>
      rw [hn] at hv
      obtain ⟨hp', hmono, hin⟩ := hv
      have hr := ih (fun q u hu => step q u (List.mem_cons_of_mem v hu)) p' hp'
      change Placed.Result g member path p (v :: vs) (vs.foldlM (g.place member depth path) p')
      cases hf : vs.foldlM (g.place member depth path) p' with
      | error c => rw [hf] at hr; exact hr
      | ok p'' =>
        rw [hf] at hr
        obtain ⟨hp'', hmono', hin'⟩ := hr
        refine ⟨hp'', fun x hx => hmono' x (hmono x hx), fun x hx => ?_⟩
        rcases List.mem_cons.mp hx with rfl | hx
        · exact hmono' x (hin x (List.mem_singleton_self x))
        · exact hin' x hx

variable [Std.LawfulEqOrd V]

theorem place_spec {g : Graph V} (hg : g.Mirrored) (member : V → Bool) (depth : Nat) :
    ∀ (path : List V) (p : Placed V) (v : V), g.missing (path.contains ·) < depth →
      (g.contains v = true ∨ g.missing (path.contains ·) + 1 < depth) → member v = true →
      (∀ x ∈ path, Relation.TransGen g.Edge v x) → p.Sound g member path →
      Placed.Result g member path p [v] (g.place member depth path p v) := by
  induction depth with
  | zero => exact fun _ _ _ h => absurd h (Nat.not_lt_zero _)
  | succ depth ih =>
    intro path p v hd hc hm hpath hp
    unfold place
    split
    · rename_i hv
      refine ⟨hp, fun _ h => h, fun x hx => ?_⟩
      rw [List.mem_singleton.mp hx]
      exact (hp.members v).mp (Std.ExtTreeSet.contains_iff_mem.mp hv)
    · rename_i hv
      split
      · rename_i hvp
        exact ⟨v, hm, hpath v hvp⟩
      · rename_i hvp
        have hvo : v ∉ p.order := fun h =>
          hv (Std.ExtTreeSet.contains_iff_mem.mpr ((hp.members v).mpr h))
        have hsound : p.Sound g member (v :: path) :=
          { hp with
            apart := fun x hx => by
              rcases List.mem_cons.mp hx with rfl | hx
              · exact hvo
              · exact hp.apart x hx }
        have hr : Placed.Result g member (v :: path) p ((g.precedentsOf v).filter member)
            (((g.precedentsOf v).filter member).foldlM (g.place member depth (v :: path)) p) :=
          placed_foldlM _ (fun q u hu hq => by
            rw [List.mem_filter, mem_precedentsOf] at hu
            obtain ⟨hu, hum⟩ := hu
            -- `v` reads something, so it is a vertex and its place on the path counts
            have hlt := g.missing_lt (a := (path.contains ·)) (b := ((v :: path).contains ·))
              hu.target_mem (by simpa using hvp) (by simp) fun x hx => by simp_all
            refine ih (v :: path) q u (by omega) (Or.inl (hg.source_mem hu)) hum ?_ hq
            intro x hx
            rcases List.mem_cons.mp hx with rfl | hx
            · exact .single hu
            · exact .head hu (hpath x hx)) p hsound
        show Placed.Result g member path p [v]
          (((g.precedentsOf v).filter member).foldlM (g.place member depth (v :: path)) p >>=
            fun placed => pure (placed.add v))
        cases hf : ((g.precedentsOf v).filter member).foldlM
            (g.place member depth (v :: path)) p with
        | error c =>
          rw [hf] at hr
          exact hr
        | ok p' =>
          rw [hf] at hr
          obtain ⟨hp', hmono, hall⟩ := hr
          show Placed.Result g member path p [v] (.ok (p'.add v))
          refine ⟨hp'.add hm hvp fun u hu hum => ?_, fun x hx => ?_, fun x hx => ?_⟩
          · exact hall u (List.mem_filter.mpr ⟨mem_precedentsOf.mpr hu, hum⟩)
          · exact List.mem_cons_of_mem v (hmono x hx)
          · exact List.mem_cons.mpr (Or.inl (List.mem_singleton.mp hx))

theorem orderOf_spec {g : Graph V} (hg : g.Mirrored) {member : V → Bool} {roots : List V}
    (hroots : ∀ v ∈ roots, member v = true) :
    match g.orderOf member roots with
    | .ok order => g.InOrder member order.reverse ∧ (∀ x ∈ order, member x = true) ∧
        ∀ x ∈ roots, x ∈ order
    | .error _ => ∃ x, member x = true ∧ Relation.TransGen g.Edge x x := by
  have hsound : (Placed.empty : Placed V).Sound g member [] :=
    { members := fun x => by simp [Placed.empty]
      within := fun x hx => absurd hx List.not_mem_nil
      order := trivial
      apart := fun x hx => absurd hx List.not_mem_nil }
  have hmissing := g.missing_le_size fun v => ([] : List V).contains v
  have hr : Placed.Result g member [] .empty roots
      (roots.foldlM (g.place member (g.size + 2) []) .empty) :=
    placed_foldlM _ (fun p v hv hp => place_spec hg member _ [] p v (by omega)
      (Or.inr (by omega)) (hroots v hv) (fun x hx => absurd hx List.not_mem_nil) hp) .empty hsound
  unfold orderOf
  cases hf : roots.foldlM (g.place member (g.size + 2) []) .empty with
  | error c => rw [hf] at hr; exact hr
  | ok p =>
    rw [hf] at hr
    obtain ⟨hp, _, hall⟩ := hr
    change g.InOrder member p.order.reverse.reverse ∧ _
    rw [List.reverse_reverse]
    refine ⟨hp.order, fun x hx => hp.within x (List.mem_reverse.mp hx), fun x hx => ?_⟩
    exact List.mem_reverse.mpr (hall x hx)

theorem sortWithin_spec {g : Graph V} (hg : g.Mirrored) (s : Std.ExtTreeSet V) :
    match g.sortWithin s with
    | .ok order => g.InOrder s.contains order.reverse ∧ (∀ x ∈ order, s.contains x = true) ∧
        ∀ x ∈ s.toList, x ∈ order
    | .error _ => ∃ x, s.contains x = true ∧ Relation.TransGen g.Edge x x :=
  orderOf_spec hg fun v hv => by simpa using hv

theorem sortWithin_ok {g : Graph V} (hg : g.Mirrored) {s : Std.ExtTreeSet V} {order : List V}
    (h : g.sortWithin s = .ok order) :
    (∀ x, x ∈ order ↔ x ∈ s) ∧ g.InOrder s.contains order.reverse := by
  have hr := sortWithin_spec hg s
  rw [h] at hr
  obtain ⟨ho, hin, hall⟩ := hr
  refine ⟨fun x => ⟨fun hx => ?_, fun hx => ?_⟩, ho⟩
  · exact Std.ExtTreeSet.contains_iff_mem.mp (hin x hx)
  · exact hall x (Std.ExtTreeSet.mem_toList.mpr hx)

/-- The vertices of a set that has all dependents of its own have an order unless there is a cycle
among them. -/
theorem sortWithin_isOk {g : Graph V} (hg : g.Mirrored) {s : Std.ExtTreeSet V}
    (closed : ∀ u v, g.Edge u v → u ∈ s → v ∈ s) :
    (∃ order, g.sortWithin s = .ok order) ↔ ∀ v ∈ s, ¬ Relation.TransGen g.Edge v v := by
  constructor
  · rintro ⟨order, h⟩ v hv
    obtain ⟨hmem, ho⟩ := sortWithin_ok hg h
    refine ho.no_cycle (fun u w he hu => ?_) v ?_ (Std.ExtTreeSet.contains_iff_mem.mpr hv)
    · exact Std.ExtTreeSet.contains_iff_mem.mpr
        (closed u w he (Std.ExtTreeSet.contains_iff_mem.mp hu))
    · exact List.mem_reverse.mpr ((hmem v).mpr hv)
  · intro hacyclic
    have hr := sortWithin_spec hg s
    cases h : g.sortWithin s with
    | ok order => exact ⟨order, rfl⟩
    | error c =>
      rw [h] at hr
      obtain ⟨x, hx, hc⟩ := hr
      exact absurd hc (hacyclic x (Std.ExtTreeSet.contains_iff_mem.mp hx))

end Spreadsheet.Graph
