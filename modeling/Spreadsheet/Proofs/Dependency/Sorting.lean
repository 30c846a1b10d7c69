import Mathlib.Data.List.Chain
import Mathlib.Data.List.Nodup
import Mathlib.Data.List.TakeWhile
import Spreadsheet.Proofs.Dependency.Order

/-! What a sort answers, for every set of vertices. The vertices that are still being placed lead
from one to the next against the edges, so where one of them is met again the part of them behind it
is a cycle. An order leaves no room for a cycle, so there is one exactly if there is no cycle. -/

namespace Spreadsheet.Graph

variable {V : Type} [Ord V] [Std.TransOrd V]

/-- `w` reads `v`, and both are members. -/
def EdgeWithin (g : Graph V) (member : V → Bool) (v w : V) : Prop :=
  g.Edge v w ∧ member v = true ∧ member w = true

/-- Members one after the other, each of them read by the one before it, and back to the first. -/
structure IsCycle (g : Graph V) (member : V → Bool) (path : List V) : Prop where
  closed : path.head? = path.getLast?
  length : 2 ≤ path.length
  members : ∀ v ∈ path, member v = true
  reads : path.IsChain fun v u => g.Edge u v

/-- The members in some order, each once and after all members that it reads. -/
structure IsOrder (g : Graph V) (member : V → Bool) (order : List V) : Prop where
  nodup : order.Nodup
  members : ∀ v, v ∈ order ↔ member v = true
  reads : ∀ before v after, order = before ++ v :: after →
    ∀ u, g.Edge u v → member u = true → u ∈ before

/-- A right answer: an order or a cycle, and an order exactly if no member leads back to itself
through members. -/
structure Sorts (g : Graph V) (member : V → Bool) (answer : Except (List V) (List V)) : Prop where
  ordered : ∀ order, answer = .ok order → g.IsOrder member order
  cyclic : ∀ path, answer = .error path → g.IsCycle member path
  ok_iff : (∃ order, answer = .ok order) ↔
    ∀ v, ¬ Relation.TransGen (g.EdgeWithin member) v v

variable {g : Graph V} {member : V → Bool}

/-! ## Orders -/

theorem InOrder.mem_of_transGen {order : List V} (h : g.InOrder member order) {u v : V}
    (hv : v ∈ order) (huv : Relation.TransGen (g.EdgeWithin member) u v) : u ∈ order := by
  induction huv using Relation.TransGen.head_induction_on with
  | single he => exact h.mem_of_edge hv he.1 he.2.1
  | head he _ ih => exact h.mem_of_edge ih he.1 he.2.1

/-- A way back to a vertex would lead through what comes before it, and so would the vertex. -/
theorem InOrder.acyclic {order : List V} (h : g.InOrder member order) :
    ∀ v ∈ order, ¬ Relation.TransGen (g.EdgeWithin member) v v := by
  induction order with
  | nil => exact fun _ hv => absurd hv List.not_mem_nil
  | cons x before ih =>
    obtain ⟨hnew, hreads, hbefore⟩ := h
    intro v hv hcycle
    obtain rfl | hv := List.mem_cons.mp hv
    · obtain ⟨u, hvu, huv⟩ := Relation.TransGen.tail'_iff.mp hcycle
      have hu : u ∈ before := hreads u huv.1 huv.2.1
      obtain rfl | hvu := Relation.reflTransGen_iff_eq_or_transGen.mp hvu
      · exact hnew hu
      · exact hnew (hbefore.mem_of_transGen hu hvu)
    · exact ih hbefore v hv hcycle

theorem InOrder.reads {later before : List V} {v u : V}
    (h : g.InOrder member (later ++ v :: before)) (he : g.Edge u v) (hu : member u = true) :
    u ∈ before := by
  induction later with
  | nil => exact h.2.1 u he hu
  | cons x later ih => exact ih h.2.2

theorem InOrder.isOrder {order : List V} (h : g.InOrder member order.reverse)
    (hmem : ∀ v, v ∈ order ↔ member v = true) : g.IsOrder member order where
  nodup := List.nodup_reverse.mp h.nodup
  members := hmem
  reads before v after horder u he hu := by
    rw [horder, List.reverse_append, List.reverse_cons, List.append_assoc] at h
    exact List.mem_reverse.mp (h.reads he hu)

/-! ## Cycles -/

variable [Std.LawfulEqOrd V] [DecidableEq V]

omit [Std.LawfulEqOrd V] in
/-- A vertex that is met again on the way closes a cycle. -/
theorem isCycle_cycleAt {path : List V} {v : V} (hchain : (v :: path).IsChain g.Edge)
    (hmem : ∀ x ∈ v :: path, member x = true) (hv : v ∈ path) :
    g.IsCycle member (cycleAt path v) := by
  obtain ⟨rest, hpath⟩ : ∃ rest, path = path.takeWhile (· ≠ v) ++ v :: rest := by
    cases hrest : path.dropWhile (· ≠ v) with
    | nil => simpa using List.dropWhile_eq_nil_iff.mp hrest v hv
    | cons x rest =>
      have hx := List.head?_dropWhile_not (· ≠ v) path
      rw [hrest] at hx
      obtain rfl : x = v := by simpa using hx
      exact ⟨rest, by rw [← hrest, List.takeWhile_append_dropWhile]⟩
  -- The way from the vertex to where it was met before, which the cycle runs through backwards.
  obtain ⟨way, hway⟩ : ∃ way, way = path.takeWhile (· ≠ v) := ⟨_, rfl⟩
  rw [← hway] at hpath
  have hcycle : cycleAt path v = (v :: (way ++ [v])).reverse := by
    unfold cycleAt
    rw [← hway]
    simp
  have hround : v :: path = (v :: (way ++ [v])) ++ rest := by
    rw [hpath]
    simp
  rw [hround] at hchain hmem
  rw [hcycle]
  exact
    { closed := by
        rw [List.head?_reverse, List.getLast?_reverse, ← List.cons_append, List.getLast?_concat]
        rfl
      length := by simp
      members := fun x hx => hmem x (List.mem_append_left _ (List.mem_reverse.mp hx))
      reads := List.isChain_reverse.mpr hchain.left_of_append }

section Fold

variable {β : Type} {f f' : β → V → Except (List V) β} {P : β → Prop} {vs : List V} {b b' : β}

omit [Ord V] [Std.TransOrd V] [Std.LawfulEqOrd V] [DecidableEq V]

/-- What every step keeps, the whole walk along the list keeps. -/
theorem of_foldlM_eq_ok (hb : P b) (keep : ∀ v ∈ vs, ∀ b b', P b → f b v = .ok b' → P b')
    (h : vs.foldlM f b = .ok b') : P b' := by
  induction vs generalizing b with
  | nil =>
    cases h
    exact hb
  | cons v vs ih =>
    obtain ⟨hv, hvs⟩ := List.forall_mem_cons.mp keep
    rw [List.foldlM_cons] at h
    cases hnext : f b v with
    | error path =>
      rw [hnext] at h
      cases h
    | ok b'' =>
      rw [hnext] at h
      exact ih (hv b b'' hb hnext) hvs h

/-- A walk fails at one of its steps, up to which the others have kept what they keep. -/
theorem exists_step_of_foldlM_eq_error {path : List V} (hb : P b)
    (keep : ∀ v ∈ vs, ∀ b b', P b → f b v = .ok b' → P b') (h : vs.foldlM f b = .error path) :
    ∃ v ∈ vs, ∃ b', P b' ∧ f b' v = .error path := by
  induction vs generalizing b with
  | nil => cases h
  | cons v vs ih =>
    obtain ⟨hv, hvs⟩ := List.forall_mem_cons.mp keep
    rw [List.foldlM_cons] at h
    cases hnext : f b v with
    | error path' =>
      rw [hnext] at h
      cases h
      exact ⟨v, List.mem_cons_self, b, hb, hnext⟩
    | ok b' =>
      rw [hnext] at h
      obtain ⟨u, hu, hfails⟩ := ih (hv b b' hb hnext) hvs h
      exact ⟨u, List.mem_cons_of_mem v hu, hfails⟩

theorem exists_of_foldlM_eq_error {path : List V} (h : vs.foldlM f b = .error path) :
    ∃ v ∈ vs, ∃ b', f b' v = .error path := by
  obtain ⟨v, hv, b', -, hfails⟩ := exists_step_of_foldlM_eq_error (P := fun _ => True) trivial
    (fun _ _ _ _ _ _ => trivial) h
  exact ⟨v, hv, b', hfails⟩

/-- Two walks that take the same steps as long as they keep something. -/
theorem foldlM_congr_of (hb : P b) (keep : ∀ v ∈ vs, ∀ b b', P b → f b v = .ok b' → P b')
    (h : ∀ v ∈ vs, ∀ b, P b → f b v = f' b v) : vs.foldlM f b = vs.foldlM f' b := by
  induction vs generalizing b with
  | nil => rfl
  | cons v vs ih =>
    obtain ⟨hkeep, hkeeps⟩ := List.forall_mem_cons.mp keep
    obtain ⟨hv, hvs⟩ := List.forall_mem_cons.mp h
    rw [List.foldlM_cons, List.foldlM_cons, ← hv b hb]
    cases hnext : f b v with
    | error path => rfl
    | ok b' => exact ih (hkeep b b' hb hnext) hkeeps hvs

theorem foldlM_congr (h : ∀ v ∈ vs, ∀ b, f b v = f' b v) (b : β) :
    vs.foldlM f b = vs.foldlM f' b :=
  foldlM_congr_of (P := fun _ => True) trivial (fun _ _ _ _ _ _ => trivial) fun v hv b _ => h v hv b

end Fold

/-- Each vertex on the way reads the one that is placed next, so a failure is a cycle. -/
theorem isCycle_of_place {depth : Nat} : ∀ {path : List V} {placed : Placed V} {v : V} {c : List V},
    (v :: path).IsChain g.Edge → (∀ x ∈ v :: path, member x = true) →
      g.place member depth path placed v = .error c → g.IsCycle member c := by
  induction depth with
  | zero =>
    intro path placed v c _ _ h
    cases h
  | succ depth ih =>
    intro path placed v c hchain hmem h
    unfold place at h
    split at h
    · cases h
    · split at h
      · next hv =>
        cases h
        exact isCycle_cycleAt hchain hmem hv
      · change (((g.precedentsOf v).filter member).foldlM (g.place member depth (v :: path)) placed >>=
          fun placed => pure (placed.add v)) = .error c at h
        cases hall : ((g.precedentsOf v).filter member).foldlM
            (g.place member depth (v :: path)) placed with
        | ok placed' =>
          rw [hall] at h
          cases h
        | error c' =>
          rw [hall] at h
          cases h
          obtain ⟨u, hu, placed', hfails⟩ := exists_of_foldlM_eq_error hall
          obtain ⟨hu, hmember⟩ := List.mem_filter.mp hu
          exact ih (hchain.cons_cons (mem_precedentsOf.mp hu))
            (List.forall_mem_cons.mpr ⟨hmember, hmem⟩) hfails

theorem isCycle_of_orderOf {roots path : List V} (hroots : ∀ v ∈ roots, member v = true)
    (h : g.orderOf member roots = .error path) : g.IsCycle member path := by
  unfold orderOf at h
  cases hall : roots.foldlM (g.place member (g.size + 2) []) .empty with
  | ok placed =>
    rw [hall] at h
    cases h
  | error path' =>
    rw [hall] at h
    cases h
    obtain ⟨v, hv, placed, hfails⟩ := exists_of_foldlM_eq_error hall
    exact isCycle_of_place (List.isChain_singleton v)
      (fun x hx => List.mem_singleton.mp hx ▸ hroots v hv) hfails

omit [Std.LawfulEqOrd V] [DecidableEq V] in
theorem transGen_of_isChain {v : V} {way : List V} (h : (v :: way).IsChain fun v u => g.Edge u v)
    (hmem : ∀ x ∈ v :: way, member x = true) :
    ∀ u ∈ way, Relation.TransGen (g.EdgeWithin member) u v := by
  induction way generalizing v with
  | nil => exact fun _ hu => absurd hu List.not_mem_nil
  | cons w way ih =>
    have hwv : g.EdgeWithin member w v := ⟨h.rel, hmem w (by simp), hmem v (by simp)⟩
    intro u hu
    obtain rfl | hu := List.mem_cons.mp hu
    · exact .single hwv
    · exact (ih h.tail (fun x hx => hmem x (List.mem_cons_of_mem v hx)) u hu).tail hwv

omit [Std.LawfulEqOrd V] [DecidableEq V] in
theorem IsCycle.exists_transGen {path : List V} (h : g.IsCycle member path) :
    ∃ v, Relation.TransGen (g.EdgeWithin member) v v := by
  obtain ⟨hclosed, hlength, hmem, hreads⟩ := h
  match path with
  | v :: w :: way =>
    refine ⟨v, transGen_of_isChain hreads hmem v ?_⟩
    rw [List.head?_cons, List.getLast?_cons_cons] at hclosed
    exact List.mem_of_getLast? hclosed.symm

/-! ## Sorts -/

theorem sorts_orderOf (hg : g.Mirrored) {roots : List V}
    (hroots : ∀ v, v ∈ roots ↔ member v = true) : g.Sorts member (g.orderOf member roots) := by
  have hspec := orderOf_spec hg fun v hv => (hroots v).mp hv
  have hcycle {path : List V} (h : g.orderOf member roots = .error path) : g.IsCycle member path :=
    isCycle_of_orderOf (fun v hv => (hroots v).mp hv) h
  cases hanswer : g.orderOf member roots with
  | ok order =>
    rw [hanswer] at hspec
    obtain ⟨horder, hmem, hall⟩ := hspec
    have hiff (v : V) : v ∈ order ↔ member v = true := ⟨hmem v, fun hv => hall v ((hroots v).mpr hv)⟩
    refine ⟨fun order' h => ?_, fun path h => (nomatch h), iff_of_true ⟨order, rfl⟩ fun v hv => ?_⟩
    · cases h
      exact horder.isOrder hiff
    · obtain ⟨u, he, -⟩ := Relation.TransGen.head'_iff.mp hv
      exact horder.acyclic v (List.mem_reverse.mpr ((hiff v).mpr he.2.1)) hv
  | error path =>
    obtain ⟨v, hv⟩ := (hcycle hanswer).exists_transGen
    refine ⟨fun order h => (nomatch h), fun path' h => ?_, iff_of_false ?_ fun h => h v hv⟩
    · cases h
      exact hcycle hanswer
    · exact fun ⟨order, h⟩ => nomatch h

/-- The answer of a search that may go so deep. -/
def orderAt (g : Graph V) (member : V → Bool) (depth : Nat) (roots : List V) :
    Except (List V) (List V) := do
  let placed ← roots.foldlM (g.place member depth []) .empty
  return placed.order.reverse

/-- A search that is allowed to go deeper than there are vertices left does not do so: each vertex
on the way is another one. -/
theorem place_succ (hg : g.Mirrored) (depth : Nat) :
    ∀ (path : List V) (placed : Placed V) (v : V), g.missing (path.contains ·) < depth →
      (g.contains v = true ∨ g.missing (path.contains ·) + 1 < depth) →
      g.place member (depth + 1) path placed v = g.place member depth path placed v := by
  induction depth with
  | zero => exact fun _ _ _ h => absurd h (Nat.not_lt_zero _)
  | succ depth ih =>
    intro path placed v hdepth hv
    rw [place, place]
    by_cases hplaced : placed.members.contains v
    · rw [if_pos hplaced, if_pos hplaced]
    by_cases hpath : v ∈ path
    · rw [if_neg hplaced, if_neg hplaced, if_pos hpath, if_pos hpath]
    rw [if_neg hplaced, if_neg hplaced, if_neg hpath, if_neg hpath]
    have hbefore : ((g.precedentsOf v).filter member).foldlM
          (g.place member (depth + 1) (v :: path)) placed =
        ((g.precedentsOf v).filter member).foldlM (g.place member depth (v :: path)) placed := by
      refine foldlM_congr (fun u hu placed => ?_) placed
      have he := mem_precedentsOf.mp (List.mem_of_mem_filter hu)
      have hlt := g.missing_lt (a := (path.contains ·)) (b := ((v :: path).contains ·))
        he.target_mem (by simpa using hpath) (by simp) fun x hx => by simp_all
      exact ih (v :: path) placed u (by omega) (Or.inl (hg.source_mem he))
    dsimp only
    rw [hbefore]

/-- No search is cut off before its end. -/
theorem orderAt_eq (hg : g.Mirrored) {depth : Nat} (h : g.size + 2 ≤ depth) (roots : List V) :
    g.orderAt member depth roots = g.orderOf member roots := by
  have hmissing := g.missing_le_size fun v => ([] : List V).contains v
  induction depth, h using Nat.le_induction with
  | base => rfl
  | succ depth h ih =>
    rw [← ih]
    unfold orderAt
    rw [foldlM_congr fun v _ placed =>
      place_succ hg depth [] placed v (by omega) (Or.inr (by omega))]

/-- Only what is read somewhere has to be a member or not. -/
theorem place_congr {member' : V → Bool} (h : ∀ u v, g.Edge u v → member u = member' u)
    (depth : Nat) (path : List V) : g.place member depth path = g.place member' depth path := by
  induction depth generalizing path with
  | zero => rfl
  | succ depth ih =>
    funext placed v
    have hreads : (g.precedentsOf v).filter member = (g.precedentsOf v).filter member' :=
      List.filter_congr fun u hu => h u v (mem_precedentsOf.mp hu)
    unfold place
    rw [hreads, ih]

theorem sort_eq (hg : g.Mirrored) : g.sort = g.orderOf g.contains g.vertices := by
  unfold sort orderOf
  rw [place_congr fun u v he => (hg.source_mem he).symm]

/-- A graph that is built by any changes is sorted as far as it can be, and any set of vertices
within it: the answer is an order exactly if there is no cycle in the set, and else a cycle. The
search for it comes to its end, so to let it go deeper changes nothing. The set may have vertices
that are not in the graph, and need not have all dependents of its own. -/
theorem sort_sound_and_complete (us : List (Update V)) :
    let g := empty.after us
    (g.Sorts g.contains g.sort ∧
      ∀ depth, g.size + 2 ≤ depth → g.orderAt (fun _ => true) depth g.vertices = g.sort) ∧
    ∀ s : Std.ExtTreeSet V, g.Sorts s.contains (g.sortWithin s) ∧
      ∀ depth, g.size + 2 ≤ depth → g.orderAt s.contains depth s.toList = g.sortWithin s := by
  intro g
  have hg : g.Mirrored := mirrored_empty.after us
  refine ⟨⟨?_, fun depth hdepth => orderAt_eq hg hdepth g.vertices⟩, fun s =>
    ⟨?_, fun depth hdepth => orderAt_eq hg hdepth s.toList⟩⟩
  · rw [sort_eq hg]
    exact sorts_orderOf hg fun v => mem_vertices
  · exact sorts_orderOf hg fun v => by simp

/-- Four vertices in order, three of them with one that is no vertex, and a cycle among them once the
first reads the last. -/
theorem sort_sound_and_complete_on_diamond :
    let us : List (Update Nat) := [.addEdges [1, 2] 3, .addEdges [1] 2, .addEdges [3] 4]
    let g := empty.after us
    let g' := empty.after (us ++ [.addEdge 4 1])
    let s : Std.ExtTreeSet Nat := .ofList [2, 3, 4, 9]
    (g.sort = .ok [1, 2, 3, 4] ∧ g.IsOrder g.contains [1, 2, 3, 4]) ∧
      (g.sortWithin s = .ok [2, 3, 4, 9] ∧ g.IsOrder s.contains [2, 3, 4, 9]) ∧
      g'.sort = .error [1, 4, 3, 1] ∧ g'.IsCycle g'.contains [1, 4, 3, 1] := by
  intro us g g' s
  have hsort : g.sort = .ok [1, 2, 3, 4] := by decide +kernel
  have hwithin : g.sortWithin s = .ok [2, 3, 4, 9] := by decide +kernel
  have hcycle : g'.sort = .error [1, 4, 3, 1] := by decide +kernel
  obtain ⟨⟨hall, -⟩, hpart⟩ := sort_sound_and_complete us
  obtain ⟨⟨hlooped, -⟩, -⟩ := sort_sound_and_complete (us ++ [.addEdge 4 1])
  exact ⟨⟨hsort, hall.ordered _ hsort⟩, ⟨hwithin, (hpart s).1.ordered _ hwithin⟩, hcycle,
    hlooped.cyclic _ hcycle⟩

end Spreadsheet.Graph
