import Mathlib.Tactic.Common
import Spreadsheet.Evaluation.Basic

/-! What the value of a formula depends on. A formula sees a name only through what the name stands
for, a cell only through a region it refers to, and the time or chance only through a call of a
volatile function. Two sources that agree on all of that, and on the functions called, give it the
same value. -/

namespace Spreadsheet

/-- What is referred to by some references, or by the names among them, or by the names that those
stand for, and so on. -/
inductive Follows (definition? : String → Option Definition) (rs : List Reference) :
    Reference → Prop
  | direct {r : Reference} : r ∈ rs → Follows definition? rs r
  | name {n : String} {r : Reference} : Follows definition? rs (.single (.name n)) →
      definition? n = some (.reference r) → Follows definition? rs r

namespace Expr

mutual
/-- The names of the functions in calls. -/
def calls : Expr → List String
  | sign _ e | paren e => calls e
  | binary _ left right => calls left ++ calls right
  | call f args => f :: callsIn args
  | literal _ | name _ | reference _ | array _ | missing => []
def callsIn : List Expr → List String
  | [] => []
  | e :: rest => calls e ++ callsIn rest
end

end Expr

/-- The two know the same functions by these names. -/
def SameFunctions (function? function?' : String → Option Function) (names : List String) : Prop :=
  ∀ n ∈ names, function? n = function?' n

/-- None of the named functions changes with time or by chance. -/
def Steady (function? : String → Option Function) (names : List String) : Prop :=
  ∀ n ∈ names, ∀ f, function? n = some f → f.isVolatile = false

/-- Time and chance are the same, or have no part in it. -/
def Undisturbed (function? : String → Option Function) (names : List String) (a b : Ambient) :
    Prop :=
  a = b ∨ Steady function? names

namespace Undisturbed

variable {function? : String → Option Function} {names names' : List String} {a b : Ambient}

theorem mono (h : Undisturbed function? names a b) (hn : ∀ n ∈ names', n ∈ names) :
    Undisturbed function? names' a b :=
  h.imp_right fun hs n hm => hs n (hn n hm)

theorem branch (h : Undisturbed function? names a b) (i : Nat) :
    Undisturbed function? names (a.branch i) (b.branch i) :=
  h.imp_left fun hab => congrArg (·.branch i) hab

end Undisturbed

namespace Source

/-- Two sources that show the same of all that `rs` lead to. -/
structure AgreeOn (s t : Source) (rs : List Reference) : Prop where
  names : ∀ n, Follows s.definition? rs (.single (.name n)) → s.definition? n = t.definition? n
  values : ∀ r, Follows s.definition? rs r → ∀ g ∈ r.regions, s.values g = t.values g
  block : ∀ r, Follows s.definition? rs r → ∀ g ∈ r.regions, s.block g = t.block g
  value : ∀ r, Follows s.definition? rs r → ∀ g ∈ r.regions, ∀ p, g.contains p = true →
    s.value p = t.value p

variable {s t : Source} {rs : List Reference}

theorem region?_mem_regions {target : Target} {g : Region}
    (h : (Reference.single target).region? = some g) : g ∈ (Reference.single target).regions := by
  unfold Reference.region? at h
  split at h
  · exact List.mem_filterMap.mpr ⟨target, by simp [Reference.targets], h⟩
  · simp at h

theorem AgreeOn.blockOf (h : s.AgreeOn t rs) {target : Target}
    (hr : Follows s.definition? rs (.single target)) :
    (match (Reference.single target).region? with
      | some g => Value.array (s.block g)
      | none => .error .badReference) =
    match (Reference.single target).region? with
      | some g => Value.array (t.block g)
      | none => .error .badReference := by
  cases hg : (Reference.single target).region? with
  | none => rfl
  | some g =>
    dsimp only
    rw [h.block _ hr g (region?_mem_regions hg)]

theorem AgreeOn.cell (h : s.AgreeOn t rs) {row column : Mark}
    (hr : Follows s.definition? rs (.single (.place (.cell row column true)))) :
    s.value ⟨row.index, column.index⟩ = t.value ⟨row.index, column.index⟩ := by
  refine h.value _ hr (.cell ⟨row.index, column.index⟩) ?_ _ ?_
  · exact List.mem_filterMap.mpr ⟨_, List.mem_singleton_self _, rfl⟩
  · simp [Region.contains, Region.cell, Span.contains, Span.single]

theorem AgreeOn.read_unnamed (h : s.AgreeOn t rs) (depth : Nat) {r : Reference}
    (hr : Follows s.definition? rs r) (hn : ∀ n, r ≠ .single (.name n)) :
    s.read depth r = t.read depth r := by
  rw [Source.read.eq_def, Source.read.eq_def t]
  cases r with
  | union parts => rfl
  | single target =>
    cases target with
    | name n => exact absurd rfl (hn n)
    | range a b => exact congrArg (ite _ · _) (h.blockOf hr)
    | place p =>
      cases p with
      | column c v => exact congrArg (ite _ · _) (h.blockOf hr)
      | row c v => exact congrArg (ite _ · _) (h.blockOf hr)
      | cell row column v =>
        cases v with
        | false => rfl
        | true => exact congrArg (ite _ · _) (h.cell hr)

/-- A name leads on with one step less, so this goes by the steps that are left. -/
theorem AgreeOn.read (h : s.AgreeOn t rs) (depth : Nat) :
    ∀ r, Follows s.definition? rs r → s.read depth r = t.read depth r := by
  induction depth with
  | zero =>
    intro r hr
    by_cases hn : ∃ n, r = .single (.name n)
    · obtain ⟨n, rfl⟩ := hn
      rfl
    · exact h.read_unnamed 0 hr fun n e => hn ⟨n, e⟩
  | succ depth ih =>
    intro r hr
    by_cases hn : ∃ n, r = .single (.name n)
    · obtain ⟨n, rfl⟩ := hn
      rw [Source.read.eq_def, Source.read.eq_def t]
      dsimp only
      rw [← h.names n hr]
      cases hd : s.definition? n with
      | none => rfl
      | some d =>
        cases d with
        | value v => rfl
        | reference r' => exact congrArg (ite _ · _) (ih r' (.name hr hd))
    · exact h.read_unnamed _ hr fun n e => hn ⟨n, e⟩

theorem AgreeOn.valuesAt (h : s.AgreeOn t rs) {r : Reference} (hr : Follows s.definition? rs r) :
    s.valuesAt r = t.valuesAt r := by
  have hregions (r : Reference) (hr : Follows s.definition? rs r) :
      r.regions.flatMap s.values = r.regions.flatMap t.values := by
    rw [List.flatMap_def, List.flatMap_def, List.map_congr_left (h.values r hr)]
  unfold Source.valuesAt
  dsimp only
  split
  · rename_i n
    rw [← h.names n hr]
    cases hd : s.definition? n with
    | none => rfl
    | some d =>
      cases d with
      | value v => rfl
      | reference r' =>
        have hr' := hregions r' (.name hr hd)
        split <;> simp_all
  · rw [hregions r hr]

/-- What an operand that refers to something refers to is known. -/
def Knows (s : Source) (rs : List Reference) (o : Operand) : Prop :=
  ∀ r, o = .reference r → Follows s.definition? rs r

theorem AgreeOn.toValue (h : s.AgreeOn t rs) {o : Operand} (ho : s.Knows rs o) :
    o.toValue s = o.toValue t := by
  cases o with
  | value v => rfl
  | missing => rfl
  | reference r => exact h.read nameDepth r (ho r rfl)

theorem AgreeOn.readArgument (h : s.AgreeOn t rs) (kind : Parameter.Kind) {o : Operand}
    (ho : s.Knows rs o) : Argument.read s kind o = Argument.read t kind o := by
  cases o with
  | value v => cases kind <;> cases v <;> rfl
  | missing => cases kind <;> rfl
  | reference r =>
    have hv := h.toValue ho
    have hr := h.valuesAt (ho r rfl)
    cases kind <;> simp only [Argument.read, hv, hr]

theorem AgreeOn.argument (h : s.AgreeOn t rs) (p : Parameter) {o : Operand} (ho : s.Knows rs o) :
    Argument.ofOperand s p o = Argument.ofOperand t p o := by
  have hmissing : s.Knows rs (.value .empty) := fun r e => nomatch e
  cases o with
  | value v => exact h.readArgument p.kind ho
  | missing => exact congrArg (ite _ · _) (h.readArgument p.kind hmissing)
  | reference r => exact congrArg (ite _ · _) (h.readArgument p.kind ho)

theorem AgreeOn.call (h : s.AgreeOn t rs) {f : Function} {a b : Ambient}
    (hab : a = b ∨ f.isVolatile = false) {os : List Operand} (ho : ∀ o ∈ os, s.Knows rs o) :
    f.call s a os = f.call t b os := by
  have hresult (args : Arguments) : f.result a args = f.result b args := by
    rcases hab with rfl | hf
    · rfl
    · exact f.result_eq_of_steady hf a b args
  have hargs (ps : List Parameter) :
      List.zipWith (Argument.ofOperand s) ps os = List.zipWith (Argument.ofOperand t) ps os := by
    induction os generalizing ps with
    | nil => simp
    | cons o os ih =>
      cases ps with
      | nil => rfl
      | cons p ps =>
        rw [List.zipWith_cons_cons, List.zipWith_cons_cons,
          h.argument p (ho o List.mem_cons_self),
          ih (fun o ho' => ho o (List.mem_cons_of_mem _ ho'))]
  unfold Function.call
  split
  · rfl
  · simp only [hargs, hresult]

mutual
/-- Over the tree: every part gives the same operand, and refers to nothing unknown. -/
theorem AgreeOn.operand (h : s.AgreeOn t rs) : ∀ (e : Expr) (a b : Ambient),
    (∀ r ∈ e.references, r ∈ rs) → SameFunctions s.function? t.function? e.calls →
      Undisturbed s.function? e.calls a b →
        e.operand s a = e.operand t b ∧ s.Knows rs (e.operand s a)
  | .literal _, _, _, _, _, _ => ⟨rfl, fun _ e => nomatch e⟩
  | .array _, _, _, _, _, _ => ⟨rfl, fun _ e => nomatch e⟩
  | .missing, _, _, _, _, _ => ⟨rfl, fun _ e => nomatch e⟩
  | .reference r, _, _, hr, _, _ => by
    refine ⟨rfl, fun r' e => ?_⟩
    cases e
    exact .direct (hr r (List.mem_singleton_self r))
  | .name n, _, _, hr, _, _ => by
    have hn : Follows s.definition? rs (.single (.name n)) :=
      .direct (hr _ (List.mem_singleton_self _))
    unfold Expr.operand
    rw [← h.names n hn]
    refine ⟨rfl, fun r e => ?_⟩
    split at e <;> cases e
    rename_i hd
    exact .name hn hd
  | .sign g e, a, b, hr, hf, hc => by
    obtain ⟨he, hk⟩ := h.operand e a b hr hf hc
    unfold Expr.operand
    rw [← he, h.toValue hk]
    exact ⟨rfl, fun _ e => nomatch e⟩
  | .paren e, a, b, hr, hf, hc => by
    unfold Expr.operand
    exact h.operand e a b hr hf hc
  | .binary op left right, a, b, hr, hf, hc => by
    obtain ⟨hl, hkl⟩ := h.operand left (a.branch 0) (b.branch 0)
      (fun r hm => hr r (List.mem_append_left _ hm))
      (fun n hm => hf n (List.mem_append_left _ hm))
      ((hc.mono fun n hm => List.mem_append_left _ hm).branch 0)
    obtain ⟨hri, hkr⟩ := h.operand right (a.branch 1) (b.branch 1)
      (fun r hm => hr r (List.mem_append_right _ hm))
      (fun n hm => hf n (List.mem_append_right _ hm))
      ((hc.mono fun n hm => List.mem_append_right _ hm).branch 1)
    unfold Expr.operand
    rw [← hl, ← hri, h.toValue hkl, h.toValue hkr]
    exact ⟨rfl, fun _ e => nomatch e⟩
  | .call f args, a, b, hr, hf, hc => by
    obtain ⟨ha, hk⟩ := h.operands args a b 0 hr (fun n hm => hf n (List.mem_cons_of_mem f hm))
      (hc.mono fun n hm => List.mem_cons_of_mem f hm)
    unfold Expr.operand
    rw [← hf f List.mem_cons_self, ← ha]
    cases hg : s.function? f with
    | none => exact ⟨rfl, fun _ e => nomatch e⟩
    | some g =>
      dsimp only
      rw [h.call (hc.imp_right fun hs => hs f List.mem_cons_self g hg) hk]
      exact ⟨rfl, fun _ e => nomatch e⟩
theorem AgreeOn.operands (h : s.AgreeOn t rs) : ∀ (es : List Expr) (a b : Ambient) (i : Nat),
    (∀ r ∈ Expr.referencesAll es, r ∈ rs) →
      SameFunctions s.function? t.function? (Expr.callsIn es) →
      Undisturbed s.function? (Expr.callsIn es) a b →
        Expr.operands s a i es = Expr.operands t b i es ∧
          ∀ o ∈ Expr.operands s a i es, s.Knows rs o
  | [], _, _, _, _, _, _ => by
    unfold Expr.operands
    exact ⟨rfl, fun _ ho => absurd ho List.not_mem_nil⟩
  | e :: es, a, b, i, hr, hf, hc => by
    obtain ⟨he, hk⟩ := h.operand e (a.branch i) (b.branch i)
      (fun r hm => hr r (List.mem_append_left _ hm))
      (fun n hm => hf n (List.mem_append_left _ hm))
      ((hc.mono fun n hm => List.mem_append_left _ hm).branch i)
    obtain ⟨hes, hks⟩ := h.operands es a b (i + 1)
      (fun r hm => hr r (List.mem_append_right _ hm))
      (fun n hm => hf n (List.mem_append_right _ hm))
      (hc.mono fun n hm => List.mem_append_right _ hm)
    unfold Expr.operands
    rw [← he, ← hes]
    refine ⟨rfl, fun o ho => ?_⟩
    rcases List.mem_cons.mp ho with rfl | ho
    · exact hk
    · exact hks o ho
end

end Source

/-- A formula has the same value for sources that agree on what it comes to read and call. -/
theorem Formula.evaluate_congr {s t : Source} {f : Formula} (h : s.AgreeOn t f.references)
    (hf : SameFunctions s.function? t.function? f.expr.calls)
    (hc : Undisturbed s.function? f.expr.calls s.ambient t.ambient) :
    f.evaluate s = f.evaluate t := by
  obtain ⟨he, hk⟩ := h.operand f.expr s.ambient t.ambient (fun _ hr => hr) hf hc
  have hv : f.expr.evaluate s = f.expr.evaluate t := by
    unfold Expr.evaluate
    rw [← he, h.toValue hk]
  unfold Formula.evaluate
  rw [hv]

end Spreadsheet
