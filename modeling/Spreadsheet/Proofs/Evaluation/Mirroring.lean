import Mathlib.Data.List.Forall2
import Spreadsheet.Proofs.Evaluation.Frame

/-! Formulas with other references in the places of theirs. Where each of these shows what the one
that it stands for shows elsewhere, the formulas have one value. All a formula sees of a reference
is what it reads there, unless a function takes the reference itself. -/

namespace Spreadsheet

/-- None of the named functions takes a reference as it is: they are given what is read there. -/
def TakesValues (function? : String → Option Function) (names : List String) : Prop :=
  ∀ n ∈ names, ∀ f, function? n = some f → ∀ p ∈ f.parameters, p.kind ≠ .reference

theorem TakesValues.mono {function? : String → Option Function} {names names' : List String}
    (h : TakesValues function? names) (hn : ∀ n ∈ names', n ∈ names) :
    TakesValues function? names' :=
  fun n hm => h n (hn n hm)

/-- The second source shows under the replaced references what the first shows under the references
themselves, none of which is a name. -/
structure Source.Mirrors (s t : Source) (replace : Reference → Reference) (rs : List Reference) :
    Prop where
  unnamed : ∀ n, .ofName n ∉ rs
  valid : ∀ r ∈ rs, (replace r).isValid = r.isValid
  value : ∀ r ∈ rs, t.valueAt (replace r) = s.valueAt r
  values : ∀ r ∈ rs, t.valuesAt (replace r) = s.valuesAt r

/-- The operand that stands in the place of another. -/
inductive Operand.Replaced (replace : Reference → Reference) (rs : List Reference) :
    Operand → Operand → Prop
  | value (v : Value) : Replaced replace rs (.value v) (.value v)
  | missing : Replaced replace rs .missing .missing
  | reference {r : Reference} (mem : r ∈ rs) :
      Replaced replace rs (.reference r) (.reference (replace r))

namespace Source.Mirrors

open Operand (Replaced)

variable {s t : Source} {replace : Reference → Reference} {rs : List Reference}
  {o o' : Operand}

theorem toValue (h : s.Mirrors t replace rs) (ho : Replaced replace rs o o') :
    o'.toValue t = o.toValue s := by
  cases ho with
  | value v => rfl
  | missing => rfl
  | reference mem => exact h.value _ mem

theorem read (h : s.Mirrors t replace rs) (ho : Replaced replace rs o o')
    {kind : Parameter.Kind} (hkind : kind ≠ .reference) :
    Argument.read t kind o' = Argument.read s kind o := by
  cases ho with
  | value v => cases kind <;> cases v <;> rfl
  | missing => cases kind <;> rfl
  | @reference r mem =>
    have hvalue := h.toValue (.reference mem)
    have hvalues := h.values r mem
    cases kind <;> first | contradiction | simp only [Argument.read, hvalue, hvalues]

theorem argument (h : s.Mirrors t replace rs) (ho : Replaced replace rs o o')
    {p : Parameter} (hp : p.kind ≠ .reference) :
    Argument.ofOperand t p o' = Argument.ofOperand s p o := by
  cases ho with
  | value v => exact h.read (.value v) hp
  | missing => exact congrArg (ite _ · _) (h.read (.value .empty) hp)
  | @reference r mem =>
    unfold Argument.ofOperand
    dsimp only
    rw [h.valid r mem, h.read (.reference mem) hp]

theorem arguments (h : s.Mirrors t replace rs) {os os' : List Operand}
    (ho : List.Forall₂ (Replaced replace rs) os os') {ps : List Parameter}
    (hps : ∀ p ∈ ps, p.kind ≠ .reference) :
    List.zipWith (Argument.ofOperand t) ps os' = List.zipWith (Argument.ofOperand s) ps os := by
  induction ho generalizing ps with
  | nil => simp
  | cons ho _ ih =>
    cases ps with
    | nil => rfl
    | cons p ps =>
      rw [List.zipWith_cons_cons, List.zipWith_cons_cons, h.argument ho (hps p List.mem_cons_self),
        ih fun p hp => hps p (List.mem_cons_of_mem _ hp)]

theorem call (h : s.Mirrors t replace rs) {f : Function} {a b : Ambient}
    (hab : a = b ∨ f.isVolatile = false) (hf : ∀ p ∈ f.parameters, p.kind ≠ .reference)
    {os os' : List Operand} (ho : List.Forall₂ (Replaced replace rs) os os') :
    f.call t b os' = f.call s a os := by
  have hresult (args : Arguments) : f.result b args = f.result a args := by
    rcases hab with rfl | hf
    · rfl
    · exact f.result_eq_of_steady hf b a args
  unfold Function.call
  rw [← ho.length_eq]
  cases hps : Parameter.forArguments? f.parameters os.length with
  | none => rfl
  | some ps =>
    dsimp only
    rw [h.arguments ho fun p hp => hf p (Parameter.mem_of_forArguments? hps hp)]
    simp only [hresult]

mutual
/-- Over the tree: every part keeps its operand, except that a reference is replaced. -/
theorem operand (h : s.Mirrors t replace rs) : ∀ (e : Expr) (a b : Ambient),
    (∀ r ∈ e.references, r ∈ rs) → SameFunctions s.function? t.function? e.calls →
      Undisturbed s.function? e.calls a b → TakesValues s.function? e.calls →
        Replaced replace rs (e.operand s a) ((e.mapReferences replace).operand t b)
  | .literal l, _, _, _, _, _, _ => .value l.toValue
  | .array _, _, _, _, _, _, _ => .value _
  | .missing, _, _, _, _, _, _ => .missing
  | .reference r, _, _, hr, _, _, _ => .reference (hr r (List.mem_singleton_self r))
  | .name n, _, _, hr, _, _, _ => absurd (hr _ (List.mem_singleton_self _)) (h.unnamed n)
  | .sign g e, a, b, hr, hf, hc, hv => by
    unfold Expr.mapReferences Expr.operand
    rw [h.toValue (h.operand e a b hr hf hc hv)]
    exact .value _
  | .paren e, a, b, hr, hf, hc, hv => by
    unfold Expr.mapReferences Expr.operand
    exact h.operand e a b hr hf hc hv
  | .binary op left right, a, b, hr, hf, hc, hv => by
    have hleft := h.operand left (a.branch 0) (b.branch 0)
      (fun r hm => hr r (List.mem_append_left _ hm))
      (fun n hm => hf n (List.mem_append_left _ hm))
      ((hc.mono fun n hm => List.mem_append_left _ hm).branch 0)
      (hv.mono fun n hm => List.mem_append_left _ hm)
    have hright := h.operand right (a.branch 1) (b.branch 1)
      (fun r hm => hr r (List.mem_append_right _ hm))
      (fun n hm => hf n (List.mem_append_right _ hm))
      ((hc.mono fun n hm => List.mem_append_right _ hm).branch 1)
      (hv.mono fun n hm => List.mem_append_right _ hm)
    unfold Expr.mapReferences Expr.operand
    rw [h.toValue hleft, h.toValue hright]
    exact .value _
  | .call f args, a, b, hr, hf, hc, hv => by
    have hargs := h.operands args a b 0 hr (fun n hm => hf n (List.mem_cons_of_mem f hm))
      (hc.mono fun n hm => List.mem_cons_of_mem f hm)
      (hv.mono fun n hm => List.mem_cons_of_mem f hm)
    unfold Expr.mapReferences Expr.operand
    rw [← hf f List.mem_cons_self]
    cases hg : s.function? f with
    | none => exact .value _
    | some g =>
      dsimp only
      rw [h.call (hc.imp_right fun hs => hs f List.mem_cons_self g hg)
        (hv f List.mem_cons_self g hg) hargs]
      exact .value _
theorem operands (h : s.Mirrors t replace rs) : ∀ (es : List Expr) (a b : Ambient) (i : Nat),
    (∀ r ∈ Expr.referencesAll es, r ∈ rs) →
      SameFunctions s.function? t.function? (Expr.callsIn es) →
      Undisturbed s.function? (Expr.callsIn es) a b → TakesValues s.function? (Expr.callsIn es) →
        List.Forall₂ (Replaced replace rs) (Expr.operands s a i es)
          (Expr.operands t b i (Expr.mapReferencesAll replace es))
  | [], _, _, _, _, _, _, _ => .nil
  | e :: es, a, b, i, hr, hf, hc, hv => by
    unfold Expr.mapReferencesAll Expr.operands
    refine .cons ?_ ?_
    · exact h.operand e (a.branch i) (b.branch i) (fun r hm => hr r (List.mem_append_left _ hm))
        (fun n hm => hf n (List.mem_append_left _ hm))
        ((hc.mono fun n hm => List.mem_append_left _ hm).branch i)
        (hv.mono fun n hm => List.mem_append_left _ hm)
    · exact h.operands es a b (i + 1) (fun r hm => hr r (List.mem_append_right _ hm))
        (fun n hm => hf n (List.mem_append_right _ hm))
        (hc.mono fun n hm => List.mem_append_right _ hm)
        (hv.mono fun n hm => List.mem_append_right _ hm)
end

end Source.Mirrors

/-- A formula whose references are replaced by ones that show the same has the same value. -/
theorem Formula.evaluate_mapReferences {s t : Source} {f : Formula}
    {replace : Reference → Reference} (h : s.Mirrors t replace f.references)
    (hf : SameFunctions s.function? t.function? f.expr.calls)
    (hc : Undisturbed s.function? f.expr.calls s.ambient t.ambient)
    (hv : TakesValues s.function? f.expr.calls) :
    (f.mapReferences replace).evaluate t = f.evaluate s := by
  have hoperand := h.operand f.expr s.ambient t.ambient (fun _ hr => hr) hf hc hv
  have hvalue : (f.expr.mapReferences replace).evaluate t = f.expr.evaluate s :=
    h.toValue hoperand
  unfold Formula.evaluate
  exact congrArg (ite _ · _) hvalue

end Spreadsheet
