import Spreadsheet.Evaluation.Basic
import Spreadsheet.Proofs.Calendar.Existing
import Spreadsheet.Proofs.Formula.Literals
import Spreadsheet.Value.Entry

/-! Evaluation makes no number that is not finite. Arithmetic is checked where it is done; what is
left unchecked is negation, which changes the sign alone, and the serial number of a date, which is
finite as long as the date exists. So values are taken with both: their numbers are finite and
their dates exist. Functions are asked to keep to that. -/

namespace Spreadsheet

/-! ## Results -/

/-- The result, unless it is an error, has the property. -/
def Yields {α : Type} (P : α → Prop) (r : Except ErrorCode α) : Prop := ∀ a, r = .ok a → P a

section

variable {α β : Type} {P : α → Prop} {Q : β → Prop}

theorem yields_ok {a : α} (h : P a) : Yields P (.ok a) := fun b hb => by
  cases hb
  exact h

theorem yields_error (e : ErrorCode) : Yields P (.error e) := nofun

theorem Yields.bind {r : Except ErrorCode α} {f : α → Except ErrorCode β} (h : Yields P r)
    (hf : ∀ a, P a → Yields Q (f a)) : Yields Q (r >>= f) := by
  cases r with
  | ok a => exact hf a (h a rfl)
  | error e => exact yields_error e

theorem Yields.map {r : Except ErrorCode α} {f : α → β} (h : Yields P r)
    (hf : ∀ a, P a → Q (f a)) : Yields Q (r.map f) := by
  cases r with
  | ok a => exact yields_ok (hf a (h a rfl))
  | error e => exact yields_error e

end

/-! ## Values -/

/-- Its numbers, also those inside a block, are finite, and its dates exist. -/
inductive Value.IsFinite : Value → Prop
  | empty : IsFinite .empty
  | text (s : String) : IsFinite (.text s)
  | number {x : Float} (h : x.isFinite = true) : IsFinite (.number x)
  | logical (b : Bool) : IsFinite (.logical b)
  | date {m : Calendar.Moment} (h : m.Exists) : IsFinite (.date m)
  | error (e : ErrorCode) : IsFinite (.error e)
  | array {rows : List (List Value)} (h : ∀ row ∈ rows, ∀ v ∈ row, IsFinite v) :
    IsFinite (.array rows)

namespace Value

variable {v : Value}

theorem isFinite_ofNumber (x : Float) : (ofNumber x).IsFinite := by
  unfold ofNumber
  split
  · next h => exact .number h
  · exact .error _

theorem isFinite_ofResult {α : Type} {P : α → Prop} {make : α → Value} {r : Except ErrorCode α}
    (h : Yields P r) (hmake : ∀ a, P a → (make a).IsFinite) : (ofResult make r).IsFinite := by
  cases r with
  | ok a => exact hmake a (h a rfl)
  | error e => exact .error e

theorem isFinite_of_readFinite? {s : String} {x : Float} (h : Number.readFinite? s = some x) :
    x.isFinite = true :=
  (Option.filter_eq_some_iff.mp h).2

theorem isFinite_infer (patterns : List String) (raw : String) : (infer patterns raw).IsFinite := by
  unfold infer
  dsimp only
  split
  · exact .empty
  · split
    · exact .text _
    · split
      · next h => exact .number (isFinite_of_readFinite? h)
      · split
        · next h => exact .date (Calendar.exists_of_read? h)
        · split
          · exact .logical _
          · exact .text _

theorem yields_toNumber_array {P : Float → Prop} {rows : List (List Value)}
    (h : ∀ row ∈ rows, ∀ v ∈ row, Yields P v.toNumber) : Yields P (array rows).toNumber := by
  unfold toNumber
  split <;> try contradiction
  · next e =>
    cases e
    exact h _ (List.mem_singleton_self _) _ (List.mem_singleton_self _)
  · exact yields_error _

namespace IsFinite

theorem items (h : v.IsFinite) : ∀ w ∈ v.items, w.IsFinite := by
  cases h with
  | array h =>
    intro w hw
    obtain ⟨row, hrow, hw⟩ := List.mem_flatten.mp hw
    exact h row hrow w hw
  | _ =>
    intro w hw
    rw [List.mem_singleton.mp hw]
    constructor <;> assumption

/-- A block is read through its one value, so this goes by the depth of blocks. -/
theorem toNumber (h : v.IsFinite) : Yields (·.isFinite = true) v.toNumber := by
  induction h with
  | empty => exact yields_ok rfl
  | text s =>
    unfold Value.toNumber
    split
    · next h => exact yields_ok (isFinite_of_readFinite? h)
    · exact yields_error _
  | number h => exact yields_ok h
  | logical b => cases b <;> exact yields_ok rfl
  | date h => exact yields_ok (Calendar.isFinite_serial h)
  | error e => exact yields_error e
  | array _ ih => exact yields_toNumber_array ih

end IsFinite

end Value

theorem Sign.isFinite_apply (g : Sign) {v : Value} (h : v.IsFinite) : (g.apply v).IsFinite := by
  refine Value.isFinite_ofResult (h.toNumber.map fun x hx => ?_) fun x hx => .number hx
  cases g with
  | plus => exact hx
  | minus => exact Number.isFinite_neg hx

theorem BinaryOp.isFinite_apply (op : BinaryOp) (v w : Value) : (op.apply v w).IsFinite := by
  have harithmetic (f : Float → Float → Value) (hf : op.arithmetic? = some f) (x y : Float) :
      (f x y).IsFinite := by
    cases op <;> cases hf <;> first | exact Value.isFinite_ofNumber _ | skip
    dsimp only
    split
    · exact .error _
    · exact Value.isFinite_ofNumber _
  unfold apply
  split
  · next f hf =>
    split
    · exact harithmetic f hf _ _
    · exact .error _
    · exact .error _
  · split
    · exact Value.isFinite_ofResult (fun _ _ => trivial) fun s _ => .text s
    · exact Value.isFinite_ofResult (fun _ _ => trivial) fun o _ => .logical _

/-! ## Arguments and functions -/

/-- What it passes on is finite, and a reference has coordinates that lines can have. -/
def Argument.IsFinite : Argument → Prop
  | number x => x.isFinite = true
  | value v => v.IsFinite
  | numbers xs => ∀ x ∈ xs, x.isFinite = true
  | block rows => ∀ row ∈ rows, ∀ v ∈ row, v.IsFinite
  | reference r => r.Addressable
  | text _ | logical _ | logicals _ | missing | error _ => True

/-- From finite arguments, at a time that exists, the function makes a finite value. -/
def Function.KeepsFinite (f : Function) : Prop :=
  ∀ (a : Ambient) (args : Arguments), a.now.Exists → (∀ x ∈ args, x.IsFinite) →
    (f.result a args).IsFinite

/-- What a name stands for is finite, or a reference with coordinates that lines can have. -/
def Definition.IsFinite : Definition → Prop
  | value v => v.IsFinite
  | reference r => r.Addressable

def Operand.IsFinite : Operand → Prop
  | value v => v.IsFinite
  | reference r => r.Addressable
  | missing => True

theorem Literal.IsFinite.toValue {l : Literal} (h : l.IsFinite) : l.toValue.IsFinite := by
  cases l with
  | number x => exact .number h
  | text s => exact .text s
  | logical b => exact .logical b
  | error e => exact .error e

namespace Argument

theorem isFinite_ofNumber (v : Value) : (ofNumber v).IsFinite := by
  unfold ofNumber
  split
  · split
    · next h => exact h
    · trivial
  · trivial

/-- The other numbers are looked at before they are taken. -/
theorem yields_numbersOf_of_dates {vs : List Value} (h : ∀ m, .date m ∈ vs → m.Exists) :
    Yields (∀ x ∈ ·, x.isFinite = true) (numbersOf vs) := by
  induction vs with
  | nil => exact yields_ok nofun
  | cons v vs ih =>
    have hrest := ih fun m hm => h m (List.mem_cons_of_mem v hm)
    have hcons {x : Float} (hx : x.isFinite = true) :
        Yields (∀ y ∈ ·, y.isFinite = true) (numbersOf vs >>= fun xs => .ok (x :: xs)) :=
      hrest.bind fun xs hxs => yields_ok (List.forall_mem_cons.mpr ⟨hx, hxs⟩)
    cases v with
    | number x =>
      unfold numbersOf
      split
      · next hx => exact hcons hx
      · exact yields_error _
    | date m => exact hcons (Calendar.isFinite_serial (h m List.mem_cons_self))
    | error e => exact yields_error e
    | empty | text s | logical b | array rows => exact hrest

theorem yields_numbersOf {vs : List Value} (h : ∀ v ∈ vs, v.IsFinite) :
    Yields (∀ x ∈ ·, x.isFinite = true) (numbersOf vs) :=
  yields_numbersOf_of_dates fun _ hm => by
    cases h _ hm with
    | date hexists => exact hexists

theorem isFinite_ofResult {α : Type} {P : α → Prop} {make : α → Argument} {r : Except ErrorCode α}
    (h : Yields P r) (hmake : ∀ a, P a → (make a).IsFinite) : (ofResult make r).IsFinite := by
  cases r with
  | ok a => exact hmake a (h a rfl)
  | error e => trivial

theorem isFinite_ofNumbers {vs : List Value} (h : ∀ v ∈ vs, v.IsFinite) :
    (ofNumbers vs).IsFinite := isFinite_ofResult (yields_numbersOf h) fun _ hxs => hxs

theorem isFinite_ofLogicals (vs : List Value) : (ofLogicals vs).IsFinite :=
  isFinite_ofResult (fun _ _ => trivial) fun _ _ => trivial

theorem isFinite_ofAny {v : Value} (h : v.IsFinite) : (ofAny v).IsFinite := by
  cases v <;> first | exact h | trivial

theorem isFinite_ofBlock {v : Value} (h : v.IsFinite) : (ofBlock v).IsFinite := by
  cases h with
  | array h => exact h
  | error e => trivial
  | _ =>
    intro row hrow w hw
    rw [List.mem_singleton.mp hrow] at hw
    rw [List.mem_singleton.mp hw]
    constructor <;> assumption

end Argument

/-! ## Sources -/

/-- All that formulas read there is finite. -/
structure Source.IsFinite (s : Source) : Prop where
  value : ∀ p, (s.value p).IsFinite
  values : ∀ g, ∀ v ∈ s.values g, v.IsFinite
  block : ∀ g, ∀ row ∈ s.block g, ∀ v ∈ row, v.IsFinite
  definitions : ∀ n d, s.definition? n = some d → d.IsFinite
  functions : ∀ n f, s.function? n = some f → f.KeepsFinite
  now : s.ambient.now.Exists

namespace Source.IsFinite

variable {s : Source} (h : s.IsFinite)
include h

theorem read (depth : Nat) (r : Reference) : (s.read depth r).IsFinite := by
  fun_induction s.read depth r with
  | case1 => exact h.value _
  | case3 n depth v hd => exact h.definitions n _ hd
  | case4 n depth r hd _ ih => exact ih
  | case7 depth r _ g hg => exact hg ▸ .array (h.block g)
  | case8 depth r _ hg => exact hg ▸ .error _
  | case2 | case5 | case6 | case9 => exact .error _

theorem valueAt (r : Reference) : (s.valueAt r).IsFinite := h.read nameDepth r

theorem valuesAt (r : Reference) : Yields (∀ v ∈ ·, v.IsFinite) (s.valuesAt r) := by
  have hregions (r : Reference) : Yields (∀ v ∈ ·, v.IsFinite)
      (if r.isValid then .ok (r.regions.flatMap s.values) else .error .badReference) := by
    split
    · refine yields_ok fun v hv => ?_
      obtain ⟨g, -, hv⟩ := List.mem_flatMap.mp hv
      exact h.values g v hv
    · exact yields_error _
  unfold Source.valuesAt
  dsimp only
  split
  · split
    · next v hd =>
      have hv : v.IsFinite := h.definitions _ _ hd
      exact yields_ok fun w hw => hv.items w (List.mem_filter.mp hw).1
    · exact yields_error _
    · exact hregions _
    · exact yields_error _
  · exact hregions r

theorem toValue {o : Operand} (ho : o.IsFinite) : (o.toValue s).IsFinite := by
  cases o with
  | value v => exact ho
  | reference r => exact h.valueAt r
  | missing => exact .empty

theorem readArgument (kind : Parameter.Kind) {o : Operand} (ho : o.IsFinite) :
    (Argument.read s kind o).IsFinite := by
  have hv := h.toValue ho
  have hunmarked {α : Type} {r : Except ErrorCode α} {make : α → Argument}
      (hmake : ∀ a, (make a).IsFinite) : (Argument.ofResult make r).IsFinite :=
    Argument.isFinite_ofResult (fun _ _ => trivial) fun a _ => hmake a
  fun_cases Argument.read s kind o with
  | case1 r => exact ho
  | case4 => exact Argument.isFinite_ofBlock hv
  | case5 r vs hvs => exact Argument.isFinite_ofNumbers (h.valuesAt r vs hvs)
  | case7 rows => exact Argument.isFinite_ofNumbers (Value.IsFinite.items hv)
  | case8 | case14 => exact Argument.isFinite_ofNumber _
  | case9 | case11 => exact Argument.isFinite_ofLogicals _
  | case12 | case16 | case17 => exact hunmarked fun _ => trivial
  | case13 => exact Argument.isFinite_ofAny hv
  | case2 | case3 | case6 | case10 | case15 => trivial

theorem argument (p : Parameter) {o : Operand} (ho : o.IsFinite) :
    (Argument.ofOperand s p o).IsFinite := by
  unfold Argument.ofOperand
  split
  · split
    · exact h.readArgument p.kind .empty
    · trivial
  · split
    · exact h.readArgument p.kind ho
    · trivial
  · exact h.readArgument p.kind ho

theorem call {f : Function} (hf : f.KeepsFinite) {a : Ambient} (ha : a.now.Exists)
    {os : List Operand} (hos : ∀ o ∈ os, o.IsFinite) : (f.call s a os).IsFinite := by
  unfold Function.call
  split
  · exact .error _
  · next ps _ =>
    dsimp only
    split
    · exact .error _
    · refine hf a _ ha fun x hx => ?_
      obtain ⟨i, hi, rfl⟩ := List.mem_iff_getElem.mp hx
      rw [List.getElem_zipWith]
      exact h.argument _ (hos _ (List.getElem_mem _))

end Source.IsFinite

/-! ## Formulas -/

theorem Ambient.now_branch (a : Ambient) (i : Nat) : (a.branch i).now = a.now := by
  unfold branch
  rfl

theorem Ambient.exists_branch {a : Ambient} (h : a.now.Exists) (i : Nat) :
    (a.branch i).now.Exists := by
  rw [now_branch]
  exact h

namespace Source.IsFinite

variable {s : Source}

mutual
/-- Over the tree: every part is a finite operand. -/
theorem operand (h : s.IsFinite) : ∀ (e : Expr) (a : Ambient), a.now.Exists →
    (∀ l ∈ e.literals, l.IsFinite) → e.EachReference Reference.Addressable →
      (e.operand s a).IsFinite
  | .literal l, _, _, hl, _ => by
    unfold Expr.operand
    exact (hl l (List.mem_singleton_self l)).toValue
  | .name n, _, _, _, _ => by
    unfold Expr.operand
    split
    · next hd => exact h.definitions n _ hd
    · next hd => exact h.definitions n _ hd
    · exact .error _
  | .reference r, _, _, _, hr => by
    unfold Expr.operand
    exact hr
  | .sign g e, a, ha, hl, hr => by
    unfold Expr.operand
    exact Sign.isFinite_apply g (h.toValue (h.operand e a ha hl hr))
  | .binary op left right, _, _, _, _ => by
    unfold Expr.operand
    exact BinaryOp.isFinite_apply op _ _
  | .paren e, a, ha, hl, hr => by
    unfold Expr.operand
    exact h.operand e a ha hl hr
  | .call f args, a, ha, hl, hr => by
    unfold Expr.operand
    split
    · next g hg => exact h.call (h.functions f g hg) ha (h.operands args a 0 ha hl hr)
    · exact .error _
  | .array rows, _, _, hl, _ => by
    unfold Expr.operand
    refine .array fun row hrow v hv => ?_
    obtain ⟨ls, hls, rfl⟩ := List.mem_map.mp hrow
    obtain ⟨l, hmem, rfl⟩ := List.mem_map.mp hv
    exact (hl l (List.mem_flatten.mpr ⟨ls, hls, hmem⟩)).toValue
  | .missing, _, _, _, _ => trivial
theorem operands (h : s.IsFinite) : ∀ (es : List Expr) (a : Ambient) (i : Nat), a.now.Exists →
    (∀ l ∈ Expr.literalsIn es, l.IsFinite) → Expr.EachReferenceIn Reference.Addressable es →
      ∀ o ∈ Expr.operands s a i es, o.IsFinite
  | [], _, _, _, _, _ => nofun
  | e :: es, a, i, ha, hl, hr => by
    have hbranch := Ambient.exists_branch ha i
    have hfirst := h.operand e (a.branch i) hbranch
      (fun l hm => hl l (List.mem_append_left _ hm)) hr.1
    have hrest := h.operands es a (i + 1) ha
      (fun l hm => hl l (List.mem_append_right _ hm)) hr.2
    exact List.forall_mem_cons.mpr ⟨hfirst, hrest⟩
end

theorem evaluate (h : s.IsFinite) {f : Formula} (hf : f.expr.IsFinite) :
    (f.evaluate s).IsFinite := by
  unfold Formula.evaluate
  split
  · exact h.toValue (h.operand f.expr s.ambient h.now hf.literals hf.references)
  · exact .error _

end Source.IsFinite

end Spreadsheet
