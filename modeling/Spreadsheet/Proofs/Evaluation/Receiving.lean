import Spreadsheet.Proofs.Evaluation.Settled
import Spreadsheet.Proofs.Evaluation.Finite
import Spreadsheet.Function.Registry

/-! What the body of a function receives. A call reaches the body with one argument for each
operand, each as the parameter at its place asks for it, or it ends with an error and the body is
not asked. As a parameter list is only accepted with the required parameters first and a repeating
one last, every look of a body for an argument that its parameters promise finds one of the right
kind. -/

namespace Spreadsheet

namespace Parameter

/-- The parameter that reads the argument at `i`: the one at that place, or the last when it
repeats. -/
def governing? (ps : List Parameter) (i : Nat) : Option Parameter := ps[i]?.or (repeated? ps)

/-- As many arguments as the parameters ask for. -/
structure Fits (ps : List Parameter) (count : Nat) : Prop where
  enough : ps.countP (·.required) ≤ count
  room : (repeated? ps).isSome = true ∨ count ≤ ps.length

/-- The argument is what a parameter of the kind asks for. -/
def Kind.Admits : Kind → Argument → Prop
  | number, .number x => x.isFinite = true
  | text, .text _ => True
  | logical, .logical _ => True
  | any, .value v => v.isError = false
  | numbers, .number x => x.isFinite = true
  | numbers, .numbers xs => ∀ x ∈ xs, x.isFinite = true
  | logicals, .logical _ => True
  | logicals, .logicals _ => True
  | reference, .reference r => r.isValid = true
  | block, .block _ => True
  | _, _ => False

/-- The argument is what the parameter asks for; it may be left out where it is not required, and it
may be an error where the function takes errors. -/
def Admits (p : Parameter) (acceptsErrors : Bool) : Argument → Prop
  | .missing => p.required = false
  | .error _ => acceptsErrors = true
  | x => p.kind.Admits x

/-! ## Places of parameters -/

variable {ps qs : List Parameter} {p : Parameter} {count i : Nat}

theorem forArguments?_eq_none_iff : forArguments? ps count = none ↔ ¬ Fits ps count := by
  unfold forArguments?
  split
  · next hfew => exact iff_of_true rfl fun h => absurd h.enough (Nat.not_le_of_lt hfew)
  · next henough =>
    have henough := Nat.le_of_not_lt henough
    split
    · next hrepeated =>
      exact iff_of_false nofun (not_not_intro ⟨henough, .inl (by rw [hrepeated]; rfl)⟩)
    · next hrepeated =>
      split
      · next hroom => exact iff_of_false nofun (not_not_intro ⟨henough, .inr hroom⟩)
      · next hroom => exact iff_of_true rfl fun h => h.room.elim (by simp [hrepeated]) hroom

theorem fits_of_forArguments? (h : forArguments? ps count = some qs) : Fits ps count :=
  by_contra fun hfits => by cases h.symm.trans (forArguments?_eq_none_iff.mpr hfits)

theorem getElem?_of_forArguments? (h : forArguments? ps count = some qs) (hi : i < count) :
    qs[i]? = governing? ps i := by
  unfold forArguments? at h
  unfold governing?
  split at h
  · cases h
  · split at h
    · next last hrepeated =>
      cases h
      rw [hrepeated, List.getElem?_append, List.length_take, List.getElem?_take,
        List.getElem?_replicate]
      split_ifs <;> grind
    · next hrepeated =>
      split at h
      · cases h
        rw [hrepeated, List.getElem?_take_of_lt hi, Option.or_none]
      · cases h

/-- Behind an optional parameter all are optional. -/
theorem required_eq_false_of_listError? (h : listError? true ps = none) :
    ∀ p ∈ ps, p.required = false := by
  induction ps with
  | nil => nofun
  | cons q rest ih =>
    rw [listError?] at h
    split_ifs at h with hrepeating hrequired
    have hq : q.required = false := by simpa using hrequired
    exact List.forall_mem_cons.mpr ⟨hq, ih h⟩

/-- The required parameters come first, so an argument list that is long enough has them all. -/
theorem lt_countP_of_listError? (h : listError? false ps = none) (hp : ps[i]? = some p)
    (hrequired : p.required = true) : i < ps.countP (·.required) := by
  induction ps generalizing i with
  | nil => cases hp
  | cons q rest ih =>
    rw [listError?] at h
    split_ifs at h
    cases hq : q.required with
    | false =>
      rw [hq] at h
      have hmem : p ∈ q :: rest := List.mem_of_getElem? hp
      have hoptional : ∀ p ∈ q :: rest, p.required = false :=
        List.forall_mem_cons.mpr ⟨hq, required_eq_false_of_listError? h⟩
      exact absurd (hoptional p hmem) (by simp [hrequired])
    | true =>
      rw [hq] at h
      rw [List.countP_cons_of_pos hq]
      cases i with
      | zero => exact Nat.succ_pos _
      | succ i => exact Nat.succ_lt_succ (ih h hp)

theorem succ_eq_length_of_listError? {after : Bool} (h : listError? after ps = none)
    (hp : ps[i]? = some p) (hrepeating : p.repeating = true) : i + 1 = ps.length := by
  induction ps generalizing i after with
  | nil => cases hp
  | cons q rest ih =>
    rw [listError?] at h
    split_ifs at h with hlast
    cases i with
    | zero =>
      cases hp
      have : rest = [] := by simpa [hrepeating] using hlast
      rw [this]
      rfl
    | succ i => rw [ih h hp, List.length_cons]

/-- A repeating parameter reads every argument from its place on. -/
theorem governing?_of_repeating (h : listError? false ps = none) (hp : ps[i]? = some p)
    (hrepeating : p.repeating = true) {j : Nat} (hj : i ≤ j) : governing? ps j = some p := by
  have hlength := succ_eq_length_of_listError? h hp hrepeating
  unfold governing?
  rcases Nat.eq_or_lt_of_le hj with rfl | hlt
  · rw [hp, Option.some_or]
  · rw [List.getElem?_eq_none (by omega), Option.none_or, repeated?, List.getLast?_eq_getElem?,
      ← hlength, Nat.add_sub_cancel, hp]
    exact Option.filter_some_pos hrepeating

theorem governing?_of_getElem? (hp : ps[i]? = some p) : governing? ps i = some p := by
  rw [governing?, hp, Option.some_or]

end Parameter

/-! ## Conversions -/

/-- Its dates, also those in the rows of a block, are of the calendar. -/
def Value.DatesExist (v : Value) : Prop := ∀ m, .date m ∈ v.items → m.Exists

/-- The dates that formulas read there are of the calendar. -/
structure Source.DatesExist (s : Source) : Prop where
  values : ∀ g m, .date m ∈ s.values g → m.Exists
  definitions : ∀ n v, s.definition? n = some (.value v) → v.DatesExist

def Operand.DatesExist : Operand → Prop
  | value v => v.DatesExist
  | reference _ | missing => True

namespace Argument

variable {s : Source} {p : Parameter} {o : Operand} {acceptsErrors : Bool}

theorem admits_ofResult {α : Type} {P : α → Prop} {make : α → Argument} {r : Except ErrorCode α}
    (h : Yields P r) (hmake : ∀ a, P a → p.Admits true (make a)) :
    p.Admits true (ofResult make r) := by
  cases r with
  | ok a => exact hmake a (h a rfl)
  | error e => rfl

theorem admits_ofNumber (hkind : p.kind = .number ∨ p.kind = .numbers) (v : Value) :
    p.Admits true (ofNumber v) := by
  unfold ofNumber
  split
  · split
    · next hx =>
      rcases hkind with h | h <;> simpa [Parameter.Admits, h, Parameter.Kind.Admits] using hx
    · rfl
  · rfl

theorem admits_ofAny (hkind : p.kind = .any) (v : Value) : p.Admits true (ofAny v) := by
  cases v <;> simp [Parameter.Admits, ofAny, hkind, Parameter.Kind.Admits, Value.isError,
    Value.error?]

theorem admits_ofBlock (hkind : p.kind = .block) (v : Value) : p.Admits true (ofBlock v) := by
  cases v <;> simp [Parameter.Admits, ofBlock, hkind, Parameter.Kind.Admits]

end Argument

namespace Source.DatesExist

variable {s : Source} (h : s.DatesExist)
include h

theorem valuesAt (r : Reference) : Yields (fun vs => ∀ m, .date m ∈ vs → m.Exists)
    (s.valuesAt r) := by
  have hregions (r : Reference) : Yields (fun vs => ∀ m, .date m ∈ vs → m.Exists)
      (if r.isValid then .ok (r.regions.flatMap s.values) else .error .badReference) := by
    split
    · refine yields_ok fun m hm => ?_
      obtain ⟨g, -, hm⟩ := List.mem_flatMap.mp hm
      exact h.values g m hm
    · exact yields_error _
  unfold Source.valuesAt
  dsimp only
  split
  · split
    · next v hd => exact yields_ok fun m hm => h.definitions _ v hd m (List.mem_filter.mp hm).1
    · exact yields_error _
    · exact hregions _
    · exact yields_error _
  · exact hregions r

/-- What an operand is read as, where a reference is not cut off. -/
theorem admits_read {p : Parameter} {kind : Parameter.Kind} (hkind : p.kind = kind) {o : Operand}
    (ho : o.DatesExist) (hvalid : ∀ r, o = .reference r → r.isValid = true) :
    p.Admits true (Argument.read s kind o) := by
  have hunmarked {α : Type} {r : Except ErrorCode α} {make : α → Argument}
      (hmake : ∀ a, p.Admits true (make a)) : p.Admits true (Argument.ofResult make r) :=
    Argument.admits_ofResult (fun _ _ => trivial) fun a _ => hmake a
  have hnumbers (hkind : p.kind = .numbers) (xs : List Float) (hxs : ∀ x ∈ xs, x.isFinite = true) :
      p.Admits true (.numbers xs) := by
    simpa [Parameter.Admits, hkind, Parameter.Kind.Admits] using hxs
  revert hkind
  fun_cases Argument.read s kind o <;> intro hkind
  next r => simpa [Parameter.Admits, hkind, Parameter.Kind.Admits] using hvalid r rfl
  case case4 => exact Argument.admits_ofBlock hkind _
  case case5 r vs hvs =>
    have hfinite := Argument.yields_numbersOf_of_dates (h.valuesAt r vs hvs)
    exact Argument.admits_ofResult hfinite (hnumbers hkind)
  case case7 rows =>
    exact Argument.admits_ofResult (Argument.yields_numbersOf_of_dates ho) (hnumbers hkind)
  case case8 => exact Argument.admits_ofNumber (.inr hkind) _
  case case13 => exact Argument.admits_ofAny hkind _
  case case14 => exact Argument.admits_ofNumber (.inl hkind) _
  case case2 | case3 | case6 | case10 | case15 => rfl
  all_goals exact hunmarked fun _ => by simp [Parameter.Admits, hkind, Parameter.Kind.Admits]

theorem admits_ofOperand (p : Parameter) {o : Operand} (ho : o.DatesExist) :
    p.Admits true (Argument.ofOperand s p o) := by
  have hempty : (Operand.value .empty).DatesExist := fun m hm => by cases List.mem_singleton.mp hm
  unfold Argument.ofOperand
  split
  · split
    · exact h.admits_read rfl hempty nofun
    · next hoptional => exact Bool.eq_false_of_not_eq_true hoptional
  · next r =>
    split
    · next hr => exact h.admits_read rfl ho fun r' hr' => Operand.reference.inj hr' ▸ hr
    · rfl
  · next hreference => exact h.admits_read rfl ho fun r hr => (hreference r hr).elim

end Source.DatesExist

/-! ## Looks at arguments -/

namespace Arguments

/-- A look of a body at its arguments: through one of the readers, or at the argument itself. -/
inductive Look where
  | number (i : Nat)
  | numberOr (i : Nat)
  | text (i : Nat)
  | textOr (i : Nat)
  | logical (i : Nat)
  | reference (i : Nat)
  | value (i : Nat)
  | numbersFrom (start : Nat)
  | logicalsFrom (start : Nat)
  | argument (i : Nat)
  | argumentsFrom (start : Nat)
  deriving DecidableEq

namespace Look

/-- The two argument lists give the look one answer. -/
def Agrees (args args' : Arguments) : Look → Prop
  | number i => args.number i = args'.number i
  | numberOr i => ∀ default, args.numberOr i default = args'.numberOr i default
  | text i => args.text i = args'.text i
  | textOr i => ∀ default, args.textOr i default = args'.textOr i default
  | logical i => args.logical i = args'.logical i
  | reference i => args.reference i = args'.reference i
  | value i => args.value i = args'.value i
  | numbersFrom start => args.numbersFrom start = args'.numbersFrom start
  | logicalsFrom start => args.logicalsFrom start = args'.logicalsFrom start
  | argument i => args.at? i = args'.at? i
  | argumentsFrom start => args.drop start = args'.drop start

/-- The reader falls back on an answer for arguments that it does not expect. -/
def Mismatches (args : Arguments) : Look → Prop
  | number i =>
    match args.at? i with
    | some (.number _) | some (.error _) => False
    | _ => True
  | numberOr i =>
    match args.at? i with
    | none | some .missing | some (.number _) | some (.error _) => False
    | _ => True
  | text i =>
    match args.at? i with
    | some (.text _) | some (.error _) => False
    | _ => True
  | textOr i =>
    match args.at? i with
    | none | some .missing | some (.text _) | some (.error _) => False
    | _ => True
  | logical i =>
    match args.at? i with
    | some (.logical _) | some (.error _) => False
    | _ => True
  | reference i =>
    match args.at? i with
    | some (.reference _) | some (.error _) => False
    | _ => True
  | value i =>
    match args.at? i with
    | some (.numbers _) | some (.logicals _) | some (.reference _) => True
    | _ => False
  | numbersFrom start => ∃ x ∈ args.drop start,
    match x with
    | .numbers _ | .number _ | .missing | .error _ => False
    | _ => True
  | logicalsFrom start => ∃ x ∈ args.drop start,
    match x with
    | .logicals _ | .logical _ | .missing | .error _ => False
    | _ => True
  | argument _ | argumentsFrom _ => False

end Look

end Arguments

open Arguments (Look)

/-- The looks that a parameter at place `i` promises an answer of its kind. -/
def Parameter.looks (p : Parameter) (i : Nat) : List Look :=
  match p.kind, p.required, p.repeating with
  | .numbers, _, true => [.numbersFrom i]
  | .logicals, _, true => [.logicalsFrom i]
  | _, _, true => [.argumentsFrom i]
  | .number, true, false => [.number i]
  | .number, false, false => [.numberOr i]
  | .text, true, false => [.text i]
  | .text, false, false => [.textOr i]
  | .logical, true, false => [.logical i]
  | .reference, true, false => [.reference i]
  | .any, _, false | .block, _, false => [.argument i, .value i]
  | _, _, false => [.argument i]

namespace Function

def looks (f : Function) : List Look :=
  f.parameters.zipIdx.flatMap fun pi => pi.1.looks pi.2

/-- The body asks for nothing but what the parameters promise. -/
def KeepsToLooks (f : Function) : Prop :=
  ∀ (a : Ambient) (args args' : Arguments), (∀ l ∈ f.looks, l.Agrees args args') →
    f.result a args = f.result a args'

/-- What a call of the function gives its body: each operand as its parameter reads it, of the kind
that the parameter asks for. -/
structure Receives (f : Function) (s : Source) (os : List Operand) (args : Arguments) : Prop where
  fits : Parameter.Fits f.parameters os.length
  length : args.length = os.length
  argument : ∀ i (hi : i < os.length), ∃ p, Parameter.governing? f.parameters i = some p ∧
    args[i]? = some (Argument.ofOperand s p os[i]) ∧
      p.Admits f.acceptsErrors (Argument.ofOperand s p os[i])
  looks : ∀ l ∈ f.looks, ¬ l.Mismatches args

/-- Why a call of the function ends before its body is asked. -/
inductive Refuses (f : Function) (s : Source) (os : List Operand) : ErrorCode → Prop
  | count (h : ¬ Parameter.Fits f.parameters os.length) : Refuses f s os .badValue
  /-- The leftmost operand that cannot be read decides. -/
  | argument {i : Nat} {e : ErrorCode} (hfits : Parameter.Fits f.parameters os.length)
      (hstrict : f.acceptsErrors = false) (hi : i < os.length)
      (herror : ∃ p, Parameter.governing? f.parameters i = some p ∧
        (Argument.ofOperand s p os[i]).error? = some e)
      (hleft : ∀ j (hj : j < i), ∃ p, Parameter.governing? f.parameters j = some p ∧
        (Argument.ofOperand s p os[j]).error? = none) : Refuses f s os e

variable {f : Function} {s : Source} {os : List Operand}

/-- A call gives the arguments to the body, whatever that does with them. -/
def Asks (f : Function) (s : Source) (os : List Operand) (args : Arguments) : Prop :=
  ∀ (body : Body) (a : Ambient),
    call { f with body } s a os = result { f with body } a args

/-- A call ends with the error, whatever the body does. -/
def Fails (f : Function) (s : Source) (os : List Operand) (e : ErrorCode) : Prop :=
  ∀ (body : Body) (a : Ambient), call { f with body } s a os = .error e

/-! ## Calls -/

theorem getElem?_zipWith_ofOperand {ps : List Parameter}
    (hps : Parameter.forArguments? f.parameters os.length = some ps) {i : Nat}
    (hi : i < os.length) : ∃ p, Parameter.governing? f.parameters i = some p ∧
      (List.zipWith (Argument.ofOperand s) ps os)[i]? = some (Argument.ofOperand s p os[i]) := by
  have hlength := Parameter.length_forArguments? hps
  have hip : i < ps.length := hlength ▸ hi
  refine ⟨ps[i], ?_, ?_⟩
  · rw [← Parameter.getElem?_of_forArguments? hps hi, List.getElem?_eq_getElem hip]
  · rw [List.getElem?_eq_getElem (by simp [hlength, hi]), List.getElem_zipWith]

end Function

namespace Arguments.Look

variable {args : Arguments} {p : Parameter} {i : Nat} (acceptsErrors : Bool)

/-- Where a parameter's arguments are as it asks, what it promises is there. -/
theorem not_mismatches (hat : ∀ x, args.at? i = some x → p.Admits acceptsErrors x)
    (hthere : p.required = true → ∃ x, args.at? i = some x)
    (hfrom : p.repeating = true → ∀ x ∈ args.drop i, p.Admits acceptsErrors x) :
    ∀ l ∈ p.looks i, ¬ l.Mismatches args := by
  obtain ⟨name, kind, required, repeating⟩ := p
  have hone {l : Look} (hnone : required = false → args.at? i = none → ¬ l.Mismatches args)
      (hsome : ∀ x, Parameter.Admits ⟨name, kind, required, repeating⟩ acceptsErrors x →
        args.at? i = some x → ¬ l.Mismatches args) : ∀ l' ∈ [l], ¬ l'.Mismatches args := by
    refine fun l' hl' => List.mem_singleton.mp hl' ▸ ?_
    cases hx : args.at? i with
    | some x => exact hsome x (hat x hx) hx
    | none =>
      refine hnone (Bool.eq_false_of_not_eq_true fun hr => ?_) hx
      obtain ⟨x, hx'⟩ := hthere hr
      cases hx.symm.trans hx'
  unfold Parameter.looks
  dsimp only at hthere hfrom ⊢
  split
  -- A repeating parameter reads all arguments from its place on.
  case h_1 | h_2 =>
    refine fun l hl => List.mem_singleton.mp hl ▸ ?_
    rintro ⟨x, hx, hmismatch⟩
    have := hfrom rfl x hx
    cases x <;> first | exact hmismatch | exact this
  -- A required argument is there, and neither it nor its kind leaves room for another.
  case h_4 | h_6 | h_8 | h_9 =>
    refine hone (fun _ _ => by contradiction) fun x h hx => ?_
    unfold Mismatches
    dsimp only
    rw [hx]
    cases x <;> first | exact id | exact fun _ => h | cases h
  -- An optional one may be absent, or left out.
  case h_5 | h_7 =>
    refine hone (fun _ hx => ?_) fun x h hx => ?_
    all_goals
      unfold Mismatches
      dsimp only
      rw [hx]
    · exact id
    · cases x <;> first | exact id | exact fun _ => h
  -- A value and a block are never lists or references.
  case h_10 | h_11 =>
    refine List.forall_mem_cons.mpr ⟨id, hone (fun _ hx => ?_) fun x h hx => ?_⟩
    all_goals
      unfold Mismatches
      dsimp only
      rw [hx]
    · exact id
    · cases x <;> first | exact id | exact fun _ => h
  case h_3 | h_12 => exact fun l hl => List.mem_singleton.mp hl ▸ id

end Arguments.Look

namespace Parameter

/-- An argument that is no error is so whether or not the function takes errors. -/
theorem Admits.of_no_error {p : Parameter} {x : Argument} {acceptsErrors : Bool}
    (h : p.Admits true x) (hx : acceptsErrors = false → x.error? = none) :
    p.Admits acceptsErrors x := by
  cases x with
  | error e =>
    cases acceptsErrors with
    | true => rfl
    | false => cases hx rfl
  | _ => exact h

end Parameter

namespace Function

variable {f : Function} {s : Source} {os : List Operand}

/-- What the parameters promise a body is in arguments that are as the parameters ask. -/
theorem not_mismatches_of_admits {args : Arguments} (acceptsErrors : Bool)
    (hps : Parameter.listError? false f.parameters = none)
    (hfits : Parameter.Fits f.parameters args.length)
    (hadmits : ∀ i x, args[i]? = some x →
      ∃ p, Parameter.governing? f.parameters i = some p ∧ p.Admits acceptsErrors x) :
    ∀ l ∈ f.looks, ¬ l.Mismatches args := by
  intro l hl
  obtain ⟨⟨p, i⟩, hmem, hl⟩ := List.mem_flatMap.mp hl
  have hp : f.parameters[i]? = some p := List.mem_zipIdx_iff_getElem?.mp hmem
  refine Arguments.Look.not_mismatches acceptsErrors (fun x hx => ?_) (fun hrequired => ?_)
    (fun hrepeating x hx => ?_) l hl
  · obtain ⟨q, hq, h⟩ := hadmits i x hx
    cases hq.symm.trans (Parameter.governing?_of_getElem? hp)
    exact h
  · have hi := Nat.lt_of_lt_of_le (Parameter.lt_countP_of_listError? hps hp hrequired) hfits.enough
    exact ⟨args[i], List.getElem?_eq_getElem hi⟩
  · obtain ⟨j, hj⟩ := List.mem_iff_getElem?.mp hx
    rw [List.getElem?_drop] at hj
    obtain ⟨q, hq, h⟩ := hadmits (i + j) x hj
    cases hq.symm.trans (Parameter.governing?_of_repeating hps hp hrepeating (Nat.le_add_right i j))
    exact h

theorem receives_of_forArguments? (hps : Parameter.listError? false f.parameters = none)
    (hs : s.DatesExist) (hos : ∀ o ∈ os, o.DatesExist) {ps : List Parameter}
    (hfor : Parameter.forArguments? f.parameters os.length = some ps)
    (herrors : f.acceptsErrors = false →
      ∀ x ∈ List.zipWith (Argument.ofOperand s) ps os, x.error? = none) :
    f.Receives s os (List.zipWith (Argument.ofOperand s) ps os) := by
  have hfits := Parameter.fits_of_forArguments? hfor
  have hlength : (List.zipWith (Argument.ofOperand s) ps os).length = os.length := by
    rw [List.length_zipWith, Parameter.length_forArguments? hfor, Nat.min_self]
  have hargument (i : Nat) (hi : i < os.length) :
      ∃ p, Parameter.governing? f.parameters i = some p ∧
        (List.zipWith (Argument.ofOperand s) ps os)[i]? = some (Argument.ofOperand s p os[i]) ∧
          p.Admits f.acceptsErrors (Argument.ofOperand s p os[i]) := by
    obtain ⟨p, hp, hx⟩ := getElem?_zipWith_ofOperand hfor hi
    have hadmits := hs.admits_ofOperand p (hos _ (List.getElem_mem hi))
    exact ⟨p, hp, hx, hadmits.of_no_error fun h => herrors h _ (List.mem_of_getElem? hx)⟩
  refine ⟨hfits, hlength, hargument,
    not_mismatches_of_admits f.acceptsErrors hps (hlength ▸ hfits) fun i x hx => ?_⟩
  have hi : i < os.length := hlength ▸ (List.getElem?_eq_some_iff.mp hx).1
  obtain ⟨p, hp, hx', hadmits⟩ := hargument i hi
  cases hx.symm.trans hx'
  exact ⟨p, hp, hadmits⟩

theorem refuses_of_firstError? {ps : List Parameter}
    (hfor : Parameter.forArguments? f.parameters os.length = some ps)
    (hstrict : f.acceptsErrors = false) {e : ErrorCode}
    (he : Arguments.firstError? (List.zipWith (Argument.ofOperand s) ps os) = some e) :
    f.Refuses s os e := by
  have hfits := Parameter.fits_of_forArguments? hfor
  obtain ⟨before, x, after, hargs, hx, hbefore⟩ := List.findSome?_eq_some_iff.mp he
  have hlength : before.length < os.length := by
    have := congrArg List.length hargs
    simp only [List.length_zipWith, Parameter.length_forArguments? hfor, Nat.min_self,
      List.length_append, List.length_cons] at this
    omega
  refine .argument hfits hstrict hlength ?_ fun j hj => ?_
  · obtain ⟨p, hp, hy⟩ := getElem?_zipWith_ofOperand (s := s) hfor hlength
    rw [hargs, List.getElem?_append_right (Nat.le_refl _), Nat.sub_self] at hy
    cases hy
    exact ⟨p, hp, hx⟩
  · obtain ⟨p, hp, hy⟩ := getElem?_zipWith_ofOperand (s := s) hfor (hj.trans hlength)
    rw [hargs, List.getElem?_append_left hj] at hy
    exact ⟨p, hp, hbefore _ (List.mem_of_getElem? hy)⟩

/-- A call either gives its body what it asks for, or has a reason not to. -/
theorem asks_or_fails (hps : Parameter.listError? false f.parameters = none) (hs : s.DatesExist)
    (hos : ∀ o ∈ os, o.DatesExist) :
    (∃ args, f.Asks s os args ∧ f.Receives s os args) ∨ ∃ e, f.Fails s os e ∧ f.Refuses s os e := by
  cases hfor : Parameter.forArguments? f.parameters os.length with
  | none =>
    refine .inr ⟨.badValue, fun body a => ?_, .count (Parameter.forArguments?_eq_none_iff.mp hfor)⟩
    simp only [call, hfor]
  | some ps =>
    cases herror : if f.acceptsErrors then none
      else Arguments.firstError? (List.zipWith (Argument.ofOperand s) ps os) with
    | some e =>
      refine .inr ⟨e, fun body a => ?_, ?_⟩
      · simp only [call, hfor, herror]
      · split_ifs at herror with hlenient
        exact refuses_of_firstError? hfor (Bool.eq_false_of_not_eq_true hlenient) herror
    | none =>
      refine .inl ⟨_, fun body a => ?_, receives_of_forArguments? hps hs hos hfor fun hstrict => ?_⟩
      · simp only [call, hfor, herror]
      · rw [hstrict] at herror
        exact List.findSome?_eq_none_iff.mp herror

end Function

end Spreadsheet
