import Spreadsheet.Proofs.Evaluation.Settled

/-! Names that stand for other names. By itself such a name has the value of the name it leads to,
and so it has for every parameter that asks for a value. A parameter that takes a reference unread
gets the first name on the way, and one that takes a list follows one name only; a single value that
it finds there is a list of one. -/

namespace Spreadsheet

/-- From name `x`, `steps` names on, to name `y`: each stands for the next. -/
inductive Source.Leads (s : Source) : Nat → String → String → Prop
  | here {x : String} : Leads s 0 x x
  | next {steps : Nat} {x y z : String} : s.definition? x = some (.reference (.ofName y)) →
      Leads s steps y z → Leads s (steps + 1) x z

namespace Definition

/-- Not another name. -/
def IsFinal (d : Definition) : Prop := ∀ n, d ≠ .reference (.ofName n)

/-- What gives a list its items in the same way whether the list is under a name or is a name's
own: cells, a block of values or an error, but no single value. -/
def isSpread : Definition → Bool
  | reference _ | value (.array _) | value (.error _) => true
  | value _ => false

/-- The operand of a name that stands for this. -/
def operand : Definition → Operand
  | value v => .value v
  | reference r => .reference r

/-- What a list takes it for that looks through a name at it: a single value is a list of one. -/
def listed : Definition → Operand
  | reference r => .reference r
  | value (.array rows) => .value (.array rows)
  | value (.error e) => .value (.error e)
  | value v => .value (.array [[v]])

theorem listed_of_isSpread {d : Definition} (h : d.isSpread = true) : d.listed = d.operand := by
  match d, h with
  | reference _, _ | value (.array _), _ | value (.error _), _ => rfl

/-- Looked at through a name, a value is a list of its items. -/
theorem listed_value {v : Value} (h : ∀ e, v ≠ .error e) :
    ∃ rows, listed (.value v) = .value (.array rows) ∧ rows.flatten = v.items := by
  cases v with
  | array rows => exact ⟨rows, rfl, rfl⟩
  | error e => exact absurd rfl (h e)
  | empty | text _ | logical _ | number _ | date _ => exact ⟨[[_]], rfl, rfl⟩

end Definition

namespace Source

variable {s : Source} {d : Definition} {x y : String} {steps : Nat}

/-- Names in a row use up one of the depth each. -/
theorem Leads.read (h : s.Leads steps x y) (depth : Nat) :
    s.read (depth + steps) (.ofName x) = s.read depth (.ofName y) := by
  induction h with
  | here => rfl
  | @next steps x y z hx _ ih =>
    have hstep : s.read (depth + (steps + 1)) (.ofName x) = s.read (depth + steps) (.ofName y) := by
      rw [← Nat.add_assoc, read.eq_def]
      simp [Reference.ofName, Reference.isValid, Reference.targets, Target.isValid, hx]
    rw [hstep, ih]

/-- Only names use up depth. -/
theorem read_of_ne_name {r : Reference} (h : ∀ n, r ≠ .ofName n) (depth depth' : Nat) :
    s.read depth r = s.read depth' r := by
  rw [read.eq_def, read.eq_def s depth']
  cases r with
  | union parts => rfl
  | single target =>
    cases target with
    | name n => exact absurd rfl (h n)
    | range a b => rfl
    | place p => cases p <;> rfl

theorem read_name (hd : s.definition? y = some d) (final : d.IsFinal) (depth : Nat) :
    s.read (depth + 1) (.ofName y) = d.operand.toValue s := by
  rw [read.eq_def]
  simp only [Reference.ofName, Reference.isValid, Reference.targets, Target.isValid, hd,
    List.all_cons, List.all_nil, Bool.and_true, if_true]
  cases d with
  | value v => rfl
  | reference r => exact read_of_ne_name (fun n hn => final n (congrArg _ hn)) ..

/-- The operand of a name has the value of the last name. -/
theorem toValue_operand (h : s.Leads steps x y) (hsteps : steps ≤ nameDepth)
    (hd : s.definition? y = some d) (final : d.IsFinal) (a : Ambient) :
    ((Expr.name x).operand s a).toValue s = d.operand.toValue s := by
  cases h with
  | here =>
    rw [Expr.operand, hd]
    cases d <;> rfl
  | @next steps _ z _ hx hz =>
    have hdepth : nameDepth = (nameDepth - (steps + 1) + 1) + steps := by omega
    rw [Expr.operand, hx]
    change s.read nameDepth (.ofName z) = _
    rw [hdepth, hz.read, read_name hd final]

end Source

theorem Expr.operand_name_ne_missing (s : Source) (x : String) (a : Ambient) :
    (Expr.name x).operand s a ≠ .missing := by
  rw [Expr.operand]
  cases s.definition? x with
  | none => nofun
  | some d => cases d <;> nofun

/-! ## Arguments -/

/-- The parameter asks for neither a reference nor a list. -/
def Parameter.Kind.asksForValue : Kind → Bool
  | .number | .text | .logical | .any | .block => true
  | .numbers | .logicals | .reference => false

namespace Argument

variable {s : Source} {p : Parameter} {o o' : Operand}

theorem read_congr (hkind : p.kind.asksForValue = true) (h : o.toValue s = o'.toValue s) :
    read s p.kind o = read s p.kind o' := by
  cases hp : p.kind <;> rw [hp] at hkind <;> first | contradiction | simp [read, h]

theorem ofOperand_eq_read (hkind : p.kind.asksForValue = true) (ho : o ≠ .missing) :
    ofOperand s p o = read s p.kind o := by
  cases o with
  | missing => exact absurd rfl ho
  | value v => rfl
  | reference r =>
    cases hr : r.isValid with
    | true => simp [ofOperand, hr]
    | false =>
      have herror : (Operand.reference r).toValue s =
          (Operand.value (.error .badReference)).toValue s := s.valueAt_of_not_isValid hr
      rw [read_congr hkind herror, read_error]
      simp [ofOperand, hr]

/-- Where a value is asked for, operands of one value make one argument. -/
theorem ofOperand_congr (hkind : p.kind.asksForValue = true) (ho : o ≠ .missing)
    (ho' : o' ≠ .missing) (h : o.toValue s = o'.toValue s) :
    ofOperand s p o = ofOperand s p o' := by
  rw [ofOperand_eq_read hkind ho, ofOperand_eq_read hkind ho', read_congr hkind h]

/-- Empty values give a list nothing. -/
theorem numbersOf_filter : ∀ vs : List Value,
    numbersOf (vs.filter fun v => !v.isEmpty) = numbersOf vs
  | [] => rfl
  | .empty :: vs | .text _ :: vs | .logical _ :: vs | .array _ :: vs => numbersOf_filter vs
  | .number x :: vs => by
    change numbersOf (.number x :: vs.filter fun v => !v.isEmpty) = _
    rw [numbersOf, numbersOf, numbersOf_filter vs]
  | .date m :: vs => congrArg (fun ns => do return m.serial :: (← ns)) (numbersOf_filter vs)
  | .error _ :: _ => rfl

theorem logicalsOf_filter : ∀ vs : List Value,
    logicalsOf (vs.filter fun v => !v.isEmpty) = logicalsOf vs
  | [] => rfl
  | .empty :: vs | .text _ :: vs | .date _ :: vs | .array _ :: vs => logicalsOf_filter vs
  | .logical b :: vs => congrArg (fun bs => do return b :: (← bs)) (logicalsOf_filter vs)
  | .number x :: vs => congrArg (fun bs => do return (x != 0) :: (← bs)) (logicalsOf_filter vs)
  | .error _ :: _ => rfl

end Argument

namespace Source

variable {s : Source} {d : Definition} {x y z : String} {steps : Nat} {p : Parameter}

theorem valuesAt_of_ne_name {r : Reference} (h : ∀ n, r ≠ .ofName n) :
    s.valuesAt r =
      if r.isValid then .ok (r.regions.flatMap s.values) else .error .badReference := by
  unfold valuesAt
  split
  · exact absurd rfl (h _)
  · rfl

/-- A list looks through one name. -/
theorem valuesAt_name_of_reference {r : Reference} (hy : s.definition? y = some (.reference r))
    (h : ∀ n, r ≠ .ofName n) : s.valuesAt (.ofName y) = s.valuesAt r := by
  rw [valuesAt_of_ne_name h]
  unfold valuesAt Reference.ofName
  simp only [hy]
  cases r with
  | union parts => rfl
  | single t =>
    cases t with
    | name n => exact absurd rfl (h n)
    | place p => rfl
    | range a b => rfl

theorem valuesAt_name_of_value {v : Value} (hy : s.definition? y = some (.value v)) :
    s.valuesAt (.ofName y) = .ok (v.items.filter fun v => !v.isEmpty) := by
  unfold valuesAt Reference.ofName
  simp only [hy]

/-- A list under a name has the items of what the name stands for. -/
theorem ofOperand_name_of_list (hkind : p.kind = .numbers ∨ p.kind = .logicals)
    (hy : s.definition? y = some d) (final : d.IsFinal) :
    Argument.ofOperand s p (.reference (.ofName y)) = Argument.ofOperand s p d.listed := by
  have hlist : Argument.ofOperand s p (.reference (.ofName y)) =
      Argument.read s p.kind (.reference (.ofName y)) := rfl
  rw [hlist]
  cases d with
  | reference r =>
    have hvalues := valuesAt_name_of_reference hy fun n hn => final n (congrArg _ hn)
    have hr := valuesAt_of_ne_name (s := s) fun n hn => final n (congrArg _ hn)
    cases hvalid : r.isValid with
    | false =>
      rw [hvalid, if_neg (by simp)] at hr
      obtain hp | hp := hkind <;>
        simp [Argument.read, Argument.ofOperand, Definition.listed, hp, hvalues, hr, hvalid]
    | true =>
      obtain hp | hp := hkind <;>
        simp [Argument.read, Argument.ofOperand, Definition.listed, hp, hvalues, hvalid]
  | value v =>
    have hvalues := valuesAt_name_of_value hy
    by_cases herror : ∃ e, v = .error e
    · obtain ⟨e, rfl⟩ := herror
      have hread : Argument.ofOperand s p (Definition.listed (.value (.error e))) = .error e :=
        Argument.read_error s p.kind e
      rw [hread]
      obtain hp | hp := hkind <;> rw [hp, Argument.read, hvalues] <;> rfl
    · obtain ⟨rows, hrows, hitems⟩ := Definition.listed_value (not_exists.mp herror)
      rw [hrows]
      obtain hp | hp := hkind
      · simp only [Argument.read, Argument.ofOperand, hp, hvalues, hitems, Argument.ofNumbers,
          Argument.numbersOf_filter]
      · simp only [Argument.read, Argument.ofOperand, hp, hvalues, hitems, Argument.ofLogicals,
          Argument.logicalsOf_filter]

theorem operand_name (hy : s.definition? y = some d) (a : Ambient) :
    (Expr.name y).operand s a = d.operand := by
  rw [Expr.operand, hy]
  cases d <;> rfl

/-- A name has the value of the name it leads to. Where a parameter asks for a value it makes the
same argument of both. A parameter for references gets the next name, unread; one for lists makes
the same argument of a name and the next, unless that is a single value, which it makes a list
of. -/
theorem name_transparent (h : s.Leads steps x y) (hsteps : steps ≤ nameDepth)
    (hd : s.definition? y = some d) (final : d.IsFinal) :
    (Expr.name x).evaluate s = (Expr.name y).evaluate s ∧
      ∀ (p : Parameter) (a : Ambient),
        let argument (n : String) := Argument.ofOperand s p ((Expr.name n).operand s a)
        (p.kind.asksForValue = true → argument x = argument y) ∧
          (p.kind = .reference → steps ≠ 0 →
            ∃ z, s.Leads 1 x z ∧ s.Leads (steps - 1) z y ∧ argument x = .reference (.ofName z)) ∧
          (p.kind = .numbers ∨ p.kind = .logicals → steps ≤ 1 → d.isSpread = true →
            argument x = argument y) ∧
          (p.kind = .numbers ∨ p.kind = .logicals → steps = 1 →
            argument x = Argument.ofOperand s p d.listed) := by
  have hvalue (a : Ambient) : ((Expr.name x).operand s a).toValue s =
      ((Expr.name y).operand s a).toValue s := by
    rw [toValue_operand h hsteps hd final, operand_name hd]
  have hlist (p : Parameter) (a : Ambient) (hkind : p.kind = .numbers ∨ p.kind = .logicals)
      (hone : steps = 1) :
      Argument.ofOperand s p ((Expr.name x).operand s a) = Argument.ofOperand s p d.listed := by
    subst hone
    obtain _ | ⟨hx, ⟨⟩⟩ := h
    rw [operand_name hx]
    exact ofOperand_name_of_list hkind hd final
  refine ⟨hvalue s.ambient, fun p a => ⟨fun hkind => ?_, fun hkind hzero => ?_, ?_, hlist p a⟩⟩
  · exact Argument.ofOperand_congr hkind (Expr.operand_name_ne_missing s x a)
      (Expr.operand_name_ne_missing s y a) (hvalue a)
  · cases h with
    | here => exact absurd rfl hzero
    | next hx hz =>
      refine ⟨_, .next hx .here, hz, ?_⟩
      dsimp only
      rw [operand_name hx]
      simp only [Argument.ofOperand, Argument.read, Definition.operand, hkind]
      rfl
  · intro hkind hone spread
    obtain hone | hone := Nat.le_one_iff_eq_zero_or_eq_one.mp hone
    · subst hone
      cases h
      rfl
    · dsimp only
      rw [hlist p a hkind hone, Definition.listed_of_isSpread spread, operand_name hd]

theorem name_transparent_past_another :
    let definition? : String → Option Definition
      | "total" => some (.reference (.ofName "sales"))
      | "sales" => some (.reference (.ofName "column"))
      | "column" => some (.reference (.ofCorners ⟨0, 0⟩ ⟨1, 0⟩))
      | _ => none
    let s : Source :=
      { value := fun _ => .number 1, values := fun _ => [.number 1, .number 2],
        block := fun _ => [[.number 1], [.number 2]], definition?, function? := fun _ => none,
        ambient := ⟨.midnight 0, 0⟩ }
    let argument (p : Parameter) (n : String) :=
      Argument.ofOperand s p ((Expr.name n).operand s s.ambient)
    (s.Leads 2 "total" "column" ∧
        Definition.IsFinal (.reference (.ofCorners ⟨0, 0⟩ ⟨1, 0⟩))) ∧
      (Expr.name "total").evaluate s = (Expr.name "column").evaluate s ∧
      argument ⟨"block", .block, true, false⟩ "total" =
        argument ⟨"block", .block, true, false⟩ "column" ∧
      argument ⟨"numbers", .numbers, true, true⟩ "sales" =
        argument ⟨"numbers", .numbers, true, true⟩ "column" := by
  intro definition? s argument
  have hone : s.Leads 1 "sales" "column" := .next rfl .here
  have htwo : s.Leads 2 "total" "column" := .next rfl hone
  have hcolumn : s.definition? "column" =
      some (.reference (.ofCorners ⟨0, 0⟩ ⟨1, 0⟩)) := rfl
  have hfinal : Definition.IsFinal (.reference (.ofCorners ⟨0, 0⟩ ⟨1, 0⟩)) := nofun
  obtain ⟨hvalue, hargument⟩ := name_transparent htwo (by decide) hcolumn hfinal
  obtain ⟨-, hlist⟩ := name_transparent hone (by decide) hcolumn hfinal
  exact ⟨⟨htwo, hfinal⟩, hvalue, (hargument _ s.ambient).1 rfl,
    (hlist _ s.ambient).2.2.1 (.inl rfl) (by decide) rfl⟩

/-- A parameter that takes its reference unread is shown a name where the name behind it would give
a cell. One for lists is given an error where there is a second name behind the first, and a list
where there is a single value behind the name. -/
theorem name_told_from_next :
    let definition? : String → Option Definition
      | "total" => some (.reference (.ofName "sales"))
      | "sales" => some (.reference (.ofName "data"))
      | "data" => some (.reference (.ofCorners ⟨0, 0⟩ ⟨1, 0⟩))
      | "switch" => some (.reference (.ofName "default"))
      | "default" => some (.value (.logical true))
      | "title" => some (.reference (.ofName "heading"))
      | "heading" => some (.value (.text "Sales"))
      | _ => none
    let s : Source :=
      { value := fun _ => .empty, values := fun _ => [], block := fun _ => [[.empty]], definition?,
        function? := fun _ => none, ambient := ⟨.midnight 0, 0⟩ }
    let argument (kind : Parameter.Kind) (n : String) :=
      Argument.ofOperand s ⟨"p", kind, true, false⟩ ((Expr.name n).operand s s.ambient)
    (s.Leads 2 "total" "data" ∧ s.Leads 1 "switch" "default" ∧ s.Leads 1 "title" "heading") ∧
      argument .reference "total" ≠ argument .reference "data" ∧
      argument .numbers "total" ≠ argument .numbers "data" ∧
      argument .logicals "total" ≠ argument .logicals "data" ∧
      argument .numbers "title" ≠ argument .numbers "heading" ∧
      argument .logicals "switch" ≠ argument .logicals "default" := by
  intro definition? s argument
  have hreference : argument .reference "total" = .reference (.ofName "sales") ∧
      argument .reference "data" = .reference (.ofCorners ⟨0, 0⟩ ⟨1, 0⟩) := ⟨rfl, rfl⟩
  have hnumbers : argument .numbers "total" = .error .badReference ∧
      argument .numbers "data" = .numbers [] := ⟨rfl, rfl⟩
  have hlogicals : argument .logicals "total" = .error .badReference ∧
      argument .logicals "data" = .logicals [] := ⟨rfl, rfl⟩
  have htitle : argument .numbers "title" = .numbers [] ∧
      argument .numbers "heading" = .error .badValue := ⟨rfl, rfl⟩
  have hswitch : argument .logicals "switch" = .logicals [true] ∧
      argument .logicals "default" = .logical true := ⟨rfl, rfl⟩
  rw [hreference.1, hreference.2, hnumbers.1, hnumbers.2, hlogicals.1, hlogicals.2, htitle.1,
    htitle.2, hswitch.1, hswitch.2]
  exact ⟨⟨.next rfl (.next rfl .here), .next rfl .here, .next rfl .here⟩, nofun, nofun, nofun, nofun,
    nofun⟩

end Source

end Spreadsheet
