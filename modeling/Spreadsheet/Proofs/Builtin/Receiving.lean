import Spreadsheet.Proofs.Builtin.Table
import Spreadsheet.Proofs.Evaluation.Receiving

/-! The built-in functions look at nothing but what their parameters promise them. So what they
make of arguments of other kinds does not matter: no call from a formula comes to it. -/

namespace Spreadsheet

namespace Builtin

variable {f : Arguments → Value}

/-! ## Functions by their parameters -/

theorem keepsToLooks_numberList
    (h : ∀ args args' : Arguments, args.numbers = args'.numbers → f args = f args') :
    (strict numberList f).KeepsToLooks :=
  fun _ args args' hl => h args args' (hl (.numbersFrom 0) (.head _))

theorem keepsToLooks_logicalList
    (h : ∀ args args' : Arguments, args.logicals = args'.logicals → f args = f args') :
    (strict logicalList f).KeepsToLooks :=
  fun _ args args' hl => h args args' (hl (.logicalsFrom 0) (.head _))

/-- A list of any values is seen whole. -/
theorem keepsToLooks_valueList {acceptsErrors : Bool} :
    Function.KeepsToLooks ⟨valueList, acceptsErrors, .steady f⟩ :=
  fun _ _ _ hl => congrArg f (hl (.argumentsFrom 0) (.head _))

theorem keepsToLooks_oneValue (h : ∀ args args' : Arguments, args.at? 0 = args'.at? 0 →
    f args = f args') : (lenient oneValue f).KeepsToLooks :=
  fun _ args args' hl => h args args' (hl (.argument 0) (.head _))

theorem keepsToLooks_oneNumber (h : ∀ args args' : Arguments, args.number 0 = args'.number 0 →
    f args = f args') : (strict oneNumber f).KeepsToLooks :=
  fun _ args args' hl => h args args' (hl (.number 0) (.head _))

theorem keepsToLooks_oneText (h : ∀ args args' : Arguments, args.text 0 = args'.text 0 →
    f args = f args') : (strict oneText f).KeepsToLooks :=
  fun _ args args' hl => h args args' (hl (.text 0) (.head _))

theorem keepsToLooks_oneReference
    (h : ∀ args args' : Arguments, args.reference 0 = args'.reference 0 → f args = f args') :
    (strict oneReference f).KeepsToLooks :=
  fun _ args args' hl => h args args' (hl (.reference 0) (.head _))

theorem keepsToLooks_numberAndPlaces
    (h : ∀ args args' : Arguments, args.number 0 = args'.number 0 →
      (∀ default, args.numberOr 1 default = args'.numberOr 1 default) → f args = f args') :
    (strict numberAndPlaces f).KeepsToLooks :=
  fun _ args args' hl =>
    h args args' (hl (.number 0) (.head _)) (hl (.numberOr 1) (.tail _ (.head _)))

/-! ## Functions with parameters of their own -/

variable {args args' : Arguments}

theorem choose_congr (hcondition : args.logical 0 = args'.logical 0)
    (hthen : args.at? 1 = args'.at? 1) (hotherwise : args.at? 2 = args'.at? 2) :
    choose args = choose args' := by
  unfold choose Arguments.value
  rw [hcondition, hthen, hotherwise]

theorem not_congr (h : args.logical 0 = args'.logical 0) : not args = not args' := by
  rw [not, not, h]

theorem ifError_congr (hvalue : args.at? 0 = args'.at? 0) (hfallback : args.at? 1 = args'.at? 1) :
    ifError args = ifError args' := by
  unfold ifError Arguments.value
  rw [hvalue, hfallback]

theorem power_congr (hbase : args.number 0 = args'.number 0)
    (hexponent : args.number 1 = args'.number 1) : power args = power args' := by
  rw [power, power, hbase, hexponent]

theorem randInt_congr (a : Ambient) (hlow : args.number 0 = args'.number 0)
    (hhigh : args.number 1 = args'.number 1) : randInt a args = randInt a args' := by
  rw [randInt, randInt, hlow, hhigh]

theorem date_congr (hyear : args.number 0 = args'.number 0)
    (hmonth : args.number 1 = args'.number 1) (hday : args.number 2 = args'.number 2) :
    date args = date args' := by
  rw [date, date, hyear, hmonth, hday]

theorem money_congr (hnumber : args.number 0 = args'.number 0)
    (hsymbol : ∀ default, args.textOr 1 default = args'.textOr 1 default)
    (hplaces : ∀ default, args.numberOr 2 default = args'.numberOr 2 default) :
    money args = money args' := by
  unfold money placesAt
  rw [hnumber, hsymbol, hplaces]

/-! ## The table -/

/-- One line for each line of the table. -/
theorem keepsToLooks_all : ∀ b ∈ all, b.function.KeepsToLooks := by
  simp only [all, List.forall_mem_cons, List.not_mem_nil, false_imp_iff, implies_true, and_true]
  exact ⟨
    keepsToLooks_numberList fun _ _ h => by rw [sum, sum, h],
    keepsToLooks_numberList fun _ _ h => by rw [average, average, h],
    keepsToLooks_valueList, -- COUNT
    keepsToLooks_numberList fun _ _ h => by rw [min, min, h],
    keepsToLooks_numberList fun _ _ h => by rw [max, max, h],
    fun _ _ _ hl => choose_congr (hl (.logical 0) (.head _)) (hl (.argument 1) (.tail _ (.head _)))
      (hl (.argument 2) (.tail _ (.tail _ (.tail _ (.head _))))),
    keepsToLooks_logicalList fun _ _ h => by rw [and, and, ofAll, ofAll, h],
    keepsToLooks_logicalList fun _ _ h => by rw [or, or, ofAll, ofAll, h],
    fun _ _ _ hl => not_congr (hl (.logical 0) (.head _)),
    fun _ _ _ hl => ifError_congr (hl (.argument 0) (.head _))
      (hl (.argument 1) (.tail _ (.tail _ (.head _)))),
    keepsToLooks_oneValue fun _ _ h => by rw [isError, isError, h],
    keepsToLooks_oneValue fun _ _ h => by rw [isNumber, isNumber, h],
    keepsToLooks_oneNumber fun _ _ h => by rw [abs, abs, h],
    keepsToLooks_numberAndPlaces fun _ _ hx hplaces => by rw [round, round, hx, hplaces],
    keepsToLooks_oneNumber fun _ _ h => by rw [sqrt, sqrt, h],
    fun _ _ _ hl => power_congr (hl (.number 0) (.head _)) (hl (.number 1) (.tail _ (.head _))),
    fun _ _ _ _ => rfl, -- RAND
    fun a _ _ hl => randInt_congr a (hl (.number 0) (.head _)) (hl (.number 1) (.tail _ (.head _))),
    keepsToLooks_numberAndPlaces fun _ _ hx hplaces => by
      rw [fixed, fixed, placesAt, placesAt, hx, hplaces],
    fun _ _ _ hl => money_congr (hl (.number 0) (.head _)) (hl (.textOr 1) (.tail _ (.head _)))
      (hl (.numberOr 2) (.tail _ (.tail _ (.head _)))),
    keepsToLooks_oneText fun _ _ h => by rw [length, length, h],
    keepsToLooks_oneText fun _ _ h => by rw [upper, upper, h],
    keepsToLooks_oneText fun _ _ h => by rw [lower, lower, h],
    keepsToLooks_valueList, -- CONCAT
    fun _ _ _ _ => rfl, -- TODAY
    fun _ _ _ _ => rfl, -- NOW
    fun _ _ _ hl => date_congr (hl (.number 0) (.head _)) (hl (.number 1) (.tail _ (.head _)))
      (hl (.number 2) (.tail _ (.tail _ (.head _)))),
    keepsToLooks_oneReference fun _ _ h => by rw [row, row, lineNumber, lineNumber, h],
    keepsToLooks_oneReference fun _ _ h => by rw [column, column, lineNumber, lineNumber, h]⟩

end Builtin

/-- Wherever a formula's operands are read, a call of a function that was registered gives its body
as many arguments as fit its parameters, each of the kind that the parameter at its place asks for,
or fails without asking the body: with `#VALUE!` for a number of operands that does not fit, else
with the error of the leftmost operand that cannot be read. No answer that a reader of arguments
falls back on decides what a built-in function makes: it depends on the looks that its parameters
promise, and none of those is a mismatch. The dates that are read are ones of the calendar, as all
dates are; their serials are numbers then. -/
theorem Function.receives_what_parameters_ask {s : Source} (hs : s.DatesExist)
    {os : List Operand} (hos : ∀ o ∈ os, o.DatesExist) :
    (∀ (r r' : Registry) (name : String) (f : Function), r.register name f = .ok r' →
      (∃ args, f.Asks s os args ∧ f.Receives s os args) ∨
        ∃ e, f.Fails s os e ∧ f.Refuses s os e) ∧
    (∀ (name : String) (f : Function), Builtin.registry.find? name = some f → f.KeepsToLooks ∧
      ((∃ args, f.Asks s os args ∧ f.Receives s os args) ∨
        ∃ e, f.Fails s os e ∧ f.Refuses s os e)) := by
  refine ⟨fun r r' name f hf => ?_, fun name f hf => ?_⟩
  · exact asks_or_fails (Registry.listError?_eq_none_of_register hf) hs hos
  · obtain ⟨b, hb, rfl, -⟩ := Builtin.holds_registry _ f hf
    have hparameters : ∀ b ∈ Builtin.all, Parameter.listError? false b.function.parameters = none :=
      by decide +kernel
    exact ⟨Builtin.keepsToLooks_all b hb, asks_or_fails (hparameters b hb) hs hos⟩

/-- A sum over a cell with a date, a truth value and an omitted number receives numbers. -/
theorem Function.receives_what_parameters_ask_sum :
    let s : Source := ⟨fun _ => .empty, fun _ => [.date (.midnight 0), .text "total"], fun _ => [],
      fun _ => none, fun _ => none, ⟨.midnight 0, 0⟩⟩
    let os : List Operand := [.reference (.single (.place (.cell ⟨0, false⟩ ⟨0, false⟩ true))),
      .value (.logical true), .missing]
    let f := Builtin.strict Builtin.numberList Builtin.sum
    ∃ args, f.Asks s os args ∧ f.Receives s os args := by
  intro s os f
  have hs : s.DatesExist := by
    refine ⟨fun g m hm => ?_, nofun⟩
    obtain hm | hm := List.mem_cons.mp hm
    · cases hm
      exact Calendar.exists_midnight (by decide)
    · cases List.mem_singleton.mp hm
  have hos : ∀ o ∈ os, o.DatesExist := by
    refine List.forall_mem_cons.mpr ⟨trivial, List.forall_mem_cons.mpr ⟨fun m hm => ?_,
      List.forall_mem_singleton.mpr trivial⟩⟩
    cases List.mem_singleton.mp hm
  obtain hasked | ⟨e, hfails, -⟩ :=
    ((receives_what_parameters_ask hs hos).2 "sum" f rfl).2
  · exact hasked
  · have hempty := hfails (.steady fun _ => .empty) s.ambient
    have hcall : call { f with body := .steady fun _ => .empty } s s.ambient os = .empty := rfl
    cases hcall.symm.trans hempty

end Spreadsheet
