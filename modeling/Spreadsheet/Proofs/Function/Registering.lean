import Spreadsheet.Function.Registry
import Spreadsheet.Proofs.Formula.Naming

/-! Functions that are registered one after the other. What is refused changes nothing, and of
those that were accepted the last one under a name answers to it, in any case of its letters. -/

namespace Spreadsheet.Registry

/-- What asks for a function under a name. -/
inductive Request where
  | register (name : String) (f : Function)
  | addAlias (name target : String)

def request (r : Registry) : Request → Except Failure Registry
  | .register name f => r.register name f
  | .addAlias name target => r.addAlias name target

/-- The name that a request is for, and the function that goes with it. -/
def Request.entry? (r : Registry) : Request → Option (String × Function)
  | .register name f => some (name, f)
  | .addAlias name target => (r.find? target).map fun f => (name, f)

/-- The registry after one request after the other, whatever they answer. -/
def after (r : Registry) : List Request → Registry
  | [] => r
  | q :: qs =>
    match r.request q with
    | .ok r' => r'.after qs
    | .error _ => r.after qs

/-- What was accepted, the oldest first. -/
def accepted (r : Registry) : List Request → List (String × Function)
  | [] => []
  | q :: qs =>
    match r.request q with
    | .ok r' => (q.entry? r).toList ++ r'.accepted qs
    | .error _ => r.accepted qs

/-- The last function under a name with the same upper-case form. -/
def last? (entries : List (String × Function)) (name : String) : Option Function :=
  (entries.reverse.find? fun e => Text.upper e.1 == Text.upper name).map (·.2)

theorem last?_cons (e : String × Function) (entries : List (String × Function)) (name : String) :
    last? (e :: entries) name =
      (last? entries name).or (if Text.upper e.1 = Text.upper name then some e.2 else none) := by
  simp only [last?, List.reverse_cons, List.find?_append, Option.map_or, List.find?_singleton,
    beq_iff_eq]
  split <;> rfl

theorem last?_congr {entries : List (String × Function)} {m n : String}
    (h : Text.upper m = Text.upper n) : last? entries m = last? entries n := by
  rw [last?, last?, h]

theorem isSome_last? {entries : List (String × Function)} {e : String × Function}
    (h : e ∈ entries) : (last? entries e.1).isSome = true := by
  rw [last?, Option.isSome_map, List.find?_isSome]
  exact ⟨e, List.mem_reverse.mpr h, beq_self_eq_true _⟩

variable {r r' : Registry}

theorem register_eq_ok {name : String} {f : Function} (h : r.register name f = .ok r') :
    isName name.toList = true ∧ r' = ⟨r.functions.insert (Text.upper name) f⟩ := by
  unfold register at h
  split at h
  · cases h
  · next hname =>
    split at h <;> cases h
    exact ⟨by simpa using hname, rfl⟩

/-- A request that is accepted adds its function under its name, which is a name. -/
theorem request_eq_ok {q : Request} (h : r.request q = .ok r') :
    ∃ e, q.entry? r = some e ∧ isName e.1.toList = true ∧
      r' = ⟨r.functions.insert (Text.upper e.1) e.2⟩ := by
  cases q with
  | register name f => exact ⟨(name, f), rfl, register_eq_ok h⟩
  | addAlias name target =>
    simp only [request, addAlias] at h
    split at h
    · next f hf => exact ⟨(name, f), by simp [Request.entry?, hf], register_eq_ok h⟩
    · cases h

/-- A name finds what was accepted last under it, or else what was there before. -/
theorem find?_after (qs : List Request) (r : Registry) (name : String) :
    (r.after qs).find? name = (last? (r.accepted qs) name).or (r.find? name) := by
  induction qs generalizing r with
  | nil => rfl
  | cons q qs ih =>
    cases hq : r.request q with
    | error failure => simp only [after, accepted, hq, ih]
    | ok r' =>
      obtain ⟨e, he, -, rfl⟩ := request_eq_ok hq
      have hfind : find? ⟨r.functions.insert (Text.upper e.1) e.2⟩ name =
          (if Text.upper e.1 = Text.upper name then some e.2 else none).or (r.find? name) := by
        simp only [find?, Std.ExtTreeMap.getElem?_insert, Std.LawfulEqCmp.compare_eq_iff_eq]
        split <;> rfl
      simp only [after, accepted, hq, ih, he, Option.toList_some, List.singleton_append,
        last?_cons, hfind, Option.or_assoc]

theorem isName_of_mem_accepted {qs : List Request} {e : String × Function} (h : e ∈ r.accepted qs) :
    isName e.1.toList = true := by
  induction qs generalizing r with
  | nil => cases h
  | cons q qs ih =>
    cases hq : r.request q with
    | error failure =>
      simp only [accepted, hq] at h
      exact ih h
    | ok r' =>
      obtain ⟨e', he', hname, -⟩ := request_eq_ok hq
      simp only [accepted, hq, he', Option.toList_some, List.singleton_append, List.mem_cons] at h
      obtain rfl | h := h
      · exact hname
      · exact ih h

/-- A name that a function was accepted under finds the last one, in any case of its letters. -/
theorem find?_of_mem_accepted {qs : List Request} {e : String × Function} (h : e ∈ r.accepted qs)
    {name : String} (hname : Text.sameIgnoringCase name e.1 = true) :
    (r.after qs).find? name = last? (r.accepted qs) e.1 := by
  obtain ⟨f, hf⟩ := Option.isSome_iff_exists.mp (isSome_last? h)
  rw [find?_after, last?_congr (Text.upper_eq_of_sameIgnoringCase hname), hf, Option.some_or]

end Spreadsheet.Registry
