/-! What a function asks for: a list of parameters, of which trailing ones may be left out and the
last may take any number of arguments. -/

namespace Spreadsheet

namespace Parameter

/-- How an argument is read before the function sees it. -/
inductive Kind where
  | number
  | text
  | logical
  | any
  /-- All numbers in the argument; a range or block gives its numeric items only. -/
  | numbers
  /-- All truth values in the argument. -/
  | logicals
  /-- A reference, which the function gets unread. -/
  | reference
  /-- A block of values. -/
  | block
  deriving DecidableEq, Repr

end Parameter

structure Parameter where
  name : String
  kind : Parameter.Kind
  required : Bool := true
  repeating : Bool := false
  deriving DecidableEq, Repr

namespace Parameter

/-- The last parameter, when it takes any number of arguments. -/
def repeated? (ps : List Parameter) : Option Parameter := ps.getLast?.filter (·.repeating)

/-- The parameter of each of `count` arguments, or `none` when they are too few or too many. -/
def forArguments? (ps : List Parameter) (count : Nat) : Option (List Parameter) :=
  if count < ps.countP (·.required) then none
  else
    match repeated? ps with
    | some p => some (ps.take count ++ List.replicate (count - ps.length) p)
    | none => if count ≤ ps.length then some (ps.take count) else none

/-- Why a list of parameters makes no sense. -/
inductive ListError where
  | repeatingNotLast (parameter : String)
  | requiredAfterOptional (parameter : String)
  deriving DecidableEq, Repr

/-- The first fault in a list of parameters that follows an optional one or does not. -/
def listError? (afterOptional : Bool) : List Parameter → Option ListError
  | [] => none
  | p :: rest =>
    if p.repeating && !rest.isEmpty then some (.repeatingNotLast p.name)
    else if p.required && afterOptional then some (.requiredAfterOptional p.name)
    else listError? (afterOptional || !p.required) rest

theorem length_forArguments? {ps qs : List Parameter} {count : Nat}
    (h : forArguments? ps count = some qs) : qs.length = count := by
  unfold forArguments? at h
  split at h
  · simp at h
  · split at h
    · cases h; simp; omega
    · split at h
      · cases h; simp; omega
      · simp at h

/-- Arguments are read by parameters that the list has. -/
theorem mem_of_forArguments? {ps qs : List Parameter} {count : Nat}
    (h : forArguments? ps count = some qs) {p : Parameter} (hp : p ∈ qs) : p ∈ ps := by
  unfold forArguments? at h
  split at h
  · contradiction
  · split at h
    · rename_i q hq
      cases h
      obtain hp | hp := List.mem_append.mp hp
      · exact List.mem_of_mem_take hp
      · rw [List.eq_of_mem_replicate hp]
        exact List.mem_of_getLast? (Option.filter_eq_some_iff.mp hq).1
    · split at h
      · cases h
        exact List.mem_of_mem_take hp
      · contradiction

end Parameter

end Spreadsheet
