import Spreadsheet.Builtin.Table

/-! What the registry of the built-in functions holds: functions of the table only, each under its
own name or under a second name for it. -/

namespace Spreadsheet

namespace Registry

variable {r r' : Registry} {name key : String} {f g : Function}

theorem eq_or_of_register (h : r.register name f = .ok r') (hg : r'.functions[key]? = some g) :
    (key = Text.upper name ∧ g = f) ∨ r.functions[key]? = some g := by
  unfold register at h
  split at h
  · cases h
  · split at h
    · cases h
    · cases h
      change (r.functions.insert (Text.upper name) f)[key]? = some g at hg
      rw [Std.ExtTreeMap.getElem?_insert] at hg
      split at hg
      · next hkey =>
        cases hg
        exact .inl ⟨(Std.LawfulEqOrd.eq_of_compare hkey).symm, rfl⟩
      · exact .inr hg

theorem listError?_eq_none_of_register (h : r.register name f = .ok r') :
    Parameter.listError? false f.parameters = none := by
  unfold register at h
  split at h
  · cases h
  · split at h
    · cases h
    · assumption

end Registry

namespace Builtin

/-- The key, in upper case, is a name of the function. -/
def IsNamed (b : Builtin) (key : String) : Prop :=
  key = Text.upper b.name ∨
    ∃ a ∈ aliases, key = Text.upper a.1 ∧ Text.upper a.2 = Text.upper b.name

/-- Under every key the registry has a function of the table, if any, with that name. -/
def Holds (r : Registry) : Prop :=
  ∀ key f, r.functions[key]? = some f → ∃ b ∈ all, b.function = f ∧ b.IsNamed key

theorem holds_attempt {r : Registry} (hr : Holds r) {name : String} {b : Builtin} (hb : b ∈ all)
    (hname : b.IsNamed (Text.upper name)) : Holds (attempt r (r.register name b.function)) := by
  unfold attempt
  split
  · next h =>
    intro key f hf
    obtain ⟨rfl, rfl⟩ | hf := Registry.eq_or_of_register h hf
    · exact ⟨b, hb, rfl, hname⟩
    · exact hr key f hf
  · exact hr

theorem holds_registry : Holds registry := by
  have hempty : Holds Registry.empty := fun key f hf => by
    have hnone : Registry.empty.functions[key]? = none := Std.ExtTreeMap.getElem?_empty
    cases hnone.symm.trans hf
  -- A second name stands for a first one, so names do not lead on.
  have hsecond : ∀ a ∈ aliases, ∀ a' ∈ aliases, Text.upper a.2 ≠ Text.upper a'.1 := by
    decide +kernel
  unfold registry
  dsimp only
  refine List.foldlRecOn (motive := Holds) aliases _ ?_ fun r hr a ha => ?_
  · exact List.foldlRecOn (motive := Holds) all _ hempty fun r hr b hb =>
      holds_attempt hr hb (.inl rfl)
  · unfold Registry.addAlias
    split
    · next f hf =>
      obtain ⟨b, hb, rfl, hname | ⟨a', ha', hname, -⟩⟩ := hr _ f hf
      · exact holds_attempt hr hb (.inr ⟨a, ha, rfl, hname⟩)
      · exact absurd hname (hsecond a ha a' ha')
    · exact hr

end Builtin

end Spreadsheet
