import Spreadsheet.Proofs.Function.Registering
import Spreadsheet.Proofs.Sheet.Orderly

/-! Names that a sheet holds. Only a definition adds one, which passes the check of names and is
stored in upper case; so a formula that consists of a name in any case of its letters reads as
this name and has the value of its definition. -/

namespace Spreadsheet

/-- The value of what a name stands for: the value itself, or that of the reference. -/
def Definition.worth (s : Source) : Definition → Value
  | .value v => v
  | .reference r => (Expr.reference r).evaluate s

namespace Sheet

variable {s t : Sheet}

/-- Every name that the sheet holds can be defined, and is in upper case. -/
def NamesDefinable (s : Sheet) : Prop :=
  ∀ (key : String) (d : Definition), s.names[key]? = some d →
    isName key = true ∧ Text.upperAscii key = key

theorem isName_upperAscii {name : String} (h : isName name = true) :
    isName (Text.upperAscii name) = true ∧
      Text.upperAscii (Text.upperAscii name) = Text.upperAscii name := by
  have hupper := Text.upperAscii_upperAscii name
  exact ⟨(isName_congr (Text.upperAscii_eq_iff.mp hupper)).trans h, hupper⟩

/-! ## What a plan makes of the names -/

section

variable {name key : String}

/-- A definition brings in the name that it is of, in upper case. -/
theorem names_planDefine {d : Definition} (ht : (s.planDefine name d).LeadsTo s t)
    (hkey : (t.names[key]?).isSome = true) :
    (s.names[key]?).isSome = true ∨ isName name = true ∧ key = Text.upperAscii name := by
  unfold planDefine at ht
  split at ht
  · obtain rfl : t = s := ht
    exact .inl hkey
  · next hname =>
    obtain rfl | rfl : t = _ ∨ t = _ := ht
    · by_cases hk : key = Text.upperAscii name
      · exact .inr ⟨by simpa using hname, hk⟩
      · have hother : (s.names.insert (Text.upperAscii name) d)[key]? = s.names[key]? :=
          insert_getElem? d key hk
        exact .inl (hother ▸ hkey)
    · exact .inl hkey

theorem names_planUndefine (ht : (s.planUndefine name).LeadsTo s t)
    (hkey : (t.names[key]?).isSome = true) : (s.names[key]?).isSome = true := by
  unfold planUndefine at ht
  dsimp only at ht
  split at ht
  · obtain rfl : t = _ := ht
    by_cases hk : key = Text.upperAscii name
    · rw [hk] at hkey
      exact absurd hkey (by simp [withNames, markDirty])
    · have hother : (s.names.erase (Text.upperAscii name))[key]? = s.names[key]? :=
        erase_getElem? key hk
      exact hother ▸ hkey
  · obtain rfl : t = s := ht
    exact hkey

theorem names_planEdit {e : Edit} (ht : (s.planEdit e).LeadsTo s t)
    (hkey : (t.names[key]?).isSome = true) : (s.names[key]?).isSome = true := by
  unfold planEdit at ht
  split at ht
  · obtain rfl : t = s := ht
    exact hkey
  · obtain rfl : t = (s.reshaped e).markFormulas := ht
    have hmap : ((s.reshaped e).names[key]?).isSome = (s.names[key]?).isSome := by
      simp [reshaped]
    exact hmap ▸ hkey

end

/-- Only a definition brings in a name. -/
theorem names_plan {op : Operation} (ht : (s.plan op).LeadsTo s t) {key : String}
    (hkey : (t.names[key]?).isSome = true) :
    (s.names[key]?).isSome = true ∨
      ∃ name d, op = .define name d ∧ isName name = true ∧ key = Text.upperAscii name := by
  have same (hnames : t.names = s.names) : (s.names[key]?).isSome = true := hnames ▸ hkey
  have elsewhere {p : Position} (h : s.SameElsewhere p t) : (s.names[key]?).isSome = true :=
    same h.names
  cases op with
  | setValue p v => exact .inl (elsewhere (sameElsewhere_planContents (c := some (.value v)) ht))
  | setFormula p f =>
    exact .inl (elsewhere (sameElsewhere_planContents (c := some (.formula f)) ht))
  | setInput p text => exact .inl (elsewhere (sameElsewhere_planContents ht))
  | clear p => exact .inl (elsewhere (sameElsewhere_planClear ht))
  | copy source target => exact .inl (elsewhere (sameElsewhere_planContents ht))
  | define name d => exact (names_planDefine ht hkey).imp_right fun h => ⟨name, d, rfl, h⟩
  | undefine name => exact .inl (names_planUndefine ht hkey)
  | edit e => exact .inl (names_planEdit ht hkey)
  | setFormat r f =>
    obtain rfl : t = s.setFormat r f := ht
    refine .inl (same ?_)
    cases f <;> rfl
  | clearRegion _ | pause | resume | setAutoCalculate _ | calculate | calculateAll
    | setFunctions _ =>
    obtain rfl : t = _ := ht
    exact .inl (same rfl)

theorem NamesDefinable.plan (h : s.NamesDefinable) {op : Operation}
    (ht : (s.plan op).LeadsTo s t) : t.NamesDefinable := by
  intro key d hd
  obtain hold | ⟨name, -, -, hname, rfl⟩ := names_plan ht (by rw [hd]; rfl)
  · obtain ⟨d', hd'⟩ := Option.isSome_iff_exists.mp hold
    exact h key d' hd'
  · exact isName_upperAscii hname

theorem Reachable.namesDefinable (h : s.Reachable) : s.NamesDefinable := by
  induction h with
  | empty name settings functions ambient =>
    intro key d hd
    have hnone : (Sheet.empty name settings functions ambient).names[key]? = none :=
      Std.ExtTreeMap.getElem?_empty
    rw [hnone] at hd
    cases hd
  | @call s hs c _ ih =>
    have hlinked := (hs.sound.withAmbient c.ambient).linked
    obtain ⟨t, ht, hst⟩ := (apply_fulfilled hlinked c.operation).sameHoldings
    have ih' : (s.withAmbient c.ambient).NamesDefinable := ih
    intro key d hd
    change ((s.withAmbient c.ambient).apply c.operation).sheet.names[key]? = some d at hd
    rw [hst.names] at hd
    exact ih'.plan ht key d hd

/-! ## The value of a name -/

theorem evaluate_name {n : String} {d : Definition} (hd : s.definition? n = some d) (a : Ambient) :
    (Expr.name n).evaluate (s.source a) = d.worth (s.source a) := by
  have hsource : (s.source a).definition? n = some d := hd
  rw [Expr.evaluate, Expr.operand, hsource]
  cases d <;> rfl

end Sheet

namespace Formula

theorem body_of_isIdentifier {n : String} (h : Token.IsIdentifier n.toList) : body n = n := by
  have hchars := h.chars
  obtain ⟨c, rest, hn, hc, -⟩ := h
  have hequals : c ≠ '=' := by
    rintro rfl
    have hchar := hchars '=' (hn ▸ List.mem_cons_self)
    revert hchar
    decide
  rw [body, hn, Text.dropBlanks, List.dropWhile_cons_of_neg (by simp [hc.notBlank])]
  split
  · next hcons =>
    cases hcons
    exact absurd rfl hequals
  · rw [← hn, String.ofList_toList]

theorem body_equals (n : String) : body ("=" ++ n) = n := by
  have htext : ("=" ++ n).toList = '=' :: n.toList := String.toList_append
  have hequals : Text.isBlank '=' = false := by decide
  rw [body, htext, Text.dropBlanks, List.dropWhile_cons_of_neg (by simp [hequals])]
  exact String.ofList_toList

/-- A name as a formula, with or without its equals sign. -/
theorem evaluate_of_isName {n : String} (h : Sheet.isName n = true) (s : Source) :
    (ofText n).evaluate s = (Expr.name n).evaluate s ∧
      (ofText ("=" ++ n)).evaluate s = (Expr.name n).evaluate s := by
  obtain ⟨hvalid, hexpr⟩ := (Sheet.isName_iff_reads n).mp h
  have hbody : body n = n :=
    body_of_isIdentifier (Registry.isName_iff.mp (Sheet.isName_iff.mp h).1).1
  constructor
  · rw [evaluate, isValid_ofText, expr_ofText, hbody, hvalid, hexpr, if_pos rfl]
  · rw [evaluate, isValid_ofText, expr_ofText, body_equals, hvalid, hexpr, if_pos rfl]

end Formula

/-- What can be defined can be referred to. A text passes the check of names exactly when it reads
without faults as the name that it is; so a formula that consists of a name that a sheet holds, in
any case of its ASCII letters, has the value of the definition. A text under which a function was
accepted is its call when parentheses follow, and in any case of its ASCII letters it finds the
function that was accepted last under a name with the same upper-case form. -/
theorem definable_is_referable :
    (∀ n : String, Sheet.isName n = true ↔
      (Parsed.ofText n).isValid = true ∧ (Parsed.ofText n).expr = .name n) ∧
    (∀ s : Sheet, s.Reachable → ∀ (key : String) (d : Definition), s.names[key]? = some d →
      ∀ text : String, Text.sameIgnoringCase text key = true → ∀ a : Ambient,
        (Formula.ofText text).evaluate (s.source a) = d.worth (s.source a) ∧
          (Formula.ofText ("=" ++ text)).evaluate (s.source a) = d.worth (s.source a)) ∧
    ∀ (r : Registry) (qs : List Registry.Request) (n : String) (f : Function),
      (n, f) ∈ r.accepted qs →
      ((Parsed.ofText (n ++ "()")).isValid = true ∧
        (Parsed.ofText (n ++ "()")).expr = .call n []) ∧
      ∃ g, Registry.last? (r.accepted qs) n = some g ∧
        ∀ text : String, Text.sameIgnoringCase text n = true → (r.after qs).find? text = some g := by
  refine ⟨Sheet.isName_iff_reads, fun s hs key d hd text htext a => ?_, fun r qs n f hf => ?_⟩
  · obtain ⟨hname, hupper⟩ := hs.namesDefinable key d hd
    have hread : s.definition? text = some d := by
      rw [Sheet.definition?, Text.upperAscii_eq_iff.mpr htext, hupper, hd]
    obtain ⟨hplain, hequals⟩ :=
      Formula.evaluate_of_isName ((Sheet.isName_congr htext).trans hname) (s.source a)
    rw [hplain, hequals, Sheet.evaluate_name hread]
    exact ⟨rfl, rfl⟩
  · refine ⟨Registry.reads_call (Registry.isName_of_mem_accepted hf), ?_⟩
    obtain ⟨g, hg⟩ := Option.isSome_iff_exists.mp (Registry.isSome_last? hf)
    exact ⟨g, hg, fun text htext => (Registry.find?_of_mem_accepted hf htext).trans hg⟩

/-- `Total` stands for the truth value true, and is written `tOTal`. A function is registered as
`Twice`, and then another one as `TWICE`. -/
theorem definable_is_referable_in_small :
    let a : Ambient := ⟨.midnight 0, 0⟩
    let s := (Sheet.empty "Sheet1" default .empty a).after
      [⟨a, .define "Total" (.value (.logical true))⟩]
    let first : Function := ⟨[], false, .steady fun _ => .logical false⟩
    let second : Function := ⟨[], false, .steady fun _ => .logical true⟩
    let qs : List Registry.Request := [.register "Twice" first, .register "TWICE" second]
    ((Parsed.ofText "Total").isValid = true ∧ (Parsed.ofText "Total").expr = .name "Total") ∧
      (Formula.ofText "=tOTal").evaluate (s.source a) = .logical true ∧
      (Parsed.ofText "Twice()").expr = .call "Twice" [] ∧
      (Registry.empty.after qs).find? "tWICE" = some second := by
  intro a s first second qs
  obtain ⟨hreads, hvalue, hcall⟩ := definable_is_referable
  have hreachable : s.Reachable :=
    (Sheet.Reachable.empty "Sheet1" default .empty a).call
      ⟨a, .define "Total" (.value (.logical true))⟩ (by decide)
  have hheld : s.names["TOTAL"]? = some (.value (.logical true)) := rfl
  obtain ⟨⟨-, htree⟩, g, hg, hfind⟩ :=
    hcall Registry.empty qs "Twice" first List.mem_cons_self
  have haccepted : Registry.empty.accepted qs = [("Twice", first), ("TWICE", second)] := rfl
  have hlast : Registry.last? [("Twice", first), ("TWICE", second)] "Twice" = some second := by
    rw [Registry.last?_cons, Registry.last?_cons, if_pos (by decide)]
    rfl
  rw [haccepted, hlast] at hg
  have hsecond : g = second := (Option.some.inj hg).symm
  have htotal := (hvalue s hreachable "TOTAL" _ hheld "tOTal" (by decide) a).2
  exact ⟨(hreads "Total").mp (by decide), htotal, htree,
    (hfind "tWICE" (by decide)).trans (congrArg some hsecond)⟩

end Spreadsheet
