import Spreadsheet.Proofs.Formula.Spelling
import Spreadsheet.Proofs.Grid.Revising

/-! What a formula's text can say of its references, and of its numbers. A cell or a range on the
grid is written by name; a reference part of which is gone is written as an error, and settled by
it; and one zero is written for both. -/

namespace Spreadsheet

open Grammar

/-! ## What can be named -/

namespace Target

/-- A cell, or a range between two sorted places of one kind, all on the grid. -/
inductive Spelled : Target → Prop
  | cell {p : Place} (grid : p.InGrid) (kind : p.kind = .cell) : Spelled (.place p)
  | range {p q : Place} (first : p.InGrid) (last : q.InGrid) (kinds : q.kind = p.kind)
      (sorted : between p q = .range p q) : Spelled (.range p q)

theorem Spelled.isValid {t : Target} (h : t.Spelled) : t.isValid = true := by
  cases h with
  | cell grid _ => exact grid.valid
  | range first last _ _ => simp [Target.isValid, first.valid, last.valid]

theorem Spelled.formed {t : Target} (h : t.Spelled) : t.Formed := by
  cases h with
  | cell grid kind => exact .cell grid kind
  | range first last kinds sorted =>
    exact .range ⟨first.valid, last.valid⟩ ⟨first.rowOnGrid, last.rowOnGrid⟩ kinds sorted

/-- A well-formed target can be named once its columns can. -/
theorem Formed.spelled {t : Target} (h : t.Formed) (hc : t.HasColumns) : t.Spelled := by
  cases h with
  | cell grid kind => exact .cell grid kind
  | range valid rows kinds sorted =>
    exact .range (rows.1.inGrid valid.1 hc.1) (rows.2.inGrid valid.2 hc.2) kinds sorted

theorem spelled_between {p q : Place} (hp : p.InGrid) (hq : q.InGrid) (kinds : q.kind = p.kind) :
    (between p q).Spelled := by
  obtain ⟨p', q', hpq, hsorted, hp', hq'⟩ := between_eq_range hp hq
  rw [hpq]
  exact .range hp'.1 hq'.1 (by rw [hq'.2, hp'.2, kinds]) hsorted

end Target

/-- All that the reference points at can be named. -/
def Reference.Spelled (r : Reference) : Prop := ∀ t ∈ r.targets, t.Spelled

namespace Reference

theorem Spelled.isValid {r : Reference} (h : r.Spelled) : r.isValid = true :=
  List.all_eq_true.mpr fun t ht => (h t ht).isValid

theorem spelled_single {t : Target} : (single t).Spelled ↔ t.Spelled := by
  simp [Spelled, targets]

theorem spelled_union_cons {r : Reference} {rs : List Reference} :
    (union (r :: rs)).Spelled ↔ r.Spelled ∧ (union rs).Spelled := by
  simp [Spelled, targets, targetsOf, or_imp, forall_and]

theorem spelled_union_nil : (union []).Spelled := by simp [Spelled, targets, targetsOf]

end Reference

/-- The literal is a zero with a sign. -/
def Literal.isNegativeZero : Literal → Bool
  | .number x => Number.units x == 0 && Number.isNegative x
  | _ => false

theorem Literal.reread_eq {l : Literal} (h : l.isNegativeZero = false) : l.reread = l := by
  cases l with
  | number x =>
    have hzero : Number.units x = 0 → Number.isNegative x = false := by
      simpa [isNegativeZero] using h
    refine congrArg Literal.number ?_
    rw [Number.reread]
    split
    · next hx => exact (Number.eq_zero hx (hzero hx)).symm
    · rfl
  | _ => rfl

namespace Expr

/-! ## Each reference of a tree -/

mutual
/-- Every reference in the tree, names apart, has the property. -/
def EachReference (P : Reference → Prop) : Expr → Prop
  | reference r => P r
  | sign _ e | paren e => EachReference P e
  | binary _ left right => EachReference P left ∧ EachReference P right
  | call _ args => EachReferenceIn P args
  | literal _ | name _ | array _ | missing => True
def EachReferenceIn (P : Reference → Prop) : List Expr → Prop
  | [] => True
  | e :: rest => EachReference P e ∧ EachReferenceIn P rest
end

variable {P Q : Reference → Prop} {f g : Reference → Reference}

mutual
theorem EachReference.imp₂ {R : Reference → Prop} (h : ∀ r, P r → Q r → R r) :
    ∀ e : Expr, e.EachReference P → e.EachReference Q → e.EachReference R
  | reference r, hp, hq => h r hp hq
  | sign _ e, hp, hq | paren e, hp, hq => EachReference.imp₂ h e hp hq
  | binary _ left right, hp, hq =>
    ⟨EachReference.imp₂ h left hp.1 hq.1, EachReference.imp₂ h right hp.2 hq.2⟩
  | call _ args, hp, hq => EachReferenceIn.imp₂ h args hp hq
  | literal _, _, _ | name _, _, _ | array _, _, _ | missing, _, _ => trivial
theorem EachReferenceIn.imp₂ {R : Reference → Prop} (h : ∀ r, P r → Q r → R r) :
    ∀ es : List Expr, EachReferenceIn P es → EachReferenceIn Q es → EachReferenceIn R es
  | [], _, _ => trivial
  | e :: rest, hp, hq =>
    ⟨EachReference.imp₂ h e hp.1 hq.1, EachReferenceIn.imp₂ h rest hp.2 hq.2⟩
end

theorem EachReference.mono {e : Expr} (h : ∀ r, P r → Q r) (he : e.EachReference P) :
    e.EachReference Q :=
  EachReference.imp₂ (fun r hr _ => h r hr) e he he

mutual
theorem eachReference_of_mem :
    ∀ e : Expr, (∀ r ∈ e.references, P r) → e.EachReference P
  | reference r, h => h r List.mem_cons_self
  | sign _ e, h | paren e, h => eachReference_of_mem e h
  | binary _ left right, h =>
    ⟨eachReference_of_mem left fun r hr => h r (List.mem_append_left _ hr),
      eachReference_of_mem right fun r hr => h r (List.mem_append_right _ hr)⟩
  | call _ args, h => eachReferenceIn_of_mem args h
  | literal _, _ | name _, _ | array _, _ | missing, _ => trivial
theorem eachReferenceIn_of_mem :
    ∀ es : List Expr, (∀ r ∈ referencesAll es, P r) → EachReferenceIn P es
  | [], _ => trivial
  | e :: rest, h =>
    ⟨eachReference_of_mem e fun r hr => h r (List.mem_append_left _ hr),
      eachReferenceIn_of_mem rest fun r hr => h r (List.mem_append_right _ hr)⟩
end

mutual
theorem eachReference_mapReferences :
    ∀ e : Expr, (e.mapReferences f).EachReference P ↔ e.EachReference fun r => P (f r)
  | reference _ => Iff.rfl
  | sign _ e | paren e => eachReference_mapReferences e
  | binary _ left right =>
    and_congr (eachReference_mapReferences left) (eachReference_mapReferences right)
  | call _ args => eachReferenceIn_mapReferencesAll args
  | literal _ | name _ | array _ | missing => Iff.rfl
theorem eachReferenceIn_mapReferencesAll :
    ∀ es : List Expr,
      EachReferenceIn P (mapReferencesAll f es) ↔ EachReferenceIn (fun r => P (f r)) es
  | [] => Iff.rfl
  | e :: rest =>
    and_congr (eachReference_mapReferences e) (eachReferenceIn_mapReferencesAll rest)
end

mutual
/-- A change that does nothing to the references in a tree does nothing to the tree. -/
theorem mapReferences_eq_self :
    ∀ e : Expr, (e.EachReference fun r => f r = r) → e.mapReferences f = e
  | reference _, h => congrArg reference h
  | sign s e, h => congrArg (sign s) (mapReferences_eq_self e h)
  | binary op left right, h =>
    congrArg₂ (binary op) (mapReferences_eq_self left h.1) (mapReferences_eq_self right h.2)
  | paren e, h => congrArg paren (mapReferences_eq_self e h)
  | call g args, h => congrArg (call g) (mapReferencesAll_eq_self args h)
  | literal _, _ | name _, _ | array _, _ | missing, _ => rfl
theorem mapReferencesAll_eq_self :
    ∀ es : List Expr, EachReferenceIn (fun r => f r = r) es → mapReferencesAll f es = es
  | [], _ => rfl
  | e :: rest, h =>
    congrArg₂ List.cons (mapReferences_eq_self e h.1) (mapReferencesAll_eq_self rest h.2)
end

theorem mapReferences_id (e : Expr) : (e.mapReferences fun r => r) = e :=
  mapReferences_eq_self e (eachReference_of_mem e fun _ _ => rfl)

mutual
theorem mapReferences_mapReferences :
    ∀ e : Expr, (e.mapReferences f).mapReferences g = e.mapReferences (g ∘ f)
  | reference _ | literal _ | name _ | array _ | missing => rfl
  | sign s e => congrArg (sign s) (mapReferences_mapReferences e)
  | binary op left right =>
    congrArg₂ (binary op) (mapReferences_mapReferences left) (mapReferences_mapReferences right)
  | paren e => congrArg paren (mapReferences_mapReferences e)
  | call n args => congrArg (call n) (mapReferencesAll_mapReferencesAll args)
theorem mapReferencesAll_mapReferencesAll :
    ∀ es : List Expr, mapReferencesAll g (mapReferencesAll f es) = mapReferencesAll (g ∘ f) es
  | [] => rfl
  | e :: rest =>
    congrArg₂ List.cons (mapReferences_mapReferences e) (mapReferencesAll_mapReferencesAll rest)
end

/-! ## Settled references -/

mutual
/-- The tree with an error for each reference part of which is gone. -/
def settled : Expr → Expr
  | reference r => if r.isValid then reference r else literal (.error .badReference)
  | sign s e => sign s (settled e)
  | binary op left right => binary op (settled left) (settled right)
  | paren e => paren (settled e)
  | call g args => call g (settledAll args)
  | e@(literal _) | e@(name _) | e@(array _) | e@missing => e
def settledAll : List Expr → List Expr
  | [] => []
  | e :: rest => settled e :: settledAll rest
end

theorem settled_reference {r : Reference} (h : r.isValid = true) :
    (reference r).settled = reference r := if_pos h

theorem settled_invalid {r : Reference} (h : r.isValid = false) :
    (reference r).settled = literal (.error .badReference) := by
  rw [settled, if_neg (by simp [h])]

mutual
/-- An error prints like the reference it settles. -/
theorem print_settled : ∀ e : Expr, e.settled.print = e.print
  | reference r => by
    cases h : r.isValid with
    | true => rw [settled_reference h]
    | false =>
      rw [settled_invalid h, print, print, Reference.text, h]
      rfl
  | sign _ e => by simp only [settled, print, print_settled e]
  | binary _ left right => by
    simp only [settled, print, print_settled left, print_settled right]
  | paren e => by simp only [settled, print, print_settled e]
  | call _ args => by simp only [settled, print, printAll_settledAll args]
  | literal _ | name _ | array _ | missing => rfl
theorem printAll_settledAll : ∀ es : List Expr, printAll (settledAll es) = printAll es
  | [] => rfl
  | e :: rest => by simp only [settledAll, printAll, print_settled e, printAll_settledAll rest]
end

mutual
theorem settled_eq :
    ∀ e : Expr, (e.EachReference fun r => r.isValid = true) → e.settled = e
  | reference _, h => settled_reference h
  | sign s e, h => congrArg (sign s) (settled_eq e h)
  | binary op left right, h =>
    congrArg₂ (binary op) (settled_eq left h.1) (settled_eq right h.2)
  | paren e, h => congrArg paren (settled_eq e h)
  | call g args, h => congrArg (call g) (settledAll_eq args h)
  | literal _, _ | name _, _ | array _, _ | missing, _ => rfl
theorem settledAll_eq :
    ∀ es : List Expr, EachReferenceIn (fun r => r.isValid = true) es → settledAll es = es
  | [], _ => rfl
  | e :: rest, h => congrArg₂ List.cons (settled_eq e h.1) (settledAll_eq rest h.2)
end

/-- Two changes of a reference that settle alike: they come to the same, or both destroy it. -/
def SettleAlike (f g : Reference → Reference) (r : Reference) : Prop :=
  f r = g r ∨ (f r).isValid = false ∧ (g r).isValid = false

mutual
theorem settled_mapReferences_congr :
    ∀ e : Expr, e.EachReference (SettleAlike f g) →
      (e.mapReferences f).settled = (e.mapReferences g).settled
  | reference r, h => by
    obtain h | ⟨hf, hg⟩ := h
    · rw [mapReferences, mapReferences, h]
    · rw [mapReferences, mapReferences, settled_invalid hf, settled_invalid hg]
  | sign s e, h => congrArg (sign s) (settled_mapReferences_congr e h)
  | binary op left right, h =>
    congrArg₂ (binary op) (settled_mapReferences_congr left h.1)
      (settled_mapReferences_congr right h.2)
  | paren e, h => congrArg paren (settled_mapReferences_congr e h)
  | call n args, h => congrArg (call n) (settledAll_mapReferencesAll_congr args h)
  | literal _, _ | name _, _ | array _, _ | missing, _ => rfl
theorem settledAll_mapReferencesAll_congr :
    ∀ es : List Expr, EachReferenceIn (SettleAlike f g) es →
      settledAll (mapReferencesAll f es) = settledAll (mapReferencesAll g es)
  | [], _ => rfl
  | e :: rest, h =>
    congrArg₂ List.cons (settled_mapReferences_congr e h.1)
      (settledAll_mapReferencesAll_congr rest h.2)
end

/-! ## Numbers read again -/

mutual
/-- The tree that its text is read as: with one zero. -/
def reread : Expr → Expr
  | literal l => literal l.reread
  | sign s e => sign s (reread e)
  | binary op left right => binary op (reread left) (reread right)
  | paren e => paren (reread e)
  | call g args => call g (rereadAll args)
  | array rows => array (rows.map (·.map Literal.reread))
  | e@(name _) | e@(reference _) | e@missing => e
def rereadAll : List Expr → List Expr
  | [] => []
  | e :: rest => reread e :: rereadAll rest
end

mutual
theorem reread_settled : ∀ e : Expr, e.settled.reread = e.reread.settled
  | reference r => by
    cases h : r.isValid with
    | true => rw [settled_reference h, reread, settled_reference h]
    | false =>
      rw [settled_invalid h, reread, reread, settled_invalid h]
      rfl
  | sign s e => congrArg (sign s) (reread_settled e)
  | binary op left right =>
    congrArg₂ (binary op) (reread_settled left) (reread_settled right)
  | paren e => congrArg paren (reread_settled e)
  | call g args => congrArg (call g) (rereadAll_settledAll args)
  | literal _ | name _ | array _ | missing => rfl
theorem rereadAll_settledAll : ∀ es : List Expr, rereadAll (settledAll es) = settledAll (rereadAll es)
  | [] => rfl
  | e :: rest => congrArg₂ List.cons (reread_settled e) (rereadAll_settledAll rest)
end

mutual
theorem reread_mapReferences :
    ∀ e : Expr, (e.mapReferences f).reread = e.reread.mapReferences f
  | sign s e => congrArg (sign s) (reread_mapReferences e)
  | binary op left right =>
    congrArg₂ (binary op) (reread_mapReferences left) (reread_mapReferences right)
  | paren e => congrArg paren (reread_mapReferences e)
  | call g args => congrArg (call g) (rereadAll_mapReferencesAll args)
  | literal _ | name _ | array _ | missing | reference _ => rfl
theorem rereadAll_mapReferencesAll :
    ∀ es : List Expr, rereadAll (mapReferencesAll f es) = mapReferencesAll f (rereadAll es)
  | [] => rfl
  | e :: rest => congrArg₂ List.cons (reread_mapReferences e) (rereadAll_mapReferencesAll rest)
end

mutual
/-- Some number in the tree is a negative zero. -/
def hasNegativeZero : Expr → Bool
  | literal l => l.isNegativeZero
  | sign _ e | paren e => hasNegativeZero e
  | binary _ left right => hasNegativeZero left || hasNegativeZero right
  | call _ args => anyNegativeZero args
  | array rows => rows.any (·.any Literal.isNegativeZero)
  | name _ | reference _ | missing => false
def anyNegativeZero : List Expr → Bool
  | [] => false
  | e :: rest => hasNegativeZero e || anyNegativeZero rest
end

mutual
theorem reread_eq : ∀ e : Expr, e.hasNegativeZero = false → e.reread = e
  | literal l, h => congrArg literal (Literal.reread_eq h)
  | sign s e, h => congrArg (sign s) (reread_eq e h)
  | binary op left right, h => by
    rw [hasNegativeZero, Bool.or_eq_false_iff] at h
    rw [reread, reread_eq left h.1, reread_eq right h.2]
  | paren e, h => congrArg paren (reread_eq e h)
  | call g args, h => congrArg (call g) (rereadAll_eq args h)
  | array rows, h => by
    have hrow : ∀ row ∈ rows, row.map Literal.reread = row := fun row hrow => by
      have hitems : ∀ l ∈ row, l.isNegativeZero = false := by
        have hany : ∀ row ∈ rows, ∀ l ∈ row, l.isNegativeZero = false := by
          simpa [hasNegativeZero] using h
        exact hany row hrow
      rw [List.map_congr_left fun l hl => Literal.reread_eq (hitems l hl), List.map_id']
    rw [reread, List.map_congr_left hrow, List.map_id']
  | name _, _ | reference _, _ | missing, _ => rfl
theorem rereadAll_eq : ∀ es : List Expr, anyNegativeZero es = false → rereadAll es = es
  | [], _ => rfl
  | e :: rest, h => by
    rw [anyNegativeZero, Bool.or_eq_false_iff] at h
    rw [rereadAll, reread_eq e h.1, rereadAll_eq rest h.2]
end

end Expr

/-! ## Formulas as they are read -/

/-- What formulas refer to can be named when they are read. -/
theorem Grammar.Derives.spelled {p : Phrase} {ts : List Token} {e : Expr} (h : Derives p ts e) :
    e.EachReference Reference.Spelled := by
  induction h with
  | operand _ ih | alone _ ih | unsigned _ ih | given _ ih => exact ih
  | sign _ _ ih | paren _ _ _ ih => exact ih
  | binary _ _ _ _ ihl ihr => exact ⟨ihl, ihr⟩
  | @cell t p _ value =>
    have hread : Place.read? .cell t.text.toList = some p := value
    exact Reference.spelled_single.mpr
      (.cell (Place.inGrid_of_read? hread) (Place.kind_of_read? hread))
  | range start _ finish =>
    refine Reference.spelled_single.mpr (Target.spelled_between (Place.inGrid_of_read? start.2)
      (Place.inGrid_of_read? finish.2) ?_)
    rw [Place.kind_of_read? start.2, Place.kind_of_read? finish.2]
  | call _ _ _ _ ih => exact ih
  | union _ _ _ _ _ ih ih' | nextPart _ _ _ ih ih' =>
    exact Reference.spelled_union_cons.mpr ⟨ih, ih'⟩
  | noPart => exact Reference.spelled_union_nil
  | lastArgument _ _ ih => exact ⟨ih, trivial⟩
  | nextArgument _ _ _ ih ih' => exact ⟨ih, ih'⟩
  | literal _ | name _ _ _ _ | bareCall _ _ _ | array _ _ _ | omitted => trivial

end Spreadsheet
