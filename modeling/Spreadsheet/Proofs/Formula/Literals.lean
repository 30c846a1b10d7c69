import Spreadsheet.Proofs.Formula.Revising
import Spreadsheet.Proofs.Grid.Addressing

/-! The numbers written in formulas. A numeral that is too large is a fault, so the numbers of a
formula without faults are finite; and edits of the grid change its references alone. -/

namespace Spreadsheet

open Grammar

/-- The literal is no number, or a finite one. -/
def Literal.IsFinite : Literal → Prop
  | number x => x.isFinite = true
  | text _ | logical _ | error _ => True

namespace Expr

mutual
/-- The literals of the tree from left to right, those of array constants included. -/
def literals : Expr → List Literal
  | literal l => [l]
  | array rows => rows.flatten
  | sign _ e | paren e => literals e
  | binary _ left right => literals left ++ literals right
  | call _ args => literalsIn args
  | name _ | reference _ | missing => []
def literalsIn : List Expr → List Literal
  | [] => []
  | e :: rest => literals e ++ literalsIn rest
end

variable {f : Reference → Reference}

mutual
theorem literals_mapReferences : ∀ e : Expr, (e.mapReferences f).literals = e.literals
  | sign _ e | paren e => literals_mapReferences e
  | binary _ left right =>
    congrArg₂ (· ++ ·) (literals_mapReferences left) (literals_mapReferences right)
  | call _ args => literalsIn_mapReferencesAll args
  | literal _ | name _ | reference _ | array _ | missing => rfl
theorem literalsIn_mapReferencesAll :
    ∀ es : List Expr, literalsIn (mapReferencesAll f es) = literalsIn es
  | [] => rfl
  | e :: rest => congrArg₂ (· ++ ·) (literals_mapReferences e) (literalsIn_mapReferencesAll rest)
end

/-- Its numbers are finite, and its references have coordinates that lines can have. -/
structure IsFinite (e : Expr) : Prop where
  literals : ∀ l ∈ e.literals, l.IsFinite
  references : e.EachReference Reference.Addressable

theorem IsFinite.revised {e : Expr} (h : e.IsFinite) (v : Revision) :
    (e.mapReferences v.reference).IsFinite where
  literals := by
    rw [literals_mapReferences]
    exact h.literals
  references := (eachReference_mapReferences e).mpr (h.references.mono fun _ hr => hr.revised v)

end Expr

theorem Target.Spelled.addressable {t : Target} (h : t.Spelled) : t.Addressable := by
  cases h with
  | cell grid _ => exact grid.addressable
  | range first last _ _ => exact ⟨first.addressable, last.addressable⟩

theorem Token.Writes.isFinite {t : Token} {l : Literal} (h : t.Writes l) : l.IsFinite := by
  cases h with
  | number _ _ finite => exact finite
  | text _ | error _ _ | logical _ _ => trivial

namespace Grammar

theorem Item.isFinite {ts : List Token} {l : Literal} (h : Item ts l) : l.IsFinite := by
  cases h with
  | plain h => exact h.isFinite
  | plus _ h => exact h.isFinite
  | minus _ h => exact Number.isFinite_neg h.isFinite

theorem Rows.isFinite {ts : List Token} {rows : List (List Literal)} (h : Rows ts rows) :
    ∀ l ∈ rows.flatten, l.IsFinite := by
  induction h with
  | last item _ => exact List.forall_mem_singleton.mpr item.isFinite
  | next item _ _ ih | newRow item _ _ ih => exact List.forall_mem_cons.mpr ⟨item.isFinite, ih⟩

theorem Derives.literals_isFinite {p : Phrase} {ts : List Token} {e : Expr} (h : Derives p ts e) :
    ∀ l ∈ e.literals, l.IsFinite := by
  induction h with
  | operand _ ih | alone _ ih | unsigned _ ih | given _ ih => exact ih
  | sign _ _ ih | paren _ _ _ ih | call _ _ _ _ ih => exact ih
  | binary _ _ _ _ ihl ihr => exact List.forall_mem_append.mpr ⟨ihl, ihr⟩
  | literal h => exact List.forall_mem_singleton.mpr h.isFinite
  | array _ h _ => exact h.isFinite
  | lastArgument _ _ ih => exact List.forall_mem_append.mpr ⟨ih, nofun⟩
  | nextArgument _ _ _ ih ih' => exact List.forall_mem_append.mpr ⟨ih, ih'⟩
  | cell _ _ | range _ _ _ | name _ _ _ _ | bareCall _ _ _ | union _ _ _ _ _ _ _ | omitted
  | noPart | nextPart _ _ _ _ _ => exact nofun

theorem Derives.isFinite {p : Phrase} {ts : List Token} {e : Expr} (h : Derives p ts e) :
    e.IsFinite :=
  ⟨h.literals_isFinite, h.spelled.mono fun _ hr t ht => (hr t ht).addressable⟩

end Grammar

/-- A formula that is read without faults derives from its tokens. The formula is a name for what
is read: its tree written out would be computed. -/
theorem Formula.derives_of_eq_ofText {f : Formula} {text : String} (hf : f = ofText text)
    (h : f.diagnostics = []) : ∃ ts, Derives .expression ts f.expr := by
  have hvalid : (ofText text).isValid = true := by
    rw [← hf]
    exact List.isEmpty_iff.mpr h
  rw [isValid_ofText] at hvalid
  obtain ⟨ts, last, -, -, hd⟩ := Parsed.derives_of_isValid hvalid
  rw [← expr_ofText, ← hf] at hd
  exact ⟨ts, hd⟩

theorem Formula.isFinite_of_eq_ofText {f : Formula} {text : String} (hf : f = ofText text)
    (h : f.diagnostics = []) : f.expr.IsFinite := by
  obtain ⟨ts, hd⟩ := derives_of_eq_ofText hf h
  exact hd.isFinite

end Spreadsheet
