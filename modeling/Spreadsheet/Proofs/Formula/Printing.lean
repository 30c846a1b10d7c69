import Spreadsheet.Proofs.Formula.Completeness
import Spreadsheet.Proofs.Formula.Settling

/-! Printing undoes reading. By induction on the derivation of a formula, every phrase prints as
characters whose tokens are a phrase of the same kind with an equal tree; a formula without faults
is derived from its tokens, and what the tokens of its printed text derive is read back. -/

namespace Spreadsheet

open Grammar

/-! ## Equal trees print alike -/

theorem map_of_beq {α β : Type} [BEq α] {f : α → β}
    (h : ∀ a b : α, (a == b) = true → f a = f b) {as bs : List α} (hs : (as == bs) = true) :
    as.map f = bs.map f := by
  induction as generalizing bs with
  | nil => cases bs <;> simp_all
  | cons a as ih =>
    cases bs with
    | nil => simp at hs
    | cons b bs =>
      simp only [List.cons_beq_cons, Bool.and_eq_true] at hs
      rw [List.map_cons, List.map_cons, h a b hs.1, ih hs.2]

theorem Literal.print_of_beq {a b : Literal} (h : (a == b) = true) : a.print = b.print := by
  cases a with
  | number x =>
    cases b with
    | number y =>
      have hxy : (x == y) = true := h
      rw [print, print, Number.text_of_beq hxy]
    | _ => cases h
  | text s =>
    cases b with
    | text t =>
      have hst : (s == t) = true := h
      rw [eq_of_beq hst]
    | _ => cases h
  | logical s =>
    cases b with
    | logical t =>
      have hst : (s == t) = true := h
      rw [eq_of_beq hst]
    | _ => cases h
  | error s =>
    cases b with
    | error t =>
      have hst : (s == t) = true := h
      rw [eq_of_beq hst]
    | _ => cases h

namespace Expr

mutual
theorem print_of_beq : ∀ {a b : Expr}, beq a b = true → a.print = b.print
  | literal a, literal b, h => Literal.print_of_beq h
  | name a, name b, h => by simp_all [beq, print]
  | reference a, reference b, h => by simp_all [beq, print]
  | sign s a, sign t b, h => by
    simp only [beq, Bool.and_eq_true, beq_iff_eq] at h
    rw [print, print, h.1, print_of_beq h.2]
  | binary p a c, binary q b d, h => by
    simp only [beq, Bool.and_eq_true, beq_iff_eq] at h
    rw [print, print, h.1.1, print_of_beq h.1.2, print_of_beq h.2]
  | paren a, paren b, h => by
    have h : beq a b = true := h
    rw [print, print, print_of_beq h]
  | call f a, call g b, h => by
    simp only [beq, Bool.and_eq_true, beq_iff_eq] at h
    rw [print, print, h.1, printAll_of_beqAll h.2]
  | array a, array b, h => by
    have hrow (a b : List Literal) (hab : (a == b) = true) :
        separated ',' (a.map Literal.print) = separated ',' (b.map Literal.print) := by
      rw [map_of_beq (fun _ _ => Literal.print_of_beq) hab]
    rw [print, print, map_of_beq hrow h]
  | missing, missing, _ => rfl
theorem printAll_of_beqAll : ∀ {as bs : List Expr}, beqAll as bs = true → printAll as = printAll bs
  | [], [], _ => rfl
  | a :: as, b :: bs, h => by
    simp only [beqAll, Bool.and_eq_true] at h
    rw [printAll, printAll, print_of_beq h.1, printAll_of_beqAll h.2]
end

end Expr

/-! ## Phrases -/

/-- How a phrase is printed: the arguments of a call and the parts of a union as they stand in
it. -/
def Phrase.print : Phrase → Expr → List Char
  | .arguments _, .call _ es => Expr.separated ',' (Expr.printAll es) ++ [')']
  | .parts, .reference (.union rs) => rs.flatMap fun r => ',' :: r.text.toList
  | _, e => e.print

/-- The printed phrase has tokens of its kind with an equal tree. -/
def Prints (p : Phrase) (e : Expr) : Prop :=
  Token.Lexes (p.print e) fun ts => ∃ e', Derives p ts e' ∧ (e' == e) = true

/-- The tokens of the phrase as it is printed have the tree `e'`. -/
def PrintsAs (p : Phrase) (e e' : Expr) : Prop := Token.Lexes (p.print e) fun ts => Derives p ts e'

theorem starts_of_writes {t : Token} {l : Literal} (h : t.Writes l) (hr : t.Reprints) :
    Starts l.print := by
  cases h with
  | @number x kind value finite =>
    have hback := hr.number x (.number kind value finite)
    exact starts_of_chars (Number.text_ne_nil hback.value)
      (List.all_eq_true.mp hback.digits) (by decide) (by decide)
  | text _ =>
    exact ⟨'"', _, by rw [Literal.print, Text.quote, String.toList_ofList]; rfl, by decide⟩
  | @error e _ _ => cases e <;> exact ⟨'#', _, rfl, by decide⟩
  | @logical b _ _ => cases b <;> exact ⟨_, _, rfl, by decide⟩

/-! ## References -/

namespace Reference

theorem text_ofPlace {p : Place} (h : p.isValid = true) : (ofPlace p).text.toList = p.name := by
  have hv : (Target.place p).isValid = true := h
  rw [ofPlace, text_of_isValid ((isValid_single _).trans hv)]
  simp [validText, Target.text, hv]

theorem text_range {p q : Place} (hp : p.isValid = true) (hq : q.isValid = true) :
    (single (.range p q)).text.toList = p.name ++ ':' :: q.name := by
  have hv : (Target.range p q).isValid = true := by simp [Target.isValid, hp, hq]
  rw [text_of_isValid ((isValid_single _).trans hv)]
  simp [validText, Target.text, hv]

theorem text_of_not_isValid {r : Reference} (h : r.isValid = false) : r.text = invalidText := by
  rw [text, h]
  rfl

theorem starts_single {t : Target} (h : (single t).isValid = true → t.Spelled) :
    Starts (single t).text.toList := by
  cases hv : (single t).isValid with
  | false => exact ⟨'#', _, by rw [text_of_not_isValid hv]; rfl, by decide⟩
  | true =>
    cases h hv with
    | @cell p grid _ =>
      have htext := text_ofPlace grid.valid
      rw [ofPlace] at htext
      rw [htext]
      exact p.starts_name
    | @range p q first last _ _ =>
      rw [text_range first.valid last.valid]
      exact p.starts_name.append _

theorem starts_union (r : Reference) (rs : List Reference) :
    Starts (union (r :: rs)).text.toList := by
  cases hv : (union (r :: rs)).isValid with
  | false => exact ⟨'#', _, by rw [text_of_not_isValid hv]; rfl, by decide⟩
  | true => exact ⟨'(', _, toList_text_union hv, by decide⟩

end Reference

theorem prints_invalid : PrintsAs .primary (.literal (.error .badReference))
    (.literal (.error .badReference)) := by
  refine .word (fun offset rest _ => Token.lexFrom_error .badReference rest offset) fun start => ?_
  exact .literal (.error rfl (Token.ofText?_text _))

theorem prints_spelled {t : Target} (h : t.Spelled) :
    PrintsAs .primary (.reference (.single t)) (.reference (.single t)) := by
  unfold PrintsAs
  change Token.Lexes (Reference.single t).text.toList _
  cases h with
  | @cell p grid kind =>
    have htext := Reference.text_ofPlace grid.valid
    rw [Reference.ofPlace] at htext
    rw [htext]
    refine (Place.lexes_name grid).mono ?_
    rintro ts ⟨u, rfl, hkind, hname⟩
    rw [kind] at hkind hname
    exact .cell (hkind.resolve_right (by simp)) hname
  | @range p q first last kinds sorted =>
    rw [Reference.text_range first.valid last.valid]
    refine (Place.lexes_name first).append (.operator (by decide) (Place.lexes_name last))
      (.cons (by decide) _) ?_
    rintro us vs ⟨t, rfl, ht⟩ ⟨colon, ws, rfl, hcolon, u, rfl, hu⟩
    rw [kinds] at hu
    rw [← sorted]
    exact .range ht hcolon hu

/-- A cell or a range prints by name if it can be named, and as an error if it is gone. -/
theorem prints_single {t : Target} (h : (Reference.single t).isValid = true → t.Spelled) :
    PrintsAs .primary (Expr.reference (.single t)).settled
      (Expr.reference (.single t)).settled.reread := by
  cases hv : (Reference.single t).isValid with
  | false =>
    rw [Expr.settled_invalid hv]
    exact prints_invalid
  | true =>
    rw [Expr.settled_reference hv]
    exact prints_spelled (h hv)

/-! ## Printing each phrase -/

variable {p q : Phrase} {e e' l l' r r' : Expr}

theorem prints_operandlike (hp : p.print e = e.print) (hq : q.print e = e.print)
    (h : PrintsAs p e e') (hd : ∀ {ts e}, Derives p ts e → Derives q ts e) : PrintsAs q e e' := by
  unfold PrintsAs at h ⊢
  rw [hp] at h
  rw [hq]
  exact h.mono fun ts => hd

theorem prints_binary {op : BinaryOp} {level : List BinaryOp} {tighter : List (List BinaryOp)}
    (mem : op ∈ level) (hl : PrintsAs (.joined (level :: tighter)) l l')
    (hr : PrintsAs (.joined tighter) r r') (hs : Starts r.print) :
    PrintsAs (.joined (level :: tighter)) (.binary op l r) (.binary op l' r') := by
  obtain ⟨c, rest, hprint, hc⟩ := hs
  -- What comes after `<` or `>` must not make it a longer operator.
  have hsymbol : Token.Joins (op.symbol.toList ++ r.print) := by
    cases op <;> exact .cons (by decide) _
  change Token.Lexes (l.print ++ op.symbol.toList ++ r.print) _
  rw [List.append_assoc]
  refine Token.Lexes.append hl (Token.Lexes.symbol op hr hprint hc) hsymbol ?_
  rintro us vs hl' ⟨t, ws, rfl, ht, hr'⟩
  exact .binary mem ht hl' hr'

theorem prints_sign {s : Sign} (h : PrintsAs .signed e e') :
    PrintsAs .signed (.sign s e) (.sign s e') := by
  refine (Token.Lexes.operator (by cases s <;> decide) h).mono ?_
  rintro ts ⟨t, us, rfl, ht, he'⟩
  exact .sign ht he'

theorem prints_literal {t : Token} {l : Literal} (h : t.Writes l) (hr : t.Reprints) :
    PrintsAs .primary (.literal l) (.literal l.reread) := by
  refine (Token.lexes_literal h hr).mono ?_
  rintro ts ⟨u, rfl, hu⟩
  exact .literal hu

theorem lexes_identifier {t : Token} (kind : t.kind = .identifier) (hr : t.Reprints) :
    Token.Lexes t.text.toList fun ts => ∃ u : Token, ts = [u] ∧ u.kind = .identifier ∧
      u.text = t.text :=
  .word (fun offset _ hb => Token.lexFrom_identifier (hr.identifier kind) hb offset)
    fun _ => ⟨_, rfl, rfl, String.ofList_toList⟩

theorem prints_name {t : Token} (kind : t.kind = .identifier) (hr : t.Reprints)
    (notLogical : Reader.logicalWord? t.text = none)
    (notCell : Place.readCell? t.text.toList = none) (free : '$' ∉ t.text.toList) :
    PrintsAs .primary (.name t.text) (.name t.text) := by
  refine (lexes_identifier kind hr).mono ?_
  rintro ts ⟨u, rfl, hk, hu⟩
  rw [← hu] at notLogical notCell free ⊢
  exact .name hk notLogical notCell free

theorem prints_bareCall {t : Token} (kind : t.kind = .identifier) (hr : t.Reprints) :
    PrintsAs .primary (.call t.text []) (.call t.text []) := by
  change Token.Lexes (t.text.toList ++ '(' :: [] ++ [')']) _
  rw [List.append_assoc]
  refine (lexes_identifier kind hr).append (.punctuation (by decide) (.mark (by decide)))
    (.cons (by decide) _) ?_
  rintro us vs ⟨u, rfl, hk, hu⟩ ⟨start, ws, rfl, hstart, close, rfl, hclose⟩
  rw [← hu]
  exact .bareCall hk hstart hclose

theorem prints_call {t : Token} {es es' : List Expr} (kind : t.kind = .identifier)
    (hr : t.Reprints) (some : es' ≠ [.missing])
    (h : PrintsAs (.arguments t.text) (.call t.text es) (.call t.text es')) :
    PrintsAs .primary (.call t.text es) (.call t.text es') := by
  change Token.Lexes (t.text.toList ++ '(' :: Expr.separated ',' (Expr.printAll es) ++ [')']) _
  rw [List.append_assoc, List.cons_append]
  refine (lexes_identifier kind hr).append (.punctuation (by decide) h) (.cons (by decide) _) ?_
  rintro us vs ⟨u, rfl, hk, hu⟩ ⟨start, ws, rfl, hstart, he'⟩
  rw [← hu] at he' ⊢
  exact .call hk hstart some he'

theorem prints_paren (h : PrintsAs .expression e e') : PrintsAs .primary (.paren e) (.paren e') := by
  change Token.Lexes ('(' :: (e.print ++ [')'])) _
  refine (Token.Lexes.punctuation (by decide) (Token.Lexes.closedBy (by decide) h)).mono ?_
  rintro ts ⟨start, us, rfl, hstart, vs, close, rfl, he', hclose⟩
  exact .paren hstart he' hclose

theorem joins_parts (rs : List Reference) (close : List Char) (h : Token.Joins close) :
    Token.Joins ((rs.flatMap fun r => ',' :: r.text.toList) ++ close) := by
  cases rs with
  | nil => exact h
  | cons => exact .cons (by decide) _

/-- A reference that is printed as itself. -/
abbrev PrintsItself (p : Phrase) (r : Reference) : Prop := PrintsAs p (.reference r) (.reference r)

theorem prints_nextPart {r : Reference} {rs : List Reference} (h : PrintsItself .expression r)
    (h' : PrintsItself .parts (.union rs)) : PrintsItself .parts (.union (r :: rs)) := by
  change Token.Lexes (',' :: (r.text.toList ++ rs.flatMap fun r => ',' :: r.text.toList)) _
  have hjoins : Token.Joins (rs.flatMap fun r => ',' :: r.text.toList) := by
    have := joins_parts rs [] .nil
    rwa [List.append_nil] at this
  refine (Token.Lexes.punctuation (by decide) (Token.Lexes.both h h' hjoins)).mono ?_
  rintro ts ⟨comma, ws, rfl, hcomma, us, vs, rfl, hus, hvs⟩
  exact .nextPart hcomma hus hvs

theorem prints_union {r : Reference} {rs : List Reference}
    (valid : (Reference.union (r :: rs)).isValid = true) (some : rs ≠ [])
    (h : PrintsItself .expression r) (h' : PrintsItself .parts (.union rs)) :
    PrintsItself .primary (.union (r :: rs)) := by
  unfold PrintsItself PrintsAs
  change Token.Lexes (Reference.union (r :: rs)).text.toList _
  rw [Reference.toList_text_union valid]
  refine (Token.Lexes.punctuation (by decide) (Token.Lexes.both h
    (Token.Lexes.closedBy (by decide) h') (joins_parts rs _ (.cons (by decide) [])))).mono ?_
  rintro ts ⟨start, _, rfl, hstart, us, _, rfl, hus, vs, close, rfl, hvs, hclose⟩
  exact .union hstart hus hvs some hclose

theorem isRectangular_reread (rows : List (List Literal)) :
    Reader.isRectangular (rows.map (·.map Literal.reread)) = Reader.isRectangular rows := by
  cases rows <;> simp [Reader.isRectangular, List.all_map, Function.comp_def]

theorem prints_array {ts : List Token} {rows : List (List Literal)} (h : Rows ts rows)
    (even : Reader.isRectangular rows = true) (hr : ∀ t ∈ ts, t.Reprints) :
    PrintsAs .primary (.array rows) (.array (rows.map (·.map Literal.reread))) := by
  change Token.Lexes ('\x7b' :: rowsText rows) _
  refine (Token.Lexes.punctuation (by decide) (lexes_rows h hr)).mono ?_
  rintro ts ⟨start, us, rfl, hstart, hrows⟩
  exact .array hstart hrows ((isRectangular_reread rows).trans even)

theorem prints_lastArgument {f : String} (h : PrintsAs .argument e e') :
    PrintsAs (.arguments f) (.call f [e]) (.call f [e']) := by
  change Token.Lexes (e.print ++ [')']) _
  refine (Token.Lexes.closedBy (by decide) h).mono ?_
  rintro ts ⟨us, close, rfl, he', hclose⟩
  exact .lastArgument he' hclose

theorem prints_nextArgument {f : String} {es es' : List Expr} (some : es ≠ [])
    (h : PrintsAs .argument e e') (h' : PrintsAs (.arguments f) (.call f es) (.call f es')) :
    PrintsAs (.arguments f) (.call f (e :: es)) (.call f (e' :: es')) := by
  have hprint : Phrase.print (.arguments f) (.call f (e :: es)) =
      e.print ++ ',' :: Phrase.print (.arguments f) (.call f es) := by
    have hne : Expr.printAll es ≠ [] := by
      cases es with
      | nil => exact absurd rfl some
      | cons => exact List.cons_ne_nil _ _
    simp only [Phrase.print, Expr.printAll]
    rw [Expr.separated_cons _ _ hne, List.append_assoc, List.cons_append]
  unfold PrintsAs
  rw [hprint]
  refine Token.Lexes.append h (.punctuation (by decide) h') (.cons (by decide) _) ?_
  rintro us vs he' ⟨comma, ws, rfl, hcomma, hes'⟩
  exact .nextArgument he' hcomma hes'

theorem arguments_ne_nil {f g : String} {ts : List Token} {es : List Expr}
    (h : Derives (.arguments f) ts (.call g es)) : es ≠ [] := by
  cases h <;> exact List.cons_ne_nil _ _

/-! ## Printing with changed references -/

/-- The tree with all that it refers to changed by `f`, and settled. -/
def Expr.changed (f : Target → Target) (e : Expr) : Expr :=
  (e.mapReferences (Reference.map f)).settled

/-- What is left of a reference after a change can be named. -/
def NamesLeft (f : Target → Target) (r : Reference) : Prop :=
  (r.map f).isValid = true → (r.map f).Spelled

variable {f : Target → Target} {ts : List Token}

theorem changed_reference {r : Reference} (h : (r.map f).isValid = true) :
    (Expr.reference r).changed f = .reference (r.map f) := Expr.settled_reference h

theorem NamesLeft.parts {r : Reference} {rs : List Reference} (h : NamesLeft f (.union (r :: rs)))
    (hv : ((Reference.union (r :: rs)).map f).isValid = true) :
    ((r.map f).isValid = true ∧ NamesLeft f r) ∧
      ((Reference.union rs).map f).isValid = true ∧ NamesLeft f (.union rs) := by
  obtain ⟨hr, hrs⟩ := Reference.spelled_union_cons.mp (h hv)
  exact ⟨⟨hr.isValid, fun _ => hr⟩, Reference.Spelled.isValid hrs, fun _ => hrs⟩

theorem starts_changed (h : Derives p ts e)
    (hp : p ≠ .argument ∧ (∀ f, p ≠ .arguments f) ∧ p ≠ .parts) (hr : ∀ t ∈ ts, t.Reprints)
    (hf : e.EachReference (NamesLeft f)) : Starts (e.changed f).print := by
  rw [Expr.changed, Expr.print_settled]
  induction h with
  | operand _ ih | alone _ ih | unsigned _ ih => exact ih (by simp) hr hf
  | binary _ _ _ _ ih _ =>
    rw [Expr.mapReferences, Expr.print, List.append_assoc]
    exact (ih (by simp) (fun t ht => hr t (List.mem_append_left _ ht)) hf.1).append _
  | @sign s _ _ _ _ _ _ => cases s <;> exact ⟨_, _, rfl, by decide⟩
  | literal h => exact starts_of_writes h (hr _ List.mem_cons_self)
  | cell _ _ | range _ _ _ =>
    exact Reference.starts_single fun hv => Reference.spelled_single.mp (hf hv)
  | name kind _ _ _ => exact starts_of_isIdentifier ((hr _ List.mem_cons_self).identifier kind)
  | bareCall kind _ _ | call kind _ _ _ _ =>
    rw [Expr.mapReferences, Expr.print, List.append_assoc]
    exact (starts_of_isIdentifier ((hr _ List.mem_cons_self).identifier kind)).append _
  | paren _ _ _ _ => exact ⟨'(', _, by rw [Expr.mapReferences, Expr.print]; rfl, by decide⟩
  | union _ _ _ _ _ _ _ => exact Reference.starts_union _ _
  | array _ _ _ => exact ⟨'\x7b', _, by rw [Expr.mapReferences, Expr.print]; rfl, by decide⟩
  | omitted | given _ _ | lastArgument _ _ _ | nextArgument _ _ _ _ _ | noPart
    | nextPart _ _ _ _ _ => simp at hp

theorem eq_missing_of_changed {e : Expr} (h : (e.changed f).reread = .missing) : e = .missing := by
  cases e with
  | missing => rfl
  | reference r =>
    cases hv : (r.map f).isValid with
    | true =>
      rw [changed_reference hv] at h
      cases h
    | false =>
      rw [Expr.changed, Expr.mapReferences, Expr.settled_invalid hv] at h
      cases h
  | _ => cases h

/-- Every phrase that is derived from words prints as the same phrase again, and so it does when
its references have changed to others that can be named. -/
theorem derives_printsAs (h : Derives p ts e) (hr : ∀ t ∈ ts, t.Reprints)
    (hf : e.EachReference (NamesLeft f))
    (hp : p = .parts → ∀ r, e = .reference r → (r.map f).isValid = true) :
    PrintsAs p (e.changed f) (e.changed f).reread := by
  induction h with
  | operand _ ih => exact prints_operandlike rfl rfl (ih hr hf nofun) .operand
  | alone _ ih => exact prints_operandlike rfl rfl (ih hr hf nofun) .alone
  | binary mem _ _ right ihl ihr =>
    have hright := fun t ht => hr t (List.mem_append_right _ (List.mem_cons_of_mem _ ht))
    exact prints_binary mem (ihl (fun t ht => hr t (List.mem_append_left _ ht)) hf.1 nofun)
      (ihr hright hf.2 nofun) (starts_changed right (by simp) hright hf.2)
  | unsigned _ ih => exact prints_operandlike rfl rfl (ih hr hf nofun) .unsigned
  | sign _ _ ih => exact prints_sign (ih (fun t ht => hr t (List.mem_cons_of_mem _ ht)) hf nofun)
  | literal h => exact prints_literal h (hr _ List.mem_cons_self)
  | cell _ _ | range _ _ _ =>
    exact prints_single fun hv => Reference.spelled_single.mp (hf hv)
  | name kind notLogical notCell free =>
    exact prints_name kind (hr _ List.mem_cons_self) notLogical notCell free
  | bareCall kind _ _ => exact prints_bareCall kind (hr _ List.mem_cons_self)
  | @call t start ts es kind _ some _ ih =>
    refine prints_call kind (hr _ List.mem_cons_self) (fun hes => some ?_)
      (ih (fun t ht => hr t (by simp [ht])) hf nofun)
    -- A lone argument left out prints like no arguments at all, and is never read.
    obtain _ | ⟨e, _ | _⟩ := es
    · cases hes
    · rw [eq_missing_of_changed (List.cons.inj hes).1]
    · exact absurd (List.cons.inj hes).2 (List.cons_ne_nil _ _)
  | paren _ _ _ ih => exact prints_paren (ih (fun t ht => hr t (by simp [ht])) hf nofun)
  | @union start close ts more r rs mark first rest some mark' ih ih' =>
    cases hv : ((Reference.union (r :: rs)).map f).isValid with
    | false =>
      rw [Expr.changed, Expr.mapReferences, Expr.settled_invalid hv]
      exact prints_invalid
    | true =>
      obtain ⟨⟨hvr, hfr⟩, hvrs, hfrs⟩ := NamesLeft.parts hf hv
      have hfirst := ih (fun t ht => hr t (by simp [ht])) hfr nofun
      have hparts := ih' (fun t ht => hr t (by simp [ht])) hfrs fun _ r hr => by
        cases hr
        exact hvrs
      rw [changed_reference hvr] at hfirst
      rw [changed_reference hvrs] at hparts
      rw [changed_reference hv]
      refine prints_union hv ?_ hfirst hparts
      cases rs with
      | nil => exact absurd rfl some
      | cons => exact List.cons_ne_nil _ _
  | array _ h even => exact prints_array h even fun t ht => hr t (List.mem_cons_of_mem _ ht)
  | omitted => exact .nil .omitted
  | given _ ih => exact prints_operandlike rfl rfl (ih hr hf nofun) .given
  | lastArgument _ _ ih =>
    exact prints_lastArgument (ih (fun t ht => hr t (List.mem_append_left _ ht)) hf.1 nofun)
  | @nextArgument _ _ _ _ es _ _ _ rest ih ih' =>
    refine prints_nextArgument ?_ (ih (fun t ht => hr t (List.mem_append_left _ ht)) hf.1 nofun)
      (ih' (fun t ht => hr t (by simp [ht])) hf.2 nofun)
    obtain ⟨e', es', rfl⟩ := List.exists_cons_of_ne_nil (arguments_ne_nil rest)
    exact List.cons_ne_nil _ _
  | noPart => exact .nil .noPart
  | nextPart _ _ _ ih ih' =>
    have hv := hp rfl _ rfl
    obtain ⟨⟨hvr, hfr⟩, hvrs, hfrs⟩ := NamesLeft.parts hf hv
    have hfirst := ih (fun t ht => hr t (by simp [ht])) hfr nofun
    have hparts := ih' (fun t ht => hr t (by simp [ht])) hfrs fun _ r hr => by
      cases hr
      exact hvrs
    rw [changed_reference hvr] at hfirst
    rw [changed_reference hvrs] at hparts
    rw [changed_reference hv]
    exact prints_nextPart hfirst hparts

/-! ## Printing what was read -/

theorem Literal.reread_beq {t : Token} {l : Literal} (h : t.Writes l) : (l.reread == l) = true := by
  cases h with
  | number _ _ finite => exact Number.reread_beq finite
  | text _ => exact beq_self_eq_true (Text.unquote t.text)
  | @error e _ _ => exact beq_self_eq_true e
  | @logical b _ _ => exact beq_self_eq_true b

theorem Literal.reread_beq_of_item {l : Literal} (h : Item ts l) : (l.reread == l) = true := by
  cases h with
  | plain h | plus _ h => exact Literal.reread_beq h
  | minus _ h =>
    obtain ⟨_, _, finite⟩ := h
    exact Number.reread_beq (Number.isFinite_neg finite)

theorem Literal.reread_beq_of_rows {rows : List (List Literal)} (h : Rows ts rows) :
    (rows.map (·.map Literal.reread) == rows) = true := by
  induction h with
  | last item _ => simp [reread_beq_of_item item]
  | next item _ _ ih =>
    simp only [List.map_cons, List.cons_beq_cons, Bool.and_eq_true] at ih ⊢
    exact ⟨⟨reread_beq_of_item item, ih.1⟩, ih.2⟩
  | newRow item _ _ ih => simp [reread_beq_of_item item, ih]

namespace Expr

theorem beq_sign (s : Sign) {a b : Expr} (h : (a == b) = true) : (sign s a == sign s b) = true := by
  change (s == s && beq a b) = true
  rw [beq_self_eq_true, Bool.true_and]
  exact h

theorem beq_binary (op : BinaryOp) {a b c d : Expr} (h : (a == b) = true) (h' : (c == d) = true) :
    (binary op a c == binary op b d) = true := by
  change (op == op && beq a b && beq c d) = true
  rw [beq_self_eq_true, Bool.true_and, Bool.and_eq_true]
  exact ⟨h, h'⟩

theorem beq_call (f : String) {as bs : List Expr} (h : beqAll as bs = true) :
    (call f as == call f bs) = true := by
  change (f == f && beqAll as bs) = true
  rw [beq_self_eq_true, Bool.true_and]
  exact h

theorem beqAll_of_call {f : String} {as bs : List Expr} (h : (call f as == call f bs) = true) :
    beqAll as bs = true := by
  change (f == f && beqAll as bs) = true at h
  rwa [beq_self_eq_true, Bool.true_and] at h

theorem beqAll_cons {a b : Expr} {as bs : List Expr} (h : (a == b) = true)
    (h' : beqAll as bs = true) : beqAll (a :: as) (b :: bs) = true := by
  rw [beqAll, Bool.and_eq_true]
  exact ⟨h, h'⟩

theorem beq_reference (r : Reference) : (reference r == reference r) = true :=
  beq_self_eq_true r

end Expr

/-- What a text says is read again as an equal tree. -/
theorem Expr.reread_beq (h : Derives p ts e) : (e.reread == e) = true := by
  induction h with
  | operand _ ih | alone _ ih | unsigned _ ih | given _ ih => exact ih
  | binary _ _ _ _ ihl ihr => exact beq_binary _ ihl ihr
  | sign _ _ ih => exact beq_sign _ ih
  | paren _ _ _ ih => exact ih
  | literal h => exact Literal.reread_beq h
  | cell _ _ | range _ _ _ | union _ _ _ _ _ _ _ | noPart | nextPart _ _ _ _ _ =>
    exact beq_reference _
  | @name t _ _ _ _ => exact beq_self_eq_true t.text
  | bareCall _ _ _ => exact beq_call _ rfl
  | call _ _ _ _ ih => exact ih
  | array _ h _ => exact Literal.reread_beq_of_rows h
  | omitted => rfl
  | lastArgument _ _ ih => exact beq_call _ (beqAll_cons ih rfl)
  | nextArgument _ _ _ ih ih' => exact beq_call _ (beqAll_cons ih (beqAll_of_call ih'))

theorem Expr.changed_id (h : Derives p ts e) : e.changed id = e := by
  have hmap : e.mapReferences (Reference.map id) = e := by
    rw [funext Reference.map_id]
    exact e.mapReferences_id
  rw [Expr.changed, hmap]
  exact settled_eq e (h.spelled.mono fun _ hr => hr.isValid)

/-- Every phrase that is derived from words prints as the same phrase again. -/
theorem derives_prints (h : Derives p ts e) (hr : ∀ t ∈ ts, t.Reprints) : Prints p e := by
  have hf : e.EachReference (NamesLeft id) := h.spelled.mono fun r hs _ => by
    rwa [Reference.map_id]
  have hp : p = .parts → ∀ r, e = .reference r → (r.map id).isValid = true := by
    intro _ r he
    rw [Reference.map_id]
    exact (he ▸ h).isValid
  have hprints := derives_printsAs h hr hf hp
  rw [Expr.changed_id h] at hprints
  exact hprints.mono fun us hus => ⟨_, hus, Expr.reread_beq h⟩

/-! ## Reading what was printed -/

theorem Token.IsWord.zero_le {t : Token} (h : t.IsWord) {x : Float} (hx : t.Writes (.number x)) :
    0 ≤ x := by
  cases hx with
  | number kind value finite =>
    refine Number.zero_le_of_read? ?_ value finite
    have hchars := h.numeral kind
    unfold Number.readSign
    split
    · next heq => exact absurd (hchars '-' (heq ▸ List.mem_cons_self)) (by decide)
    · rfl
    · rfl

namespace Parsed

/-- A text whose tokens derive a tree with some property is read as such a tree. -/
theorem ofText_text_of_lexes {e : Expr} {P : Expr → Prop}
    (h : Token.Lexes e.print fun ts => ∃ e', Derives .expression ts e' ∧ P e') :
    (ofText e.text).isValid = true ∧ P (ofText e.text).expr := by
  obtain ⟨ts, o, hlex, e', he', hP⟩ := h 0 [] .nil
  have htokens : Token.lex e.text = ts ++ [⟨.finish, "", o⟩] := by
    rw [Token.lex, Expr.text, String.toList_ofList]
    rwa [List.append_nil] at hlex
  obtain ⟨hvalid, hexpr⟩ := ofText_of_derives htokens rfl he'
  exact ⟨hvalid, hexpr ▸ hP⟩

theorem ofText_text_of_prints {e : Expr} (h : Prints .expression e) :
    (ofText e.text).isValid = true ∧ ((ofText e.text).expr == e) = true := ofText_text_of_lexes h

theorem ofText_text_of_printsAs {e e' : Expr} (h : PrintsAs .expression e e') :
    (ofText e.text).isValid = true ∧ (ofText e.text).expr = e' :=
  ofText_text_of_lexes (P := (· = e')) (h.mono fun _ hd => ⟨_, hd, rfl⟩)

/-- Printing undoes reading: a formula without faults prints as a formula without faults that is
read as an equal tree, and so prints alike. The numbers that the text writes are to read back
from their own text. -/
theorem reprint_reads_back {text : String} (valid : (ofText text).isValid = true)
    (numbers : ∀ t ∈ Token.lex text, ∀ x : Float, t.Writes (.number x) → 0 ≤ x →
      Number.ReadsBack x) :
    (ofText (ofText text).expr.text).isValid = true ∧
      ((ofText (ofText text).expr.text).expr == (ofText text).expr) = true ∧
      (ofText (ofText text).expr.text).expr.text = (ofText text).expr.text := by
  obtain ⟨ts, last, hlex, hwords, hd⟩ := derives_of_isValid valid
  have hreprints : ∀ t ∈ ts, t.Reprints := fun t ht =>
    ⟨(hwords t ht).identifier, fun x hx =>
      numbers t (hlex ▸ List.mem_append_left _ ht) x hx ((hwords t ht).zero_le hx)⟩
  obtain ⟨hvalid, heq⟩ := ofText_text_of_prints (derives_prints hd hreprints)
  refine ⟨hvalid, heq, ?_⟩
  exact congrArg String.ofList (Expr.print_of_beq heq)

theorem reprint_reads_back_of_mixed_formula :
    let text := " sum ( $b$2 : A1 ,, 2.50 ) & ( a1 , 3 : $2 ) <> \x7b -0 , \"a\"\"b\" \x7d "
    let printed := "sum(A1:$B$2,,2.5)&(A1,$2:3)<>\x7b0,\"a\"\"b\"\x7d"
    ((ofText text).isValid = true ∧ ∀ t ∈ Token.lex text, ∀ x : Float, t.Writes (.number x) →
      0 ≤ x → Number.ReadsBack x) ∧ (ofText text).expr.text = printed ∧
      (ofText printed).isValid = true ∧ ((ofText printed).expr == (ofText text).expr) = true ∧
      (ofText printed).expr.text = printed := by
  intro text printed
  have hvalid : (ofText text).isValid = true := by decide +kernel
  have hprinted : (ofText text).expr.text = printed := by decide +kernel
  have hread : ∀ t ∈ Token.lex text, t.kind = .number →
      ∀ x ∈ Number.read? t.text, Number.ReadsBack x := by decide +kernel
  have hnumbers : ∀ t ∈ Token.lex text, ∀ x : Float, t.Writes (.number x) → 0 ≤ x →
      Number.ReadsBack x := by
    rintro t ht x ⟨kind, value, -⟩ -
    exact hread t ht kind x value
  have hback := reprint_reads_back hvalid hnumbers
  rw [hprinted] at hback
  exact ⟨⟨hvalid, hnumbers⟩, hprinted, hback⟩

end Parsed

end Spreadsheet
