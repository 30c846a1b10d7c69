import Spreadsheet.Proofs.Formula.Grammar
import Spreadsheet.Proofs.Formula.Words
import Spreadsheet.Proofs.Grid.Naming

/-! What is read without a fault is derived. Each reader passes over tokens from which its result
is derived, unless a fault is noted on the way; so a text without faults has a derivation of its
tree from all its tokens. -/

namespace Spreadsheet

open Grammar

namespace Reader

/-! ## Running readers -/

section Running

variable {α β : Type}

theorem bind_run (m : Reader α) (f : α → Reader β) (c : Cursor) :
    (m >>= f) c = f (m c).1 (m c).2 := rfl

theorem pure_run (a : α) (c : Cursor) : (pure a : Reader α) c = (a, c) := rfl

theorem remaining_bind (f : Nat → Reader α) (c : Cursor) :
    (remaining >>= f) c = f c.tokens.length c := rfl

theorem report_run (t : Token) (fault : Fault) (c : Cursor) :
    report t fault c = ((), ⟨c.tokens, ⟨t.start, fault⟩ :: c.faults⟩) := rfl

theorem report_bind (t : Token) (fault : Fault) (f : Unit → Reader α) (c : Cursor) :
    (report t fault >>= f) c = f () (report t fault c).2 := rfl

theorem peek_bind (f : Token → Reader α) (t : Token) (ts : List Token) (fs : List Diagnostic) :
    (peek >>= f) ⟨t :: ts, fs⟩ = f t ⟨t :: ts, fs⟩ := rfl

theorem advance_bind {t : Token} (h : t.kind ≠ .finish) (f : Token → Reader α) (ts : List Token)
    (fs : List Diagnostic) : (advance >>= f) ⟨t :: ts, fs⟩ = f t ⟨ts, fs⟩ := by
  simp [bind_run, advance, h]

theorem discard_advance {t : Token} (h : t.kind ≠ .finish) (ts : List Token)
    (fs : List Diagnostic) : (discard advance) ⟨t :: ts, fs⟩ = ((), ⟨ts, fs⟩) := by
  have : (discard advance : Reader Unit) ⟨t :: ts, fs⟩ = ((), (advance ⟨t :: ts, fs⟩).2) := rfl
  rw [this]
  simp [advance, h]

theorem discard_bind {t : Token} (h : t.kind ≠ .finish) (f : Unit → Reader α)
    (ts : List Token) (fs : List Diagnostic) :
    (discard advance >>= f) ⟨t :: ts, fs⟩ = f () ⟨ts, fs⟩ := by
  rw [bind_run, discard_advance h]

end Running

/-- Reading went from `c` to what `r` left, over tokens that with its result satisfy `P` if no
fault is noted in the end. -/
structure Step {α : Type} (P : List Token → α → Prop) (c : Cursor) (r : α × Cursor) : Prop where
  closed : Token.Closed r.2.tokens
  read : ∃ ts, c.tokens = ts ++ r.2.tokens ∧ (r.2.faults = [] → c.faults = [] ∧ P ts r.1)

/-- Every run of the reader from at most `n` tokens goes over tokens that with its result
satisfy `P`. -/
def Sound {α : Type} (n : Nat) (m : Reader α) (P : List Token → α → Prop) : Prop :=
  ∀ c, Token.Closed c.tokens → c.tokens.length ≤ n → Step P c (m c)

namespace Step

variable {α β : Type} {P : List Token → α → Prop} {Q R : List Token → β → Prop} {c : Cursor}

theorem stay {a : α} (h : Token.Closed c.tokens) (hp : P [] a) : Step P c (a, c) :=
  ⟨h, [], rfl, fun hf => ⟨hf, hp⟩⟩

theorem mono {P' : List Token → α → Prop} {r : α × Cursor} (h : Step P c r)
    (hp : ∀ ts a, P ts a → P' ts a) : Step P' c r := by
  obtain ⟨hc, ts, e, hf⟩ := h
  exact ⟨hc, ts, e, fun hn => ⟨(hf hn).1, hp ts _ (hf hn).2⟩⟩

theorem trans {r : α × Cursor} {r' : β × Cursor} (h : Step P c r) (h' : Step Q r.2 r')
    (hr : ∀ ts us, P ts r.1 → Q us r'.1 → R (ts ++ us) r'.1) : Step R c r' := by
  obtain ⟨hc, ts, e, hp⟩ := h
  obtain ⟨hc', us, e', hq⟩ := h'
  refine ⟨hc', ts ++ us, by rw [e, e', List.append_assoc], fun hf => ?_⟩
  obtain ⟨hf', hus⟩ := hq hf
  obtain ⟨hf'', hts⟩ := hp hf'
  exact ⟨hf'', hr ts us hts hus⟩

theorem length_le {r : α × Cursor} (h : Step P c r) : r.2.tokens.length ≤ c.tokens.length := by
  obtain ⟨_, ts, e, _⟩ := h
  simp [e]

/-- A token is passed over before the rest of a step. -/
theorem after {t : Token} {ts : List Token} {fs : List Diagnostic} {r : α × Cursor}
    (h : Step (fun us => P (t :: us)) ⟨ts, fs⟩ r) : Step P ⟨t :: ts, fs⟩ r := by
  obtain ⟨hc, us, e, hf⟩ := h
  exact ⟨hc, t :: us, congrArg (t :: ·) e, hf⟩

/-- The same tokens with another result. -/
theorem result {r : α × Cursor} {b : β} (h : Step P c r) (hr : ∀ ts, P ts r.1 → R ts b) :
    Step R c (b, r.2) := by
  obtain ⟨hc, ts, e, hf⟩ := h
  exact ⟨hc, ts, e, fun hn => ⟨(hf hn).1, hr ts (hf hn).2⟩⟩

theorem known {r : α × Cursor} (h : Step P c r) :
    Step (fun ts a => P ts a ∧ c.tokens = ts ++ r.2.tokens) c r := by
  obtain ⟨hc, ts, e, hf⟩ := h
  exact ⟨hc, ts, e, fun hn => ⟨(hf hn).1, (hf hn).2, e⟩⟩

/-- A fault was noted. -/
theorem fault {a : α} {t : Token} {f : Fault} {ts : List Token} {fs : List Diagnostic}
    (h : Token.Closed ts) : Step P ⟨ts, fs⟩ (a, (report t f ⟨ts, fs⟩).2) :=
  ⟨h, [], rfl, nofun⟩

end Step

variable {n : Nat} {expression operand : Reader Expr}

theorem Step.bind {α β : Type} {P : List Token → α → Prop} {Q : α → List Token → β → Prop}
    {R : List Token → β → Prop} {c : Cursor} {m : Reader α} {f : α → Reader β} (h : Step P c (m c))
    (hf : ∀ a, Sound c.tokens.length (f a) (Q a))
    (hr : ∀ a ts us b, P ts a → Q a us b → R (ts ++ us) b) : Step R c ((m >>= f) c) :=
  h.trans (hf _ _ h.closed h.length_le) fun ts us => hr _ ts us _

theorem Sound.bounded {α : Type} {m : Reader α} {P : List Token → α → Prop} {k : Nat}
    (h : Sound n m P) (hk : k ≤ n) : Sound k m P := fun c hc hn => h c hc (by omega)

/-- Whatever is read after a fault was noted does not matter. -/
theorem Sound.of_report {α : Type} {m : Reader α} {P Q : List Token → α → Prop} (h : Sound n m P)
    (t : Token) (fault : Fault) : Sound n (do report t fault; m) Q := by
  intro c hc hn
  obtain ⟨hc', ts, e, hf⟩ := h ⟨c.tokens, ⟨t.start, fault⟩ :: c.faults⟩ hc hn
  exact ⟨hc', ts, e, fun hn => nomatch (hf hn).1⟩

/-- Reading at a token. -/
theorem Sound.of_cons {α : Type} {m : Reader α} {P : List Token → α → Prop}
    (h : ∀ t ts fs, Token.Closed (t :: ts) → ts.length + 1 ≤ n →
      Step P ⟨t :: ts, fs⟩ (m ⟨t :: ts, fs⟩)) :
    Sound n m P := by
  rintro ⟨_ | ⟨t, ts⟩, fs⟩ hc hn
  · cases hc
  · exact h t ts fs hc hn

/-! ## Operators -/

theorem operator?_eq_some {level : List BinaryOp} {t : Token} {op : BinaryOp}
    (h : operator? level t = some op) : op ∈ level ∧ t.isOperator op.symbol = true := by
  simp only [operator?, Option.ite_none_right_eq_some, Option.filter_eq_some_iff,
    BinaryOp.ofSymbol?] at h
  obtain ⟨hk, hs, hm⟩ := h
  have := List.find?_some hs
  simp only [Token.isOperator, Bool.and_eq_true, beq_iff_eq] at *
  exact ⟨by simpa using hm, hk, this.symm⟩

theorem sign?_eq_some {t : Token} {s : Sign} (h : sign? t = some s) :
    t.isOperator s.symbol.toString = true := by
  unfold sign? at h
  split at h
  · cases h; assumption
  · split at h
    · cases h; assumption
    · cases h

theorem chain_sound {level : List BinaryOp} {tighter : List (List BinaryOp)}
    (h : Sound n operand (Derives (.joined tighter))) (steps : Nat) (left : Expr) :
    Sound n (chain level operand steps left) fun ts e => ∀ ls,
      Derives (.joined (level :: tighter)) ls left →
        Derives (.joined (level :: tighter)) (ls ++ ts) e := by
  induction steps generalizing left with
  | zero =>
    intro c hc _
    exact .stay hc fun ls hl => by simpa using hl
  | succ steps ih =>
    refine .of_cons fun t ts fs hc hn => ?_
    simp only [chain, peek_bind]
    cases ho : operator? level t with
    | none => exact .stay hc fun ls hl => by simpa using hl
    | some op =>
      obtain ⟨mem, mark⟩ := operator?_eq_some ho
      have ht := Token.notFinish_of_isOperator mark
      have hr : Sound ts.length operand (Derives (.joined tighter)) := h.bounded (by omega)
      simp only [discard_bind ht]
      refine .after (.bind (hr _ (hc.tail ht).2 (Nat.le_refl _))
        (fun right => (ih (.binary op left right)).bounded (by grind)) ?_)
      intro right rs us e hr hu ls hl
      simpa using hu _ (.binary mem mark hl hr)

theorem climb_sound (h : Sound n operand (Derives .signed)) (levels : List (List BinaryOp)) :
    Sound n (climb operand levels) (Derives (.joined levels)) := by
  induction levels with
  | nil => exact fun c hc hn => (h c hc hn).mono fun ts e => .operand
  | cons level tighter ih =>
    intro c hc hn
    refine .bind (ih c hc hn) (Q := fun left ts e => ∀ ls,
      Derives (.joined (level :: tighter)) ls left →
        Derives (.joined (level :: tighter)) (ls ++ ts) e) (fun left c' hc' hn' => ?_) ?_
    · exact chain_sound ih _ left c' hc' (by omega)
    · exact fun left ts us e hl hu => hu ts (.alone hl)

theorem signed_sound (h : Sound n operand (Derives .primary)) (steps : Nat) :
    Sound n (signed operand steps) (Derives .signed) := by
  induction steps with
  | zero => exact fun c hc hn => (h c hc hn).mono fun ts e => .unsigned
  | succ steps ih =>
    refine .of_cons fun t ts fs hc hn => ?_
    simp only [signed, peek_bind]
    cases hs : sign? t with
    | none => exact (h ⟨t :: ts, fs⟩ hc hn).mono fun ts e => .unsigned
    | some s =>
      have mark := sign?_eq_some hs
      have ht := Token.notFinish_of_isOperator mark
      simp only [discard_bind ht, bind_run, pure_run]
      exact .after ((ih ⟨ts, fs⟩ (hc.tail ht).2 (by grind)).result fun us => .sign mark)

/-! ## Words -/

theorem numberValue_step {t : Token} (ht : t.IsWord) (kind : t.kind = .number) {c : Cursor}
    (hc : Token.Closed c.tokens) :
    Step (fun ts x => ts = [] ∧ t.Writes (.number x)) c (numberValue t c) := by
  obtain ⟨x, hx⟩ := ht.number kind
  simp only [numberValue, hx, Option.getD_some]
  by_cases hf : x.isFinite
  · simp only [hf, Bool.not_true, Bool.false_eq_true, if_false]
    exact .stay hc ⟨rfl, .number kind hx hf⟩
  · have hf' : x.isFinite = false := by simpa using hf
    simp only [hf', Bool.not_false, if_true]
    exact .fault hc

theorem rangeEnd_step {p : Place} {t : Token} {ts : List Token} {fs : List Diagnostic}
    (hc : Token.Closed (t :: ts)) (mark : t.isOperator ":" = true) :
    Step (fun us e => ∃ last q, us = [t, last] ∧ last.Ends p.kind q ∧
      e = .reference (.single (.between p q))) ⟨t :: ts, fs⟩ (rangeEnd p ⟨t :: ts, fs⟩) := by
  have ht := Token.notFinish_of_isOperator mark
  have hc' := (hc.tail ht).2
  obtain _ | ⟨last, rest⟩ := ts
  · cases hc'
  simp only [rangeEnd, discard_bind ht, peek_bind]
  cases hr : (if last.kind == .identifier || (p.kind == .row && last.kind == .number) then
      Place.read? p.kind last.text.toList else none) with
  | none => exact .after (.fault hc')
  | some q =>
    obtain ⟨hk, hq⟩ := Option.ite_none_right_eq_some.mp hr
    have hk' : last.kind = .identifier ∨ p.kind = .row ∧ last.kind = .number := by simpa using hk
    have hl : last.kind ≠ .finish := by grind
    simp only [discard_bind hl, pure_run]
    exact .after (.after (.stay (hc'.tail hl).2 ⟨last, q, rfl, ⟨hk', hq⟩, rfl⟩))

theorem rangeEnd_range {kind : Place.Kind} {p : Place} {first t : Token} {ts : List Token}
    {fs : List Diagnostic} (start : first.Ends kind p) (hc : Token.Closed (t :: ts))
    (mark : t.isOperator ":" = true) :
    Step (fun us => Derives .primary (first :: us)) ⟨t :: ts, fs⟩ (rangeEnd p ⟨t :: ts, fs⟩) := by
  refine (rangeEnd_step hc mark).mono fun us e => ?_
  rintro ⟨last, q, rfl, hq, rfl⟩
  rw [Place.kind_of_read? start.2] at hq
  exact .range start mark hq

theorem ends_of_readCell? {t : Token} {p : Place} (kind : t.kind = .identifier)
    (h : Place.readCell? t.text.toList = some p) : t.Ends .cell p := ⟨.inl kind, h⟩

theorem ends_of_readRow? {t : Token} {p : Place} (kind : t.kind = .number)
    (h : Place.readRow? t.text.toList = some p) : t.Ends .row p := ⟨.inr ⟨rfl, kind⟩, h⟩

theorem ends_of_lineStart? {t : Token} {p : Place} (kind : t.kind = .identifier)
    (h : lineStart? t.text = some p) : t.Ends p.kind p := by
  rw [lineStart?, Option.or_eq_some_iff] at h
  obtain h | ⟨-, h⟩ := h
  · have hread : Place.read? .column t.text.toList = some p := h
    exact ⟨.inl kind, (Place.kind_of_read? hread).symm ▸ hread⟩
  · have hread : Place.read? .row t.text.toList = some p := h
    exact ⟨.inl kind, (Place.kind_of_read? hread).symm ▸ hread⟩

/-! ## Calls -/

/-- An argument, if one is given. -/
def argument (expression : Reader Expr) : Reader Expr := do
  let t ← peek
  if t.isPunctuation "," || t.isPunctuation ")" then pure .missing else expression

/-- The arguments of a call from `e` on, which was just read. -/
def argumentsFrom (expression : Reader Expr) (function : String) (steps : Nat) (e : Expr) :
    Reader (List Expr) := do
  let t ← peek
  if t.isPunctuation "," then
    discard advance
    return e :: (← arguments expression function steps)
  else
    if t.isPunctuation ")" then discard advance else report t (.openCall function)
    return [e]

theorem arguments_succ (expression : Reader Expr) (f : String) (steps : Nat) :
    arguments expression f (steps + 1) =
      (do let e ← argument expression; argumentsFrom expression f steps e) := by
  funext c
  simp only [arguments, argument, argumentsFrom, bind_run]
  split <;> rfl

theorem argument_sound (h : Sound n expression (Derives .expression)) :
    Sound n (argument expression) (Derives .argument) := by
  refine .of_cons fun t ts fs hc hn => ?_
  simp only [argument, peek_bind]
  by_cases ho : t.isPunctuation "," || t.isPunctuation ")"
  · simp only [if_pos ho]
    exact .stay hc .omitted
  · simp only [if_neg ho]
    exact (h ⟨t :: ts, fs⟩ hc hn).mono fun _ _ => .given

theorem argumentsFrom_sound {f : String} {steps : Nat}
    (h : Sound steps (arguments expression f steps) fun ts es =>
      Derives (.arguments f) ts (.call f es)) (e : Expr) :
    Sound (steps + 1) (argumentsFrom expression f steps e) fun us es => ∀ ls,
      Derives .argument ls e → Derives (.arguments f) (ls ++ us) (.call f es) := by
  refine .of_cons fun t ts fs hc hn => ?_
  simp only [argumentsFrom, peek_bind]
  by_cases hcomma : t.isPunctuation ","
  · have ht := Token.notFinish_of_isPunctuation hcomma
    simp only [if_pos hcomma, discard_bind ht, bind_run, pure_run]
    refine .after ((h ⟨ts, fs⟩ (hc.tail ht).2 (by grind)).result fun more hm ls hl => ?_)
    exact .nextArgument hl hcomma hm
  · simp only [if_neg hcomma]
    by_cases hclose : t.isPunctuation ")"
    · have ht := Token.notFinish_of_isPunctuation hclose
      simp only [if_pos hclose, discard_bind ht, pure_run]
      exact .after (.stay (hc.tail ht).2 fun ls hl => .lastArgument hl hclose)
    · simp only [if_neg hclose]
      exact .fault hc

theorem arguments_sound (h : Sound n expression (Derives .expression)) (f : String) (steps : Nat)
    (hs : steps ≤ n) :
    Sound steps (arguments expression f steps) fun ts es =>
      Derives (.arguments f) ts (.call f es) := by
  induction steps with
  | zero =>
    rintro ⟨_ | ⟨t, ts⟩, fs⟩ hc hn
    · cases hc
    · cases hn
  | succ steps ih =>
    intro c hc hn
    rw [arguments_succ]
    refine .bind (argument_sound h c hc (by omega))
      (fun e => (argumentsFrom_sound (ih (by omega)) e).bounded hn) ?_
    exact fun e ls us es hl hu => hu ls hl

theorem ne_missing {p : Phrase} {ts : List Token} {e : Expr} (h : Derives p ts e)
    (hp : p ≠ .argument) : e ≠ .missing := by
  induction h <;> simp_all

theorem lone_missing {f : String} {ts : List Token}
    (h : Derives (.arguments f) ts (.call f [.missing])) :
    ∃ t, ts = [t] ∧ t.isPunctuation ")" = true := by
  cases h with
  | lastArgument ha mark =>
    cases ha with
    | omitted => exact ⟨_, rfl, mark⟩
    | given hg => exact absurd rfl (ne_missing hg nofun)
  | nextArgument _ _ rest => cases rest

theorem call_step (h : Sound n expression (Derives .expression)) {word t : Token} {ts : List Token}
    {fs : List Diagnostic} (kind : word.kind = .identifier) (hc : Token.Closed (t :: ts))
    (hn : ts.length ≤ n) (mark : t.isPunctuation "(" = true) :
    Step (fun us => Derives .primary (word :: us)) ⟨t :: ts, fs⟩
      (call expression word.text ⟨t :: ts, fs⟩) := by
  have ht := Token.notFinish_of_isPunctuation mark
  have hc' := (hc.tail ht).2
  obtain _ | ⟨u, us⟩ := ts
  · cases hc'
  simp only [call, discard_bind ht, peek_bind]
  by_cases hclose : u.isPunctuation ")"
  · have hu := Token.notFinish_of_isPunctuation hclose
    simp only [if_pos hclose, discard_bind hu, pure_run]
    exact .after (.after (.stay (hc'.tail hu).2 (.bareCall kind mark hclose)))
  · simp only [if_neg hclose, remaining_bind]
    simp only [bind_run, pure_run]
    have ha := arguments_sound h word.text (u :: us).length hn ⟨u :: us, fs⟩ hc' (Nat.le_refl _)
    refine .after (ha.known.result ?_)
    rintro more ⟨hm, hp⟩
    refine .call kind mark (fun he => ?_) hm
    rw [he] at hm
    obtain ⟨close, rfl, hclose'⟩ := lone_missing hm
    exact hclose ((List.cons.inj hp).1 ▸ hclose')

theorem word_step (h : Sound n expression (Derives .expression)) {t : Token} {ts : List Token}
    {fs : List Diagnostic} (hc : Token.Closed (t :: ts)) (hn : ts.length ≤ n)
    (kind : t.kind = .identifier) :
    Step (Derives .primary) ⟨t :: ts, fs⟩ (word expression ⟨t :: ts, fs⟩) := by
  have ht : t.kind ≠ .finish := by simp [kind]
  have hc' := (hc.tail ht).2
  obtain _ | ⟨u, us⟩ := ts
  · cases hc'
  simp only [word, advance_bind ht, peek_bind]
  by_cases hcall : u.isPunctuation "("
  · simp only [if_pos hcall]
    exact .after (call_step h kind hc' (by grind) hcall)
  · simp only [if_neg hcall]
    cases hb : logicalWord? t.text with
    | some b => exact .after (.stay hc' (.literal (.logical kind hb)))
    | none =>
      cases hcell : Place.readCell? t.text.toList with
      | some cell =>
        by_cases hcolon : u.isOperator ":"
        · simp only [if_pos hcolon]
          exact .after (rangeEnd_range (ends_of_readCell? kind hcell) hc' hcolon)
        · simp only [if_neg hcolon]
          exact .after (.stay hc' (.cell kind hcell))
      | none =>
        cases hline : (if u.isOperator ":" then lineStart? t.text else none) with
        | some line =>
          obtain ⟨hcolon, hl⟩ := Option.ite_none_right_eq_some.mp hline
          exact .after (rangeEnd_range (ends_of_lineStart? kind hl) hc' hcolon)
        | none =>
          by_cases hfree : t.text.toList.contains '$'
          · simp only [if_pos hfree]
            exact .after (.fault hc')
          · simp only [if_neg hfree, pure_run]
            exact .after (.stay hc' (.name kind hb hcell (by simpa using hfree)))

theorem unionParts_step (h : Sound n expression (Derives .expression)) {steps : Nat}
    (ih : Sound n (unionParts expression steps) fun ts rs =>
      Derives .parts ts (.reference (.union rs)))
    {t : Token} {ts : List Token} {fs : List Diagnostic} (hc : Token.Closed (t :: ts))
    (hn : ts.length ≤ n) (hcomma : t.isPunctuation "," = true) :
    Step (fun us rs => rs ≠ [] ∧ Derives .parts us (.reference (.union rs))) ⟨t :: ts, fs⟩
      (unionParts expression (steps + 1) ⟨t :: ts, fs⟩) := by
  have ht := Token.notFinish_of_isPunctuation hcomma
  have hc' := (hc.tail ht).2
  obtain _ | ⟨u, us⟩ := ts
  · cases hc'
  simp only [unionParts, peek_bind, if_pos hcomma, discard_bind ht]
  refine .after (.bind (h ⟨u :: us, fs⟩ hc' hn) (Q := fun e more rs => rs ≠ [] ∧ ∀ ls,
    Derives .expression ls e → Derives .parts (t :: (ls ++ more)) (.reference (.union rs)))
    (fun e c hc hn' => ?_) fun e ls more rs hl hm => ⟨hm.1, hm.2 ls hl⟩)
  have hrest : Sound c.tokens.length (unionParts expression steps) _ := ih.bounded (by grind)
  cases e with
  | reference r =>
    simp only [bind_run, pure_run]
    exact (hrest c hc (Nat.le_refl _)).result fun more hm =>
      ⟨List.cons_ne_nil _ _, fun ls hl => .nextPart hcomma hl hm⟩
  | _ => exact hrest.of_report u .unionOfNonReference c hc (Nat.le_refl _)

theorem unionParts_sound (h : Sound n expression (Derives .expression)) (steps : Nat) :
    Sound n (unionParts expression steps) fun ts rs =>
      Derives .parts ts (.reference (.union rs)) := by
  induction steps with
  | zero => exact fun c hc _ => .stay hc .noPart
  | succ steps ih =>
    refine .of_cons fun t ts fs hc hn => ?_
    by_cases hcomma : t.isPunctuation ","
    · exact (unionParts_step h ih hc (by omega) hcomma).mono fun _ _ => And.right
    · simp only [unionParts, peek_bind, if_neg hcomma]
      exact .stay hc .noPart

theorem expect_step {mark : String} {fault : Fault} {c : Cursor} (hc : Token.Closed c.tokens) :
    Step (fun ts _ => ∃ t, ts = [t] ∧ t.isPunctuation mark = true) c (expect mark fault c) := by
  obtain ⟨_ | ⟨t, ts⟩, fs⟩ := c
  · cases hc
  simp only [expect, peek_bind]
  by_cases hm : t.isPunctuation mark
  · have ht := Token.notFinish_of_isPunctuation hm
    simp only [if_pos hm, discard_advance ht]
    exact .after (.stay (hc.tail ht).2 ⟨t, rfl, hm⟩)
  · simp only [if_neg hm]
    exact .fault hc

theorem parenthesized_step (h : Sound n expression (Derives .expression)) {t : Token}
    {ts : List Token} {fs : List Diagnostic} (hc : Token.Closed (t :: ts)) (hn : ts.length ≤ n)
    (mark : t.isPunctuation "(" = true) :
    Step (Derives .primary) ⟨t :: ts, fs⟩ (parenthesized expression ⟨t :: ts, fs⟩) := by
  have ht := Token.notFinish_of_isPunctuation mark
  have hc' := (hc.tail ht).2
  obtain _ | ⟨u, us⟩ := ts
  · cases hc'
  simp only [parenthesized, advance_bind ht, peek_bind]
  by_cases hclose : u.isPunctuation ")"
  · have hu := Token.notFinish_of_isPunctuation hclose
    simp only [if_pos hclose, report_bind, report_run, discard_bind hu, pure_run]
    exact ⟨(hc'.tail hu).2, [t, u], rfl, nofun⟩
  · simp only [if_neg hclose]
    refine .after (.bind (h ⟨u :: us, fs⟩ hc' hn) (Q := fun e more r => ∀ ls,
      Derives .expression ls e → Derives .primary (t :: (ls ++ more)) r)
      (fun e => .of_cons fun v vs gs hc hn => ?_) fun e ls more r hl hm => hm ls hl)
    simp only [peek_bind]
    have paren : Step (fun more r => ∀ ls, Derives .expression ls e →
        Derives .primary (t :: (ls ++ more)) r) ⟨v :: vs, gs⟩
        ((do expect ")" .openParenthesis; return .paren e : Reader Expr) ⟨v :: vs, gs⟩) :=
      (expect_step (c := ⟨v :: vs, gs⟩) hc).result fun more ⟨close, hm, hclose⟩ ls hl =>
        hm ▸ .paren mark hl hclose
    cases hcomma : v.isPunctuation "," with
    | false => cases e <;> exact paren
    | true =>
      cases e with
      | reference r =>
        simp only [remaining_bind]
        refine .bind (unionParts_step h (unionParts_sound h vs.length) hc (by grind) hcomma)
          (Q := fun rs us r' => ∃ close, us = [close] ∧ close.isPunctuation ")" = true ∧
            r' = .reference (.union (r :: rs))) (fun rs c hc _ => ?_) ?_
        · exact (expect_step hc).result fun us ⟨close, he, hm⟩ => ⟨close, he, hm, rfl⟩
        · rintro rs more us r' ⟨hsome, hm⟩ ⟨close, rfl, hclose', rfl⟩ ls hl
          exact .union mark hl hm hsome hclose'
      | _ => exact paren

/-! ## Array constants -/

theorem signedItem_step {t : Token} {ts : List Token} {fs : List Diagnostic}
    (hc : Token.Closed (t :: ts)) (hs : (t.isOperator "-" || t.isOperator "+") = true) :
    Step (fun us l? => ∃ l, l? = some l ∧ Item us l) ⟨t :: ts, fs⟩ (arrayItem ⟨t :: ts, fs⟩) := by
  have ht : t.kind ≠ .finish := by
    obtain h | h := Bool.or_eq_true_iff.mp hs <;> exact Token.notFinish_of_isOperator h
  have hc' := (hc.tail ht).2
  obtain _ | ⟨u, us⟩ := ts
  · cases hc'
  simp only [arrayItem, peek_bind, if_pos hs, discard_bind ht]
  by_cases hk : u.kind = .number
  · have hu : u.kind ≠ .finish := by simp [hk]
    simp only [hk, BEq.rfl, if_true, discard_bind hu]
    have hx := numberValue_step (hc'.tail hu).1 hk (c := ⟨us, fs⟩) (hc'.tail hu).2
    simp only [bind_run, pure_run]
    refine .after (.after (hx.result fun more ⟨hm, hw⟩ => ⟨_, rfl, ?_⟩))
    subst hm
    by_cases hminus : t.isOperator "-" = true
    · simp only [hminus, if_true]
      exact .minus hminus hw
    · have hplus : t.isOperator "+" = true := by simpa [hminus] using hs
      simp only [hminus]
      exact .plus hplus hw
  · have hk' : (u.kind == .number) = false := by simpa using hk
    simp only [hk']
    exact .after (.fault hc')

theorem arrayItem_sound : Sound n arrayItem fun ts l? => ∃ l, l? = some l ∧ Item ts l := by
  refine .of_cons fun t ts fs hc hn => ?_
  by_cases hs : (t.isOperator "-" || t.isOperator "+") = true
  · exact signedItem_step hc hs
  · simp only [arrayItem, peek_bind, if_neg hs]
    cases hk : t.kind with
    | number =>
      have ht : t.kind ≠ .finish := by simp [hk]
      simp only [discard_bind ht]
      have hx := numberValue_step (hc.tail ht).1 hk (c := ⟨ts, fs⟩) (hc.tail ht).2
      exact .after (hx.result fun more ⟨hm, hw⟩ => ⟨_, rfl, hm ▸ .plain hw⟩)
    | string =>
      have ht : t.kind ≠ .finish := by simp [hk]
      simp only [discard_bind ht]
      exact .after (.stay (hc.tail ht).2 ⟨_, rfl, .plain (.text hk)⟩)
    | error =>
      have ht : t.kind ≠ .finish := by simp [hk]
      obtain ⟨e, he⟩ := (hc.tail ht).1.error hk
      simp only [discard_bind ht, he]
      exact .after (.stay (hc.tail ht).2 ⟨_, rfl, .plain (.error hk he)⟩)
    | identifier =>
      have ht : t.kind ≠ .finish := by simp [hk]
      cases hb : logicalWord? t.text with
      | some b =>
        simp only [discard_bind ht]
        exact .after (.stay (hc.tail ht).2 ⟨_, rfl, .plain (.logical hk hb)⟩)
      | none =>
        simp only [report_bind, report_run, discard_bind ht]
        exact ⟨(hc.tail ht).2, [t], rfl, nofun⟩
    | punctuation | finish => exact .fault hc
    | operator | bad =>
      have ht : t.kind ≠ .finish := by simp [hk]
      simp only [report_bind, report_run, discard_bind ht]
      exact ⟨(hc.tail ht).2, [t], rfl, nofun⟩

theorem arrayRows_sound (steps : Nat) (row : List Literal) :
    Sound steps (arrayRows row steps) fun ts rows =>
      ∃ first rest, rows = (row.reverse ++ first) :: rest ∧ Rows ts (first :: rest) := by
  induction steps generalizing row with
  | zero =>
    rintro ⟨_ | ⟨t, ts⟩, fs⟩ hc hn
    · cases hc
    · cases hn
  | succ steps ih =>
    intro c hc hn
    simp only [arrayRows]
    refine .bind (arrayItem_sound c hc hn) (Q := fun l? us rows => ∀ ts l, l? = some l → Item ts l →
      ∃ first rest, rows = (row.reverse ++ first) :: rest ∧ Rows (ts ++ us) (first :: rest))
      (fun l? => .of_cons fun t ts fs hc hn' => ?_) ?_
    · simp only [peek_bind]
      by_cases hcomma : t.isPunctuation ","
      · have ht := Token.notFinish_of_isPunctuation hcomma
        simp only [if_pos hcomma, discard_bind ht]
        refine .after ((ih _ ⟨ts, fs⟩ (hc.tail ht).2 (by grind)).mono ?_)
        rintro us rows ⟨first, rest, rfl, hr⟩ ls l rfl hl
        exact ⟨l :: first, rest, by simp, .next hl hcomma hr⟩
      · simp only [if_neg hcomma]
        by_cases hsemi : t.isPunctuation ";"
        · have ht := Token.notFinish_of_isPunctuation hsemi
          simp only [if_pos hsemi, discard_bind ht, bind_run, pure_run]
          refine .after ((ih _ ⟨ts, fs⟩ (hc.tail ht).2 (by grind)).result ?_)
          rintro us ⟨first, rest, hrows, hr⟩ ls l rfl hl
          exact ⟨[l], first :: rest, by simp [hrows], .newRow hl hsemi hr⟩
        · simp only [if_neg hsemi]
          by_cases hclose : t.isPunctuation "\x7d"
          · have ht := Token.notFinish_of_isPunctuation hclose
            simp only [if_pos hclose, discard_bind ht, pure_run]
            refine .after (.stay (hc.tail ht).2 ?_)
            rintro ls l rfl hl
            exact ⟨[l], [], by simp, .last hl hclose⟩
          · simp only [if_neg hclose]
            exact .fault hc
    · rintro l? ts us rows ⟨l, hl, hi⟩ hu
      exact hu ts l hl hi

theorem array_step {t : Token} {ts : List Token} {fs : List Diagnostic}
    (hc : Token.Closed (t :: ts)) (mark : t.isPunctuation "\x7b" = true) :
    Step (Derives .primary) ⟨t :: ts, fs⟩ (array ⟨t :: ts, fs⟩) := by
  have ht := Token.notFinish_of_isPunctuation mark
  have hc' := (hc.tail ht).2
  obtain _ | ⟨u, us⟩ := ts
  · cases hc'
  simp only [array, advance_bind ht, peek_bind]
  by_cases hclose : u.isPunctuation "\x7d"
  · have hu := Token.notFinish_of_isPunctuation hclose
    simp only [if_pos hclose, report_bind, report_run, discard_bind hu, pure_run]
    exact ⟨(hc'.tail hu).2, [t, u], rfl, nofun⟩
  · simp only [if_neg hclose, remaining_bind]
    refine .after (.bind (arrayRows_sound (u :: us).length [] ⟨u :: us, fs⟩ hc' (Nat.le_refl _))
      (Q := fun rows us e => us = [] ∧ e = .array rows ∧ isRectangular rows = true)
      (fun rows c hc _ => ?_) ?_)
    · cases he : isRectangular rows with
      | true => exact .stay hc ⟨rfl, rfl, rfl⟩
      | false => exact .fault hc
    · rintro _ ls us e ⟨first, rest, rfl, hr⟩ ⟨rfl, rfl, he⟩
      simpa using .array mark hr he

/-! ## Expressions and formulas -/

theorem primary_sound (h : Sound n expression (Derives .expression)) :
    Sound (n + 1) (primary expression) (Derives .primary) := by
  refine .of_cons fun t ts fs hc hn => ?_
  simp only [primary, peek_bind]
  cases hk : t.kind with
  | number =>
    have ht : t.kind ≠ .finish := by simp [hk]
    have hc' := (hc.tail ht).2
    obtain _ | ⟨u, us⟩ := ts
    · cases hc'
    simp only [discard_bind ht, peek_bind]
    cases hline : (if u.isOperator ":" then Place.readRow? t.text.toList else none) with
    | some row =>
      obtain ⟨hcolon, hr⟩ := Option.ite_none_right_eq_some.mp hline
      exact .after (rangeEnd_range (ends_of_readRow? hk hr) hc' hcolon)
    | none =>
      have hx := numberValue_step (hc.tail ht).1 hk (c := ⟨u :: us, fs⟩) hc'
      exact .after (hx.result fun more ⟨hm, hw⟩ => hm ▸ .literal hw)
  | string =>
    have ht : t.kind ≠ .finish := by simp [hk]
    simp only [discard_bind ht]
    exact .after (.stay (hc.tail ht).2 (.literal (.text hk)))
  | error =>
    have ht : t.kind ≠ .finish := by simp [hk]
    obtain ⟨e, he⟩ := (hc.tail ht).1.error hk
    simp only [discard_bind ht, he]
    exact .after (.stay (hc.tail ht).2 (.literal (.error hk he)))
  | identifier => exact word_step h hc (by omega) hk
  | finish => exact .fault hc
  | bad fault =>
    exact absurd hk ((hc.tail (by simp [hk])).1.notBad fault)
  | operator | punctuation =>
    have ht : t.kind ≠ .finish := by simp [hk]
    by_cases hopen : t.isPunctuation "("
    · simp only [if_pos hopen]
      exact parenthesized_step h hc (by omega) hopen
    · simp only [if_neg hopen]
      by_cases hbrace : t.isPunctuation "\x7b"
      · simp only [if_pos hbrace]
        exact array_step hc hbrace
      · simp only [if_neg hbrace, report_bind, report_run, discard_bind ht, pure_run]
        exact ⟨(hc.tail ht).2, [t], rfl, nofun⟩

theorem expression_sound (depth : Nat) :
    Sound depth (Reader.expression depth) (Derives .expression) := by
  induction depth with
  | zero =>
    rintro ⟨_ | ⟨t, ts⟩, fs⟩ hc hn
    · cases hc
    · cases hn
  | succ depth ih =>
    refine climb_sound (fun c hc hn => ?_) BinaryOp.levels
    exact signed_sound (primary_sound ih) c.tokens.length c hc hn

/-- The end of a formula: nothing but the end is left. -/
theorem atEnd_step {e : Expr} {c : Cursor} (hc : Token.Closed c.tokens) :
    Step (fun ts e' => ts = [] ∧ e' = e ∧ c.tokens.length = 1) c
      ((do
        let last ← peek
        if last.kind != .finish then report last (.unexpected last.text)
        return e : Reader Expr) c) := by
  obtain ⟨_ | ⟨t, ts⟩, fs⟩ := c
  · cases hc
  simp only [peek_bind]
  by_cases hk : t.kind = .finish
  · simp only [hk, bne_self_eq_false, Bool.false_eq_true, if_false]
    cases hc with
    | finish _ => exact .stay (.finish hk) ⟨rfl, rfl, rfl⟩
    | word hw _ => exact absurd hk hw.notFinish
  · have hk' : (t.kind != .finish) = true := by simpa using hk
    simp only [hk', if_true]
    exact .fault hc

/-- A formula read without a fault is an expression up to the end of the tokens. -/
theorem formula_step {c : Cursor} (hc : Token.Closed c.tokens) :
    Step (fun ts e => Derives .expression ts e ∧ ts.length + 1 = c.tokens.length) c
      (formula c) := by
  obtain ⟨_ | ⟨t, ts⟩, fs⟩ := c
  · cases hc
  simp only [formula, peek_bind]
  by_cases hk : t.kind = .finish
  · simp only [hk, BEq.rfl, if_true]
    have hend : Sound (ts.length + 1) _ fun _ _ => True := fun c hc _ =>
      (atEnd_step (e := .missing) hc).mono fun _ _ _ => trivial
    exact hend.of_report t .emptyFormula ⟨t :: ts, fs⟩ hc (Nat.le_refl _)
  · have hk' : (t.kind == .finish) = false := by simpa using hk
    have h := (expression_sound (t :: ts).length ⟨t :: ts, fs⟩ hc (Nat.le_refl _)).known
    simp only [hk', Bool.false_eq_true, if_false, remaining_bind]
    rw [bind_run]
    generalize Reader.expression (t :: ts).length ⟨t :: ts, fs⟩ = r at h ⊢
    refine h.trans (atEnd_step h.closed) ?_
    rintro words us ⟨hd, hw⟩ ⟨rfl, he, hlast⟩
    have hlength := congrArg List.length hw
    rw [List.length_append, hlast] at hlength
    rw [List.append_nil, he]
    exact ⟨hd, hlength.symm⟩

end Reader

theorem Diagnostic.insert_ne_nil (d : Diagnostic) (ds : List Diagnostic) : d.insert ds ≠ [] := by
  cases ds with
  | nil => exact List.cons_ne_nil _ _
  | cons e rest =>
    rw [insert]
    split <;> exact List.cons_ne_nil _ _

theorem Diagnostic.sort_eq_nil_iff (ds : List Diagnostic) : sort ds = [] ↔ ds = [] := by
  cases ds with
  | nil => exact Iff.rfl
  | cons d ds => simp [sort, insert_ne_nil]

namespace Parsed

theorem isValid_iff (text : String) :
    (ofText text).isValid = true ↔ (∀ t ∈ Token.lex text, t.diagnostic? = none) ∧
      (Reader.formula ⟨Token.lex text, []⟩).2.faults = [] := by
  rw [isValid, List.isEmpty_iff]
  change Diagnostic.sort (_ ++ List.reverse _) = [] ↔ _
  rw [Diagnostic.sort_eq_nil_iff, List.append_eq_nil_iff, List.filterMap_eq_nil_iff,
    List.reverse_eq_nil_iff]
  rfl

theorem expr_ofText (text : String) :
    (ofText text).expr = (Reader.formula ⟨Token.lex text, []⟩).1 := rfl

/-- A text without faults derives its tree. -/
theorem derives_of_isValid {text : String} (h : (ofText text).isValid = true) :
    ∃ ts last, Token.lex text = ts ++ [last] ∧ (∀ t ∈ ts, t.IsWord) ∧
      Derives .expression ts (ofText text).expr := by
  obtain ⟨hlex, hfaults⟩ := (isValid_iff text).mp h
  have hc : Token.Closed (Token.lex text) := Token.lexFrom_closed _ _ _ hlex
  obtain ⟨-, ts, htokens, hread⟩ := Reader.formula_step (c := ⟨Token.lex text, []⟩) hc
  obtain ⟨-, hd, hlength⟩ := hread hfaults
  rw [htokens, List.length_append] at hlength
  obtain ⟨last, hlast⟩ := List.length_eq_one_iff.mp (Nat.add_left_cancel hlength).symm
  rw [hlast] at htokens
  simp only at htokens
  refine ⟨ts, last, htokens, ?_, hd⟩
  rw [htokens] at hc
  exact hc.words.1

end Parsed

end Spreadsheet
