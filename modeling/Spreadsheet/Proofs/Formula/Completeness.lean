import Mathlib
import Spreadsheet.Proofs.Formula.Soundness

/-! Every derivation is read: from the tokens of a phrase the reader of its kind makes the
phrase's tree and stops where the phrase ends. So the tokens of a formula have one tree. -/

namespace Spreadsheet

open Grammar

namespace Reader

/-- The token that is read next, the end when none is left. -/
def next (ts : List Token) : Token := ts.headD ⟨.finish, "", 0⟩

theorem peek_next {α : Type} (f : Token → Reader α) (ts : List Token) (fs : List Diagnostic) :
    (peek >>= f) ⟨ts, fs⟩ = f (next ts) ⟨ts, fs⟩ := rfl

theorem bind_eq {α β : Type} {m : Reader α} {f : α → Reader β} {a : α} {c c' : Cursor}
    (h : m c = (a, c')) : (m >>= f) c = f a c' := by rw [bind_run, h]

/-- What may come after operands joined by operators of `levels`: nothing that a word or an
operand before it would go on with. -/
structure Follows (levels : List (List BinaryOp)) (t : Token) : Prop where
  notCall : t.isPunctuation "(" = false
  notRange : t.isOperator ":" = false
  notOperator : ∀ level ∈ levels, operator? level t = none

variable {e : Expr} {t : Token} {ts rest : List Token} {fs : List Diagnostic}

/-! ## Words -/

theorem eq_of_isOperator {s s' : String} (h : t.isOperator s = true) (hs : s ≠ s') :
    t.isOperator s' = false := by
  simp only [Token.isOperator, Bool.and_eq_true, beq_iff_eq] at h
  simp [Token.isOperator, h.1, h.2, hs]

theorem eq_of_isPunctuation {s s' : String} (h : t.isPunctuation s = true) (hs : s ≠ s') :
    t.isPunctuation s' = false := by
  simp only [Token.isPunctuation, Bool.and_eq_true, beq_iff_eq] at h
  simp [Token.isPunctuation, h.1, h.2, hs]

theorem isPunctuation_of_kind {s : String} (h : t.kind ≠ .punctuation) :
    t.isPunctuation s = false := by
  simp [Token.isPunctuation, h]

theorem isOperator_of_kind {s : String} (h : t.kind ≠ .operator) :
    t.isOperator s = false := by
  simp [Token.isOperator, h]

/-- The truth values are too long for columns and have no digits for rows. -/
theorem logicalWord?_of_read? {s : String} {kind : Place.Kind} {p : Place}
    (h : Place.read? kind s.toList = some p) : logicalWord? s = none := by
  have hword (w : String) (halpha : (w.toList.map Char.toUpper).all Char.isAlpha = true)
      (hlength : 3 < w.toList.length) : Text.sameIgnoringCase s w = false := by
    rw [Text.sameIgnoringCase, beq_eq_false_iff_ne]
    intro hw
    have hlong : 3 < s.toList.length := by
      have hlengths := congrArg List.length hw
      simp only [List.length_map] at hlengths
      omega
    have hletters : ∀ d ∈ s.toList, d.isAlpha = true := fun d hd => by
      rw [← Char.isAlpha_toUpper_eq_isAlpha]
      exact List.all_eq_true.mp halpha _ (hw ▸ List.mem_map_of_mem hd)
    rw [Place.read?_eq_none_of_letters hletters hlong kind] at h
    cases h
  rw [logicalWord?, hword "true" (by decide) (by decide), hword "false" (by decide) (by decide)]
  rfl

theorem rangeEnd_read {p q : Place} {colon last : Token} (mark : colon.isOperator ":" = true)
    (finish : last.Ends p.kind q) :
    rangeEnd p ⟨colon :: last :: rest, fs⟩ = (.reference (.single (.between p q)), ⟨rest, fs⟩) := by
  have hcolon := Token.notFinish_of_isOperator mark
  have hlast : last.kind ≠ .finish := by
    obtain h | ⟨-, h⟩ := finish.1 <;> simp [h]
  have hreadable :
      (last.kind == .identifier || (p.kind == .row && last.kind == .number)) = true := by
    simpa using finish.1
  simp only [rangeEnd, discard_bind hcolon, peek_bind, hreadable, if_true, finish.2,
    discard_bind hlast]
  rfl

variable {expression : Reader Expr}

theorem word_logical {b : Bool} (kind : t.kind = .identifier) (h : logicalWord? t.text = some b)
    (hr : Follows [] (next rest)) :
    word expression ⟨t :: rest, fs⟩ = (.literal (.logical b), ⟨rest, fs⟩) := by
  have ht : t.kind ≠ .finish := by simp [kind]
  simp only [word, advance_bind ht, peek_next, hr.notCall, Bool.false_eq_true, if_false, h]
  rfl

theorem word_cell {p : Place} (kind : t.kind = .identifier)
    (h : Place.readCell? t.text.toList = some p) (hr : Follows [] (next rest)) :
    word expression ⟨t :: rest, fs⟩ = (.reference (.ofPlace p), ⟨rest, fs⟩) := by
  have ht : t.kind ≠ .finish := by simp [kind]
  have hread : Place.read? .cell t.text.toList = some p := h
  simp only [word, advance_bind ht, peek_next, hr.notCall, hr.notRange, Bool.false_eq_true,
    if_false, logicalWord?_of_read? hread, h]
  rfl

theorem word_name (kind : t.kind = .identifier) (notLogical : logicalWord? t.text = none)
    (notCell : Place.readCell? t.text.toList = none) (free : '$' ∉ t.text.toList)
    (hr : Follows [] (next rest)) :
    word expression ⟨t :: rest, fs⟩ = (.name t.text, ⟨rest, fs⟩) := by
  have ht : t.kind ≠ .finish := by simp [kind]
  have hfree : t.text.toList.contains '$' = false := by simpa using free
  simp only [word, advance_bind ht, peek_next, hr.notCall, hr.notRange, Bool.false_eq_true,
    if_false, notLogical, notCell, hfree]
  rfl

theorem lineStart?_of_read? {kind : Place.Kind} {s : String} {p : Place}
    (h : Place.read? kind s.toList = some p) (hk : kind ≠ .cell) :
    lineStart? s = some p := by
  cases kind with
  | cell => exact absurd rfl hk
  | column =>
    have hcolumn : Place.readColumn? s.toList = some p := h
    rw [lineStart?, hcolumn]
    rfl
  | row =>
    have hrow : Place.readRow? s.toList = some p := h
    have hcolumn : Place.readColumn? s.toList = none :=
      Place.read?_eq_none h (by decide : Place.Kind.row ≠ .column)
    rw [lineStart?, hrow, hcolumn]
    rfl

theorem word_range {kind : Place.Kind} {p q : Place} {colon last : Token}
    (hk : t.kind = .identifier) (start : t.Ends kind p) (mark : colon.isOperator ":" = true)
    (finish : last.Ends kind q) :
    word expression ⟨t :: colon :: last :: rest, fs⟩ =
      (.reference (.single (.between p q)), ⟨rest, fs⟩) := by
  have ht : t.kind ≠ .finish := by simp [hk]
  have hcall : colon.isPunctuation "(" = false :=
    isPunctuation_of_kind (by simp [Token.kind_of_isOperator mark])
  have hend : last.Ends p.kind q := by rwa [Place.kind_of_read? start.2]
  simp only [word, advance_bind ht, peek_bind, hcall, Bool.false_eq_true, if_false,
    logicalWord?_of_read? start.2, mark, if_true]
  by_cases hkind : kind = .cell
  · subst hkind
    have hcell : Place.readCell? t.text.toList = some p := start.2
    simp only [hcell]
    exact rangeEnd_read mark hend
  · have hcell : Place.readCell? t.text.toList = none := Place.read?_eq_none start.2 hkind
    simp only [hcell, lineStart?_of_read? start.2 hkind]
    exact rangeEnd_read mark hend

/-! ## Array constants -/

theorem kind_of_writes {l : Literal} (h : t.Writes l) :
    t.kind ≠ .finish ∧ t.kind ≠ .operator ∧ t.kind ≠ .punctuation := by
  cases h <;> simp_all

theorem numberValue_read {x : Float} {c : Cursor} (h : t.Writes (.number x)) :
    numberValue t c = (x, c) := by
  cases h with
  | number _ value finite =>
    simp only [numberValue, value, Option.getD_some, finite, Bool.not_true, Bool.false_eq_true,
      if_false]
    rfl

theorem arrayItem_read {l : Literal} (h : Item ts l) :
    arrayItem ⟨ts ++ rest, fs⟩ = (some l, ⟨rest, fs⟩) := by
  cases h with
  | @plain t l h =>
    obtain ⟨hfinish, hoperator, -⟩ := kind_of_writes h
    have hsign : (t.isOperator "-" || t.isOperator "+") = false := by
      rw [isOperator_of_kind hoperator, isOperator_of_kind hoperator]
      rfl
    simp only [List.cons_append, List.nil_append, arrayItem, peek_bind, hsign, Bool.false_eq_true,
      if_false]
    cases h with
    | number kind value finite =>
      simp only [kind, discard_bind hfinish, bind_run, pure_run,
        numberValue_read (.number kind value finite)]
    | text kind => simp only [kind, discard_bind hfinish, pure_run]
    | error kind value => simp only [kind, discard_bind hfinish, pure_run, value, Option.map_some]
    | logical kind value => simp only [kind, value, discard_bind hfinish, pure_run]
  | @plus s t x mark h =>
    have hs := Token.notFinish_of_isOperator mark
    have hminus : s.isOperator "-" = false := eq_of_isOperator mark (by decide)
    have ht := (kind_of_writes h).1
    have hkind : t.kind = .number := by cases h; assumption
    simp only [List.cons_append, List.nil_append, arrayItem, peek_bind, hminus, mark,
      Bool.false_or, if_true, discard_bind hs, hkind, BEq.rfl, discard_bind ht,
      Bool.false_eq_true, if_false]
    rw [bind_eq (numberValue_read h), pure_run]
  | @minus s t x mark h =>
    have hs := Token.notFinish_of_isOperator mark
    have ht := (kind_of_writes h).1
    have hkind : t.kind = .number := by cases h; assumption
    simp only [List.cons_append, List.nil_append, arrayItem, peek_bind, mark, Bool.true_or,
      if_true, discard_bind hs, hkind, BEq.rfl, discard_bind ht]
    rw [bind_eq (numberValue_read h), pure_run]

theorem item_opens {l : Literal} (h : Item ts l) :
    ∃ t more, ts = t :: more ∧ t.kind ≠ .punctuation := by
  cases h with
  | plain h => exact ⟨_, [], rfl, (kind_of_writes h).2.2⟩
  | plus mark _ | minus mark _ => exact ⟨_, _, rfl, by simp [Token.kind_of_isOperator mark]⟩

/-- A bound on some tokens leaves room for one of them beside those before it or after it. -/
theorem exists_room {more : List Token} {n : Nat} (h : (ts ++ t :: more).length ≤ n) :
    ∃ m, n = m + 1 ∧ ts.length ≤ m ∧ more.length ≤ m := by
  rw [List.length_append, List.length_cons] at h
  exact ⟨n - 1, by omega, by omega, by omega⟩

theorem arrayRows_read {rows : List (List Literal)} (h : Rows ts rows) (row : List Literal)
    {n : Nat} (hn : ts.length ≤ n) (rest : List Token) (fs : List Diagnostic) :
    ∃ first others, rows = first :: others ∧
      arrayRows row n ⟨ts ++ rest, fs⟩ = ((row.reverse ++ first) :: others, ⟨rest, fs⟩) := by
  induction h generalizing row n with
  | @last ts l close item mark =>
    obtain ⟨n, rfl, -⟩ := exists_room hn
    have hclose := Token.notFinish_of_isPunctuation mark
    have hcomma : close.isPunctuation "," = false := eq_of_isPunctuation mark (by decide)
    have hsemi : close.isPunctuation ";" = false := eq_of_isPunctuation mark (by decide)
    refine ⟨[l], [], rfl, ?_⟩
    rw [List.append_assoc, arrayRows, bind_eq (arrayItem_read item)]
    simp only [List.cons_append, List.nil_append, peek_bind, hcomma, hsemi, mark,
      Bool.false_eq_true, if_false, if_true, discard_bind hclose, pure_run, Option.toList_some,
      List.reverse_cons]
  | @next ts more l comma row' rows item mark _ ih =>
    obtain ⟨n, rfl, -, hmore⟩ := exists_room hn
    have hcomma := Token.notFinish_of_isPunctuation mark
    obtain ⟨first, others, he, hread⟩ := ih (l :: row) hmore
    cases he
    refine ⟨l :: row', rows, rfl, ?_⟩
    rw [List.append_assoc, arrayRows, bind_eq (arrayItem_read item)]
    simp only [List.cons_append, List.nil_append, peek_bind, mark, if_true, discard_bind hcomma,
      Option.toList_some, hread, List.reverse_cons, List.append_assoc]
  | @newRow ts more l semicolon rows item mark _ ih =>
    obtain ⟨n, rfl, -, hmore⟩ := exists_room hn
    have hsemi := Token.notFinish_of_isPunctuation mark
    have hcomma : semicolon.isPunctuation "," = false := eq_of_isPunctuation mark (by decide)
    obtain ⟨first, others, rfl, hread⟩ := ih [] hmore
    refine ⟨[l], first :: others, rfl, ?_⟩
    rw [List.append_assoc, arrayRows, bind_eq (arrayItem_read item)]
    simp only [List.cons_append, List.nil_append, peek_bind, hcomma, mark, Bool.false_eq_true,
      if_false, if_true, discard_bind hsemi, Option.toList_some, List.reverse_cons]
    rw [bind_eq hread]
    rfl

theorem rows_opens {rows : List (List Literal)} (h : Rows ts rows) :
    ∃ t more, ts = t :: more ∧ t.kind ≠ .punctuation := by
  cases h with
  | last item _ | next item _ _ | newRow item _ _ =>
    obtain ⟨t, more, rfl, ht⟩ := item_opens item
    exact ⟨t, _, rfl, ht⟩

theorem array_read {start : Token} {rows : List (List Literal)}
    (mark : start.isPunctuation "\x7b" = true) (h : Rows ts rows)
    (even : isRectangular rows = true) :
    array ⟨start :: (ts ++ rest), fs⟩ = (.array rows, ⟨rest, fs⟩) := by
  have hstart := Token.notFinish_of_isPunctuation mark
  obtain ⟨first, others, rfl, hread⟩ :=
    arrayRows_read h [] (by simp : ts.length ≤ (ts ++ rest).length) rest fs
  obtain ⟨t, more, rfl, ht⟩ := rows_opens h
  have hclose : t.isPunctuation "\x7d" = false := isPunctuation_of_kind ht
  simp only [List.cons_append] at hread
  simp only [List.cons_append, array, advance_bind hstart, peek_bind, hclose, Bool.false_eq_true,
    if_false, remaining_bind]
  rw [bind_eq hread, List.reverse_nil, List.nil_append]
  simp only [even, Bool.not_true, Bool.false_eq_true, if_false, pure_run]

/-! ## Operands -/

/-- The token starts an operand: it is neither the end nor a mark between arguments. -/
structure Opens (t : Token) : Prop where
  notFinish : t.kind ≠ .finish
  notComma : t.isPunctuation "," = false
  notClose : t.isPunctuation ")" = false

theorem Opens.of_kind (hf : t.kind ≠ .finish) (hp : t.kind ≠ .punctuation) : Opens t :=
  ⟨hf, isPunctuation_of_kind hp, isPunctuation_of_kind hp⟩

theorem Opens.of_mark {s : String} (h : t.isPunctuation s = true) (hcomma : s ≠ ",")
    (hclose : s ≠ ")") : Opens t :=
  ⟨Token.notFinish_of_isPunctuation h, eq_of_isPunctuation h hcomma,
    eq_of_isPunctuation h hclose⟩

theorem derives_opens {p : Phrase} (h : Derives p ts e)
    (hp : p ≠ .argument ∧ (∀ f, p ≠ .arguments f) ∧ p ≠ .parts) :
    ∃ t more, ts = t :: more ∧ Opens t := by
  induction h with
  | operand _ ih | alone _ ih | unsigned _ ih => exact ih (by simp)
  | binary _ _ _ _ ih _ =>
    obtain ⟨t, more, rfl, ht⟩ := ih (by simp)
    exact ⟨t, _, rfl, ht⟩
  | sign mark _ _ =>
    have hk := Token.kind_of_isOperator mark
    exact ⟨_, _, rfl, .of_kind (by simp [hk]) (by simp [hk])⟩
  | literal h => exact ⟨_, _, rfl, .of_kind (kind_of_writes h).1 (kind_of_writes h).2.2⟩
  | cell kind _ | name kind _ _ _ | bareCall kind _ _ | call kind _ _ _ _ =>
    exact ⟨_, _, rfl, .of_kind (by simp [kind]) (by simp [kind])⟩
  | range start _ _ =>
    refine ⟨_, _, rfl, .of_kind ?_ ?_⟩ <;> obtain h | ⟨-, h⟩ := start.1 <;> simp [h]
  | paren mark _ _ _ | union mark _ _ _ _ _ _ | array mark _ _ =>
    exact ⟨_, _, rfl, .of_mark mark (by decide) (by decide)⟩
  | omitted | given _ _ | lastArgument _ _ _ | nextArgument _ _ _ _ _ | noPart
    | nextPart _ _ _ _ _ => simp at hp

/-- An operand at nesting depth `depth`, with its signs. -/
def operand (depth : Nat) : Reader Expr := do
  signed (primary (Reader.expression depth)) (← remaining)

/-- No operator belongs to two levels. -/
def Separate (levels : List (List BinaryOp)) : Prop :=
  levels.Pairwise fun level level' => ∀ op ∈ level, op ∉ level'

theorem operator?_of_mem {level : List BinaryOp} {op : BinaryOp} (mem : op ∈ level)
    (mark : t.isOperator op.symbol = true) : operator? level t = some op := by
  simp only [Token.isOperator, Bool.and_eq_true, beq_iff_eq] at mark
  simp [operator?, mark.1, mark.2, BinaryOp.ofSymbol?_symbol, mem]

theorem operator?_of_not_mem {level : List BinaryOp} {op : BinaryOp} (mem : op ∉ level)
    (mark : t.isOperator op.symbol = true) : operator? level t = none := by
  simp only [Token.isOperator, Bool.and_eq_true, beq_iff_eq] at mark
  simp [operator?, mark.1, mark.2, BinaryOp.ofSymbol?_symbol, mem]

/-- An operator of one level may come after operands that only tighter ones join. -/
theorem follows_of_operator {level : List BinaryOp} {tighter : List (List BinaryOp)}
    {op : BinaryOp} (mem : op ∈ level) (hs : Separate (level :: tighter))
    (mark : t.isOperator op.symbol = true) : Follows tighter t := by
  have hk := Token.kind_of_isOperator mark
  refine ⟨isPunctuation_of_kind (by simp [hk]), eq_of_isOperator mark (by cases op <;> decide),
    fun level' h => operator?_of_not_mem ?_ mark⟩
  exact (List.pairwise_cons.mp hs).1 level' h op mem

theorem Follows.tighter {level : List BinaryOp} {tighter : List (List BinaryOp)}
    (h : Follows (level :: tighter) t) : Follows tighter t :=
  ⟨h.notCall, h.notRange, fun l hl => h.notOperator l (List.mem_cons_of_mem _ hl)⟩

/-- What the readers make of a phrase at any depth that its length allows. Operands joined by a
level of operators are read in a loop, which an operator of the level would keep going. -/
def Reads : Phrase → List Token → Expr → Prop
  | .joined [], ts, e => ∀ (d : Nat) (rest : List Token) (fs : List Diagnostic), ts.length ≤ d →
      Follows [] (next rest) → operand d ⟨ts ++ rest, fs⟩ = (e, ⟨rest, fs⟩)
  | .joined (level :: tighter), ts, e => Separate (level :: tighter) →
      ∀ (d : Nat) (rest : List Token) (fs : List Diagnostic), ts.length ≤ d →
      Follows tighter (next rest) → ∃ left more k, k ≤ more.length ∧
        climb (operand d) tighter ⟨ts ++ rest, fs⟩ = (left, ⟨more ++ rest, fs⟩) ∧
        ∀ n, chain level (climb (operand d) tighter) (k + n) left ⟨more ++ rest, fs⟩ =
          chain level (climb (operand d) tighter) n e ⟨rest, fs⟩
  | .signed, ts, e => ∀ (d n : Nat) (rest : List Token) (fs : List Diagnostic), ts.length ≤ d →
      ts.length ≤ n → Follows [] (next rest) →
      signed (primary (Reader.expression d)) n ⟨ts ++ rest, fs⟩ = (e, ⟨rest, fs⟩)
  | .primary, ts, e => ∀ (d : Nat) (rest : List Token) (fs : List Diagnostic), ts.length ≤ d + 1 →
      Follows [] (next rest) →
      primary (Reader.expression d) ⟨ts ++ rest, fs⟩ = (e, ⟨rest, fs⟩)
  | .argument, ts, e => ∀ (d : Nat) (rest : List Token) (fs : List Diagnostic), ts.length < d →
      (next rest).isPunctuation "," = true ∨ (next rest).isPunctuation ")" = true →
      argument (Reader.expression d) ⟨ts ++ rest, fs⟩ = (e, ⟨rest, fs⟩)
  | .arguments f, ts, e => ∀ (d n : Nat) (rest : List Token) (fs : List Diagnostic),
      ts.length ≤ d → ts.length ≤ n → ∃ es, e = .call f es ∧
        arguments (Reader.expression d) f n ⟨ts ++ rest, fs⟩ = (es, ⟨rest, fs⟩)
  | .parts, ts, e => ∀ (d n : Nat) (rest : List Token) (fs : List Diagnostic),
      ts.length ≤ d → ts.length ≤ n → (next rest).isPunctuation ")" = true →
      ∃ rs, e = .reference (.union rs) ∧
        unionParts (Reader.expression d) n ⟨ts ++ rest, fs⟩ = (rs, ⟨rest, fs⟩)

theorem climb_read {levels : List (List BinaryOp)} (h : Reads (.joined levels) ts e)
    (hs : Separate levels) {d : Nat} (hd : ts.length ≤ d) {rest : List Token}
    (hr : Follows levels (next rest)) (fs : List Diagnostic) :
    climb (operand d) levels ⟨ts ++ rest, fs⟩ = (e, ⟨rest, fs⟩) := by
  cases levels with
  | nil => exact h d rest fs hd hr
  | cons level tighter =>
    obtain ⟨left, more, k, hk, hleft, hchain⟩ := h hs d rest fs hd hr.tighter
    obtain ⟨n, hn⟩ : ∃ n, (more ++ rest).length = k + n :=
      ⟨(more ++ rest).length - k, by rw [List.length_append]; omega⟩
    -- The loop may take a step for each token, which is enough, and then stops at what follows.
    have hstop : operator? level (next rest) = none := hr.notOperator level List.mem_cons_self
    rw [climb, bind_eq hleft]
    simp only [remaining_bind, hn, hchain]
    cases n with
    | zero => rfl
    | succ n =>
      simp only [chain, peek_next, hstop]
      rfl

theorem separate_levels : Separate BinaryOp.levels := by
  unfold Separate
  decide

theorem expression_read (h : Reads .expression ts e) {d : Nat} (hd : ts.length < d)
    {rest : List Token} (hr : Follows BinaryOp.levels (next rest)) (fs : List Diagnostic) :
    Reader.expression d ⟨ts ++ rest, fs⟩ = (e, ⟨rest, fs⟩) := by
  obtain ⟨d, rfl⟩ := Nat.exists_eq_add_one_of_ne_zero (by omega : d ≠ 0)
  exact climb_read h separate_levels (by omega) hr fs

theorem follows_of_mark {s : String} (h : t.isPunctuation s = true) (hs : s ≠ "(") :
    Follows BinaryOp.levels t := by
  have hk : t.kind ≠ .operator := by simp [Token.kind_of_isPunctuation h]
  refine ⟨eq_of_isPunctuation h hs, isOperator_of_kind hk, fun level _ => ?_⟩
  simp [operator?, hk]

theorem reads_binary {level : List BinaryOp} {tighter : List (List BinaryOp)} {op : BinaryOp}
    {ls rs : List Token} {l r : Expr} (mem : op ∈ level) (mark : t.isOperator op.symbol = true)
    (left : Reads (.joined (level :: tighter)) ls l) (right : Reads (.joined tighter) rs r) :
    Reads (.joined (level :: tighter)) (ls ++ t :: rs) (.binary op l r) := by
  intro hs d rest fs hd hr
  -- What stands left of the operator leaves the loop of its level running: one more step reads the
  -- operator and what stands right of it.
  have hd' : ls.length + (rs.length + 1) ≤ d := by simpa using hd
  have hmark : Follows tighter (next (t :: rs ++ rest)) := follows_of_operator mem hs mark
  obtain ⟨first, more, k, hk, hfirst, hchain⟩ := left hs d _ fs (by omega) hmark
  refine ⟨first, more ++ t :: rs, k + 1, by simp; omega, ?_, fun n => ?_⟩
  · rw [List.append_assoc, hfirst, List.append_assoc]
  · have ht := Token.notFinish_of_isOperator mark
    rw [List.append_assoc, Nat.add_right_comm, Nat.add_assoc, hchain]
    simp only [chain, List.cons_append, peek_bind, operator?_of_mem mem mark, discard_bind ht]
    rw [bind_eq (climb_read right (List.pairwise_cons.mp hs).2 (by omega) hr fs)]

theorem primary_not_operator (h : Derives .primary ts e) :
    ∃ t more, ts = t :: more ∧ t.kind ≠ .operator := by
  cases h with
  | literal h => exact ⟨_, _, rfl, (kind_of_writes h).2.1⟩
  | cell kind _ | name kind _ _ _ | bareCall kind _ _ | call kind _ _ _ =>
    exact ⟨_, _, rfl, by simp [kind]⟩
  | range start _ _ => exact ⟨_, _, rfl, by obtain h | ⟨-, h⟩ := start.1 <;> simp [h]⟩
  | paren mark _ _ | union mark _ _ _ _ | array mark _ _ =>
    exact ⟨_, _, rfl, by simp [Token.kind_of_isPunctuation mark]⟩

theorem sign?_of_mark {s : Sign} (mark : t.isOperator s.symbol.toString = true) :
    sign? t = some s := by
  cases s with
  | minus =>
    have hm : t.isOperator "-" = true := mark
    simp [sign?, hm]
  | plus =>
    have hm : t.isOperator "+" = true := mark
    simp [sign?, hm, eq_of_isOperator hm (by decide : "+" ≠ "-")]

theorem sign?_of_kind (h : t.kind ≠ .operator) : sign? t = none := by
  simp [sign?, isOperator_of_kind h]

theorem reads_unsigned (h : Derives .primary ts e) (ih : Reads .primary ts e) :
    Reads .signed ts e := by
  intro d n rest fs hd hn hr
  obtain ⟨t, more, rfl, ht⟩ := primary_not_operator h
  have hread := ih d rest fs (by omega) hr
  cases n with
  | zero => exact hread
  | succ n =>
    simp only [signed, List.cons_append, peek_bind, sign?_of_kind ht]
    exact hread

theorem reads_sign {s : Sign} (mark : t.isOperator s.symbol.toString = true)
    (ih : Reads .signed ts e) : Reads .signed (t :: ts) (.sign s e) := by
  intro d n rest fs hd hn hr
  rw [List.length_cons] at hd hn
  obtain ⟨n, rfl⟩ := Nat.exists_eq_add_one_of_ne_zero (by omega : n ≠ 0)
  have ht := Token.notFinish_of_isOperator mark
  simp only [signed, List.cons_append, peek_bind, sign?_of_mark mark, discard_bind ht]
  rw [bind_eq (ih d n rest fs (by omega) (by omega) hr), pure_run]

theorem reads_literal {l : Literal} (h : t.Writes l) : Reads .primary [t] (.literal l) := by
  intro d rest fs _ hr
  have ht := (kind_of_writes h).1
  simp only [primary, List.cons_append, List.nil_append, peek_bind]
  cases h with
  | number kind value finite =>
    simp only [kind, discard_bind ht, peek_next, hr.notRange, Bool.false_eq_true, if_false]
    rw [bind_eq (numberValue_read (.number kind value finite)), pure_run]
  | text kind => simp only [kind, discard_bind ht, pure_run]
  | error kind value => simp only [kind, discard_bind ht, value, Option.getD_some, pure_run]
  | logical kind value =>
    simp only [kind]
    exact word_logical kind value hr

theorem reads_word (kind : t.kind = .identifier)
    (h : ∀ {d : Nat} {rest : List Token} (fs : List Diagnostic), Follows [] (next rest) →
      word (Reader.expression d) ⟨t :: rest, fs⟩ = (e, ⟨rest, fs⟩)) :
    Reads .primary [t] e := by
  intro d rest fs _ hr
  simp only [primary, List.cons_append, List.nil_append, peek_bind, kind]
  exact h fs hr

theorem reads_range {first colon last : Token} {kind : Place.Kind} {p q : Place}
    (start : first.Ends kind p) (mark : colon.isOperator ":" = true) (finish : last.Ends kind q) :
    Reads .primary [first, colon, last] (.reference (.single (.between p q))) := by
  intro d rest fs _ _
  simp only [primary, List.cons_append, List.nil_append, peek_bind]
  obtain hk | ⟨rfl, hk⟩ := start.1
  · simp only [hk]
    exact word_range hk start mark finish
  · have hfirst : first.kind ≠ .finish := by simp [hk]
    have hrow : Place.readRow? first.text.toList = some p := start.2
    have hend : last.Ends p.kind q := by rwa [Place.kind_of_read? start.2]
    simp only [hk, discard_bind hfirst, peek_bind, mark, if_true, hrow]
    exact rangeEnd_read mark hend

theorem word_call {start : Token} {d : Nat} (kind : t.kind = .identifier)
    (mark : start.isPunctuation "(" = true) :
    primary (Reader.expression d) ⟨t :: start :: rest, fs⟩ =
      call (Reader.expression d) t.text ⟨start :: rest, fs⟩ := by
  have ht : t.kind ≠ .finish := by simp [kind]
  simp only [primary, peek_bind, kind, word, advance_bind ht, mark, if_true]

theorem reads_bareCall {start close : Token} (kind : t.kind = .identifier)
    (mark : start.isPunctuation "(" = true) (mark' : close.isPunctuation ")" = true) :
    Reads .primary [t, start, close] (.call t.text []) := by
  intro d rest fs _ _
  have hstart := Token.notFinish_of_isPunctuation mark
  have hclose := Token.notFinish_of_isPunctuation mark'
  simp only [List.cons_append, List.nil_append, word_call kind mark, call, discard_bind hstart,
    peek_bind, mark', if_true, discard_bind hclose, pure_run]

theorem arguments_open {f : String} {es : List Expr} (h : Derives (.arguments f) ts (.call f es))
    (some : es ≠ [.missing]) : ∃ u us, ts = u :: us ∧ u.isPunctuation ")" = false := by
  cases h with
  | lastArgument h mark =>
    cases h with
    | omitted => exact absurd rfl some
    | given h =>
      obtain ⟨u, us, rfl, hu⟩ := derives_opens h (by simp)
      exact ⟨u, _, rfl, hu.notClose⟩
  | nextArgument h mark rest =>
    cases h with
    | omitted => exact ⟨_, _, rfl, eq_of_isPunctuation mark (by decide)⟩
    | given h =>
      obtain ⟨u, us, rfl, hu⟩ := derives_opens h (by simp)
      exact ⟨u, _, rfl, hu.notClose⟩

theorem reads_call {start : Token} {es : List Expr} (kind : t.kind = .identifier)
    (mark : start.isPunctuation "(" = true) (some : es ≠ [.missing])
    (h : Derives (.arguments t.text) ts (.call t.text es))
    (ih : Reads (.arguments t.text) ts (.call t.text es)) :
    Reads .primary (t :: start :: ts) (.call t.text es) := by
  intro d rest fs hd _
  have hstart := Token.notFinish_of_isPunctuation mark
  have hlength : ts.length ≤ d := by
    rw [List.length_cons, List.length_cons] at hd
    omega
  obtain ⟨es', he, hread⟩ := ih d (ts ++ rest).length rest fs hlength (by simp)
  obtain ⟨u, us, rfl, hu⟩ := arguments_open h some
  cases he
  simp only [List.cons_append] at hread ⊢
  simp only [word_call kind mark, call, discard_bind hstart, peek_bind, hu, Bool.false_eq_true,
    if_false, remaining_bind]
  rw [bind_eq hread, pure_run]

theorem expect_read {mark : String} {fault : Fault} (h : t.isPunctuation mark = true) :
    expect mark fault ⟨t :: rest, fs⟩ = ((), ⟨rest, fs⟩) := by
  have ht := Token.notFinish_of_isPunctuation h
  simp only [expect, peek_bind, h, if_true, discard_advance ht]

theorem primary_parenthesized {d : Nat} (mark : t.isPunctuation "(" = true) :
    primary (Reader.expression d) ⟨t :: rest, fs⟩ =
      parenthesized (Reader.expression d) ⟨t :: rest, fs⟩ := by
  simp only [primary, peek_bind, Token.kind_of_isPunctuation mark, mark, if_true]

theorem reads_paren {start close : Token} (mark : start.isPunctuation "(" = true)
    (h : Derives .expression ts e) (ih : Reads .expression ts e)
    (mark' : close.isPunctuation ")" = true) :
    Reads .primary (start :: (ts ++ [close])) (.paren e) := by
  intro d rest fs hd _
  have hstart := Token.notFinish_of_isPunctuation mark
  have hlength : ts.length < d := by
    rw [List.length_cons, List.length_append, List.length_singleton] at hd
    omega
  obtain ⟨u, us, rfl, hu⟩ := derives_opens h (by simp)
  have hcomma : close.isPunctuation "," = false := eq_of_isPunctuation mark' (by decide)
  have hfollows : Follows BinaryOp.levels (next (close :: rest)) :=
    follows_of_mark mark' (by decide)
  have hread := expression_read ih hlength hfollows fs
  simp only [List.cons_append, List.append_assoc, List.nil_append] at hread ⊢
  simp only [primary_parenthesized mark, parenthesized, advance_bind hstart, peek_bind,
    hu.notClose, Bool.false_eq_true, if_false]
  rw [bind_eq hread]
  simp only [peek_bind, hcomma]
  have hclose : ((do expect ")" .openParenthesis; return .paren e : Reader Expr)
      ⟨close :: rest, fs⟩) = (.paren e, ⟨rest, fs⟩) := by
    rw [bind_eq (expect_read mark'), pure_run]
  cases e <;> exact hclose

theorem parts_open {rs : List Reference} (h : Derives .parts ts (.reference (.union rs)))
    (some : rs ≠ []) : ∃ u us, ts = u :: us ∧ u.isPunctuation "," = true := by
  cases h with
  | noPart => exact absurd rfl some
  | nextPart mark _ _ => exact ⟨_, _, rfl, mark⟩

theorem reads_union {start close : Token} {more : List Token} {r : Reference}
    {rs : List Reference} (mark : start.isPunctuation "(" = true)
    (h : Derives .expression ts (.reference r)) (ih : Reads .expression ts (.reference r))
    (h' : Derives .parts more (.reference (.union rs)))
    (ih' : Reads .parts more (.reference (.union rs))) (some : rs ≠ [])
    (mark' : close.isPunctuation ")" = true) :
    Reads .primary (start :: (ts ++ (more ++ [close]))) (.reference (.union (r :: rs))) := by
  intro d rest fs hd _
  have hstart := Token.notFinish_of_isPunctuation mark
  have hlength : ts.length < d ∧ more.length ≤ d := by
    rw [List.length_cons, List.length_append, List.length_append, List.length_singleton] at hd
    omega
  obtain ⟨u, us, rfl, hu⟩ := derives_opens h (by simp)
  obtain ⟨comma, vs, rfl, hcomma⟩ := parts_open h' some
  have hfollows : Follows BinaryOp.levels (next (comma :: vs ++ close :: rest)) :=
    follows_of_mark hcomma (by decide)
  have hread := expression_read ih hlength.1 hfollows fs
  obtain ⟨rs', he, hparts⟩ := ih' d (comma :: vs ++ close :: rest).length (close :: rest) fs
    hlength.2 (by simp) mark'
  cases he
  simp only [List.cons_append, List.append_assoc, List.nil_append] at hread hparts ⊢
  simp only [primary_parenthesized mark, parenthesized, advance_bind hstart, peek_bind,
    hu.notClose, Bool.false_eq_true, if_false]
  rw [bind_eq hread]
  simp only [peek_bind, hcomma, remaining_bind]
  rw [bind_eq hparts, bind_eq (expect_read mark'), pure_run]

theorem reads_array {start : Token} {rows : List (List Literal)}
    (mark : start.isPunctuation "\x7b" = true) (h : Rows ts rows)
    (even : isRectangular rows = true) : Reads .primary (start :: ts) (.array rows) := by
  intro d rest fs _ _
  have hcall : start.isPunctuation "(" = false := eq_of_isPunctuation mark (by decide)
  simp only [primary, List.cons_append, peek_bind, Token.kind_of_isPunctuation mark, hcall, mark,
    Bool.false_eq_true, if_false, if_true]
  exact array_read mark h even

theorem reads_omitted : Reads .argument [] .missing := by
  intro d rest fs _ hr
  have hmark : ((next rest).isPunctuation "," || (next rest).isPunctuation ")") = true :=
    Bool.or_eq_true_iff.mpr hr
  simp only [argument, List.nil_append, peek_next, hmark, if_true]
  rfl

theorem reads_given (h : Derives .expression ts e) (ih : Reads .expression ts e) :
    Reads .argument ts e := by
  intro d rest fs hd hr
  obtain ⟨u, us, rfl, hu⟩ := derives_opens h (by simp)
  have hfollows : Follows BinaryOp.levels (next rest) := by
    obtain hr | hr := hr <;> exact follows_of_mark hr (by decide)
  have hread := expression_read ih hd hfollows fs
  simp only [List.cons_append] at hread ⊢
  simp only [argument, peek_bind, hu.notComma, hu.notClose, Bool.or_false, Bool.false_eq_true,
    if_false]
  exact hread

theorem reads_lastArgument {f : String} {close : Token} (ih : Reads .argument ts e)
    (mark : close.isPunctuation ")" = true) :
    Reads (.arguments f) (ts ++ [close]) (.call f [e]) := by
  intro d n rest fs hd hn
  obtain ⟨n, rfl, -⟩ := exists_room hn
  obtain ⟨d, rfl, hlength, -⟩ := exists_room hd
  have hclose := Token.notFinish_of_isPunctuation mark
  have hcomma : close.isPunctuation "," = false := eq_of_isPunctuation mark (by decide)
  have hread := ih (d + 1) (close :: rest) fs (Nat.lt_succ_of_le hlength) (.inr mark)
  refine ⟨[e], rfl, ?_⟩
  rw [arguments_succ, List.append_assoc, List.singleton_append, bind_eq hread]
  simp only [argumentsFrom, peek_bind, hcomma, mark, Bool.false_eq_true, if_false, if_true,
    discard_bind hclose, pure_run]

theorem reads_nextArgument {f : String} {comma : Token} {more : List Token} {es : List Expr}
    (ih : Reads .argument ts e) (mark : comma.isPunctuation "," = true)
    (ih' : Reads (.arguments f) more (.call f es)) :
    Reads (.arguments f) (ts ++ comma :: more) (.call f (e :: es)) := by
  intro d n rest fs hd hn
  obtain ⟨n, rfl, -, hn'⟩ := exists_room hn
  obtain ⟨d, rfl, hlength, hd'⟩ := exists_room hd
  have hcomma := Token.notFinish_of_isPunctuation mark
  have hread := ih (d + 1) (comma :: (more ++ rest)) fs (Nat.lt_succ_of_le hlength) (.inl mark)
  obtain ⟨es', he, hmore⟩ := ih' (d + 1) n rest fs (Nat.le_succ_of_le hd') hn'
  cases he
  refine ⟨e :: es, rfl, ?_⟩
  rw [arguments_succ, List.append_assoc, List.cons_append, bind_eq hread]
  simp only [argumentsFrom, peek_bind, mark, if_true, discard_bind hcomma]
  rw [bind_eq hmore, pure_run]

theorem reads_noPart : Reads .parts [] (.reference (.union [])) := by
  intro d n rest fs _ _ hr
  refine ⟨[], rfl, ?_⟩
  have hcomma : (next rest).isPunctuation "," = false := eq_of_isPunctuation hr (by decide)
  cases n with
  | zero => rfl
  | succ n =>
    simp only [unionParts, List.nil_append, peek_next, hcomma, Bool.false_eq_true, if_false]
    rfl

theorem reads_nextPart {comma : Token} {more : List Token} {r : Reference} {rs : List Reference}
    (mark : comma.isPunctuation "," = true) (ih : Reads .expression ts (.reference r))
    (h' : Derives .parts more (.reference (.union rs)))
    (ih' : Reads .parts more (.reference (.union rs))) :
    Reads .parts (comma :: (ts ++ more)) (.reference (.union (r :: rs))) := by
  intro d n rest fs hd hn hr
  rw [List.length_cons, List.length_append] at hd hn
  obtain ⟨n, rfl⟩ := Nat.exists_eq_add_one_of_ne_zero (by omega : n ≠ 0)
  have hcomma := Token.notFinish_of_isPunctuation mark
  have hfollows : Follows BinaryOp.levels (next (more ++ rest)) := by
    by_cases hrs : rs = []
    · subst hrs
      cases h'
      exact follows_of_mark hr (by decide)
    · obtain ⟨u, us, rfl, hu⟩ := parts_open h' hrs
      exact follows_of_mark hu (by decide)
  have hread := expression_read ih (by omega : ts.length < d) hfollows fs
  obtain ⟨rs', he, hparts⟩ := ih' d n rest fs (by omega) (by omega) hr
  cases he
  refine ⟨r :: rs, rfl, ?_⟩
  simp only [unionParts, List.cons_append, List.append_assoc, peek_bind, mark, if_true,
    discard_bind hcomma]
  rw [peek_next, bind_eq hread]
  simp only
  rw [bind_eq hparts, pure_run]

/-- A phrase is read as its tree. -/
theorem derives_reads {p : Phrase} (h : Derives p ts e) : Reads p ts e := by
  induction h with
  | operand _ ih =>
    intro d rest fs hd hr
    exact ih d _ rest fs hd (by simp) hr
  | alone _ ih =>
    intro hs d rest fs hd hr
    exact ⟨_, [], 0, Nat.zero_le _, climb_read ih (List.pairwise_cons.mp hs).2 hd hr fs, by simp⟩
  | binary mem mark _ _ left right => exact reads_binary mem mark left right
  | unsigned h ih => exact reads_unsigned h ih
  | sign mark _ ih => exact reads_sign mark ih
  | literal h => exact reads_literal h
  | cell kind h => exact reads_word kind fun fs hr => word_cell kind h hr
  | range start mark finish => exact reads_range start mark finish
  | name kind notLogical notCell free =>
    exact reads_word kind fun fs hr => word_name kind notLogical notCell free hr
  | bareCall kind mark mark' => exact reads_bareCall kind mark mark'
  | call kind mark some h ih => exact reads_call kind mark some h ih
  | paren mark h mark' ih => exact reads_paren mark h ih mark'
  | union mark h h' some mark' ih ih' => exact reads_union mark h ih h' ih' some mark'
  | array mark h even => exact reads_array mark h even
  | omitted => exact reads_omitted
  | given h ih => exact reads_given h ih
  | lastArgument _ mark ih => exact reads_lastArgument ih mark
  | nextArgument _ mark _ ih ih' => exact reads_nextArgument ih mark ih'
  | noPart => exact reads_noPart
  | nextPart mark _ h' ih ih' => exact reads_nextPart mark ih h' ih'

/-! ## Formulas -/

theorem formula_read (h : Derives .expression ts e) {last : Token} (hlast : last.kind = .finish) :
    formula ⟨ts ++ [last], []⟩ = (e, ⟨[last], []⟩) := by
  obtain ⟨t, more, rfl, ht⟩ := derives_opens h (by simp)
  have hfirst : (t.kind == .finish) = false := by simpa using ht.notFinish
  have hend : (last.kind != .finish) = false := by simp [hlast]
  have hfollows : Follows BinaryOp.levels (next [last]) := by
    refine ⟨isPunctuation_of_kind ?_, isOperator_of_kind ?_, fun level _ => ?_⟩ <;>
      simp [next, operator?, hlast]
  have hread := expression_read (derives_reads h)
    (by simp : (t :: more).length < (t :: more ++ [last]).length) hfollows []
  simp only [List.cons_append] at hread ⊢
  simp only [formula, peek_bind, hfirst, Bool.false_eq_true, if_false, remaining_bind]
  rw [bind_eq hread]
  simp only [peek_bind, hend, Bool.false_eq_true, if_false, pure_run]

theorem diagnostic?_of_isOperator {s : String} (h : t.isOperator s = true) :
    t.diagnostic? = none := by
  simp [Token.diagnostic?, Token.kind_of_isOperator h]

theorem diagnostic?_of_isPunctuation {s : String} (h : t.isPunctuation s = true) :
    t.diagnostic? = none := by
  simp [Token.diagnostic?, Token.kind_of_isPunctuation h]

theorem diagnostic?_of_writes {l : Literal} (h : t.Writes l) : t.diagnostic? = none := by
  cases h <;> simp_all [Token.diagnostic?]

theorem diagnostic?_of_ends {kind : Place.Kind} {p : Place} (h : t.Ends kind p) :
    t.diagnostic? = none := by
  obtain hk | ⟨-, hk⟩ := h.1 <;> simp [Token.diagnostic?, hk]

theorem diagnostic?_of_identifier (h : t.kind = .identifier) : t.diagnostic? = none := by
  simp [Token.diagnostic?, h]

theorem diagnostic?_of_item {l : Literal} (h : Item ts l) : ∀ u ∈ ts, u.diagnostic? = none := by
  cases h with
  | plain h => simp [diagnostic?_of_writes h]
  | plus mark h | minus mark h => simp [diagnostic?_of_isOperator mark, diagnostic?_of_writes h]

theorem diagnostic?_of_rows {rows : List (List Literal)} (h : Rows ts rows) :
    ∀ u ∈ ts, u.diagnostic? = none := by
  induction h with
  | last item mark =>
    exact List.forall_mem_append.mpr
      ⟨diagnostic?_of_item item, List.forall_mem_singleton.mpr (diagnostic?_of_isPunctuation mark)⟩
  | next item mark _ ih | newRow item mark _ ih =>
    exact List.forall_mem_append.mpr
      ⟨diagnostic?_of_item item, List.forall_mem_cons.mpr ⟨diagnostic?_of_isPunctuation mark, ih⟩⟩

/-- No token of a phrase is bad. -/
theorem diagnostic?_of_derives {p : Phrase} (h : Derives p ts e) :
    ∀ u ∈ ts, u.diagnostic? = none := by
  induction h with
  | operand _ ih | alone _ ih | unsigned _ ih | given _ ih => exact ih
  | binary _ mark _ _ left right =>
    exact List.forall_mem_append.mpr
      ⟨left, List.forall_mem_cons.mpr ⟨diagnostic?_of_isOperator mark, right⟩⟩
  | sign mark _ ih => exact List.forall_mem_cons.mpr ⟨diagnostic?_of_isOperator mark, ih⟩
  | literal h => exact List.forall_mem_singleton.mpr (diagnostic?_of_writes h)
  | cell kind _ | name kind _ _ _ =>
    exact List.forall_mem_singleton.mpr (diagnostic?_of_identifier kind)
  | range start mark finish =>
    simp [diagnostic?_of_ends start, diagnostic?_of_isOperator mark, diagnostic?_of_ends finish]
  | bareCall kind mark mark' =>
    simp [diagnostic?_of_identifier kind, diagnostic?_of_isPunctuation mark,
      diagnostic?_of_isPunctuation mark']
  | call kind mark _ _ ih =>
    exact List.forall_mem_cons.mpr ⟨diagnostic?_of_identifier kind,
      List.forall_mem_cons.mpr ⟨diagnostic?_of_isPunctuation mark, ih⟩⟩
  | paren mark _ mark' ih =>
    exact List.forall_mem_cons.mpr ⟨diagnostic?_of_isPunctuation mark, List.forall_mem_append.mpr
      ⟨ih, List.forall_mem_singleton.mpr (diagnostic?_of_isPunctuation mark')⟩⟩
  | union mark _ _ _ mark' ih ih' =>
    exact List.forall_mem_cons.mpr ⟨diagnostic?_of_isPunctuation mark, List.forall_mem_append.mpr
      ⟨ih, List.forall_mem_append.mpr
        ⟨ih', List.forall_mem_singleton.mpr (diagnostic?_of_isPunctuation mark')⟩⟩⟩
  | array mark h _ =>
    exact List.forall_mem_cons.mpr ⟨diagnostic?_of_isPunctuation mark, diagnostic?_of_rows h⟩
  | omitted | noPart => exact nofun
  | lastArgument _ mark ih =>
    exact List.forall_mem_append.mpr
      ⟨ih, List.forall_mem_singleton.mpr (diagnostic?_of_isPunctuation mark)⟩
  | nextArgument _ mark _ ih ih' =>
    exact List.forall_mem_append.mpr
      ⟨ih, List.forall_mem_cons.mpr ⟨diagnostic?_of_isPunctuation mark, ih'⟩⟩
  | nextPart mark _ _ ih ih' =>
    exact List.forall_mem_cons.mpr
      ⟨diagnostic?_of_isPunctuation mark, List.forall_mem_append.mpr ⟨ih, ih'⟩⟩

end Reader

namespace Parsed

/-- A text whose tokens derive a tree has no fault, and the tree is its own. -/
theorem ofText_of_derives {text : String} {ts : List Token} {last : Token} {e : Expr}
    (hlex : Token.lex text = ts ++ [last]) (hlast : last.kind = .finish)
    (h : Derives .expression ts e) :
    (ofText text).isValid = true ∧ (ofText text).expr = e := by
  have hread := Reader.formula_read h hlast
  rw [isValid_iff, expr_ofText, hlex, hread]
  refine ⟨⟨fun t ht => ?_, rfl⟩, rfl⟩
  obtain ht | rfl := List.mem_append.mp ht |>.imp_right List.mem_singleton.mp
  · exact Reader.diagnostic?_of_derives h t ht
  · simp [Token.diagnostic?, hlast]

end Parsed

end Spreadsheet
