import Spreadsheet.Formula.Reading

/-! The grammar of formulas, as rules that say which runs of tokens derive which trees. A rule
looks only at its own tokens: what must not follow a phrase is a matter of reading, not of the
grammar. -/

namespace Spreadsheet

/-- What a run of tokens can be. -/
inductive Phrase where
  /-- Operands joined by the operators of some levels, the loosest level first. -/
  | joined (levels : List (List BinaryOp))
  | signed
  | primary
  /-- An argument of a call, which may be left out. -/
  | argument
  /-- The arguments of a call with the parenthesis that closes it; their tree is the call. -/
  | arguments (function : String)
  /-- The parts of a union after the first, each with its comma; their tree is a union. -/
  | parts

namespace Phrase

/-- A whole expression. -/
abbrev expression : Phrase := joined BinaryOp.levels

end Phrase

namespace Token

/-- The token is an end of a range of the given kind; only a row can be a number. -/
def Ends (kind : Place.Kind) (p : Place) (t : Token) : Prop :=
  (t.kind = .identifier ∨ kind = .row ∧ t.kind = .number) ∧
    Place.read? kind t.text.toList = some p

/-- The token is a literal by itself. -/
inductive Writes (t : Token) : Literal → Prop
  | number {x : Float} (kind : t.kind = .number) (value : Number.read? t.text = some x)
      (finite : x.isFinite = true) : Writes t (.number x)
  | text (kind : t.kind = .string) : Writes t (.text (Text.unquote t.text))
  | error {e : ErrorCode} (kind : t.kind = .error) (value : ErrorCode.ofText? t.text = some e) :
      Writes t (.error e)
  | logical {b : Bool} (kind : t.kind = .identifier)
      (value : Reader.logicalWord? t.text = some b) : Writes t (.logical b)

end Token

namespace Grammar

/-- The tokens of one item of an array constant. -/
inductive Item : List Token → Literal → Prop
  | plain {t : Token} {l : Literal} (h : t.Writes l) : Item [t] l
  | plus {s t : Token} {x : Float} (mark : s.isOperator "+" = true) (h : t.Writes (.number x)) :
      Item [s, t] (.number x)
  | minus {s t : Token} {x : Float} (mark : s.isOperator "-" = true) (h : t.Writes (.number x)) :
      Item [s, t] (.number (-x))

/-- The rows of an array constant with the brace that closes it. -/
inductive Rows : List Token → List (List Literal) → Prop
  | last {ts : List Token} {l : Literal} {close : Token} (item : Item ts l)
      (mark : close.isPunctuation "\x7d" = true) : Rows (ts ++ [close]) [[l]]
  | next {ts more : List Token} {l : Literal} {comma : Token} {row : List Literal}
      {rows : List (List Literal)} (item : Item ts l) (mark : comma.isPunctuation "," = true)
      (rest : Rows more (row :: rows)) : Rows (ts ++ comma :: more) ((l :: row) :: rows)
  | newRow {ts more : List Token} {l : Literal} {semicolon : Token} {rows : List (List Literal)}
      (item : Item ts l) (mark : semicolon.isPunctuation ";" = true) (rest : Rows more rows) :
      Rows (ts ++ semicolon :: more) ([l] :: rows)

/-- The tokens are a phrase of the given kind with the given tree. -/
inductive Derives : Phrase → List Token → Expr → Prop
  | operand {ts : List Token} {e : Expr} (h : Derives .signed ts e) : Derives (.joined []) ts e
  | alone {level : List BinaryOp} {tighter : List (List BinaryOp)} {ts : List Token} {e : Expr}
      (h : Derives (.joined tighter) ts e) : Derives (.joined (level :: tighter)) ts e
  | binary {level : List BinaryOp} {tighter : List (List BinaryOp)} {op : BinaryOp} {t : Token}
      {ls rs : List Token} {l r : Expr} (mem : op ∈ level) (mark : t.isOperator op.symbol = true)
      (left : Derives (.joined (level :: tighter)) ls l) (right : Derives (.joined tighter) rs r) :
      Derives (.joined (level :: tighter)) (ls ++ t :: rs) (.binary op l r)
  | unsigned {ts : List Token} {e : Expr} (h : Derives .primary ts e) : Derives .signed ts e
  | sign {s : Sign} {t : Token} {ts : List Token} {e : Expr}
      (mark : t.isOperator s.symbol.toString = true) (h : Derives .signed ts e) :
      Derives .signed (t :: ts) (.sign s e)
  | literal {t : Token} {l : Literal} (h : t.Writes l) : Derives .primary [t] (.literal l)
  | cell {t : Token} {p : Place} (kind : t.kind = .identifier)
      (value : Place.readCell? t.text.toList = some p) :
      Derives .primary [t] (.reference (.ofPlace p))
  | range {first colon last : Token} {kind : Place.Kind} {p q : Place} (start : first.Ends kind p)
      (mark : colon.isOperator ":" = true) (finish : last.Ends kind q) :
      Derives .primary [first, colon, last] (.reference (.single (.between p q)))
  | name {t : Token} (kind : t.kind = .identifier)
      (notLogical : Reader.logicalWord? t.text = none)
      (notCell : Place.readCell? t.text.toList = none) (free : '$' ∉ t.text.toList) :
      Derives .primary [t] (.name t.text)
  | bareCall {t start close : Token} (kind : t.kind = .identifier)
      (mark : start.isPunctuation "(" = true) (mark' : close.isPunctuation ")" = true) :
      Derives .primary [t, start, close] (.call t.text [])
  | call {t start : Token} {ts : List Token} {es : List Expr} (kind : t.kind = .identifier)
      (mark : start.isPunctuation "(" = true) (some : es ≠ [.missing])
      (h : Derives (.arguments t.text) ts (.call t.text es)) :
      Derives .primary (t :: start :: ts) (.call t.text es)
  | paren {start close : Token} {ts : List Token} {e : Expr}
      (mark : start.isPunctuation "(" = true) (h : Derives .expression ts e)
      (mark' : close.isPunctuation ")" = true) :
      Derives .primary (start :: (ts ++ [close])) (.paren e)
  | union {start close : Token} {ts more : List Token} {r : Reference} {rs : List Reference}
      (mark : start.isPunctuation "(" = true) (first : Derives .expression ts (.reference r))
      (rest : Derives .parts more (.reference (.union rs))) (some : rs ≠ [])
      (mark' : close.isPunctuation ")" = true) :
      Derives .primary (start :: (ts ++ (more ++ [close]))) (.reference (.union (r :: rs)))
  | array {start : Token} {ts : List Token} {rows : List (List Literal)}
      (mark : start.isPunctuation "\x7b" = true) (h : Rows ts rows)
      (even : Reader.isRectangular rows = true) : Derives .primary (start :: ts) (.array rows)
  | omitted : Derives .argument [] .missing
  | given {ts : List Token} {e : Expr} (h : Derives .expression ts e) : Derives .argument ts e
  | lastArgument {f : String} {ts : List Token} {e : Expr} {close : Token}
      (h : Derives .argument ts e) (mark : close.isPunctuation ")" = true) :
      Derives (.arguments f) (ts ++ [close]) (.call f [e])
  | nextArgument {f : String} {ts more : List Token} {e : Expr} {es : List Expr} {comma : Token}
      (h : Derives .argument ts e) (mark : comma.isPunctuation "," = true)
      (rest : Derives (.arguments f) more (.call f es)) :
      Derives (.arguments f) (ts ++ comma :: more) (.call f (e :: es))
  | noPart : Derives .parts [] (.reference (.union []))
  | nextPart {ts more : List Token} {r : Reference} {rs : List Reference} {comma : Token}
      (mark : comma.isPunctuation "," = true) (h : Derives .expression ts (.reference r))
      (rest : Derives .parts more (.reference (.union rs))) :
      Derives .parts (comma :: (ts ++ more)) (.reference (.union (r :: rs)))

end Grammar

end Spreadsheet
