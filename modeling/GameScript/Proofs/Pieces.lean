import GameScript.Proofs.Spacing
import GameScript.Tree.Render

namespace GameScript

open Scan

def symbolPiece (apart : Bool) (c : Char) : Piece :=
  (apart, ⟨.symbol, String.ofList [c], .zero⟩)

def symbolPieces (apart : Bool) : List Char → List Piece
  | [] => []
  | c :: cs => symbolPiece apart c :: symbolPieces false cs

def wordPiece (apart : Bool) (text : String) : Piece :=
  (apart, ⟨.identifier, text, .zero⟩)

def LiteralKind.tokenKind : LiteralKind → TokenKind
  | integer | float => .number
  | string => .string
  | localized => .metaString
  | resource => .resource
  | bool | undefined => .identifier

def Literal.piece (apart : Bool) (l : Literal) : Piece :=
  (apart, ⟨l.kind.tokenKind, l.raw, .zero⟩)

def pathPieces (apart : Bool) : ModulePath → List Piece
  | [] => []
  | name :: rest => wordPiece apart name.name ::
      rest.flatMap fun name => [symbolPiece false '\\', wordPiece false name.name]

def FunctionRef.pieces (apart : Bool) (f : FunctionRef) : List Piece :=
  match f.qualifier with
  | .unqualified => [wordPiece apart f.name.name]
  | .own => symbolPieces apart [':', ':'] ++ [wordPiece false f.name.name]
  | .path segments => pathPieces apart segments ++ symbolPieces false [':', ':'] ++ [wordPiece false f.name.name]

def modifierPieces (apart : Bool) (modifier : Option CallModifier) : List Piece :=
  match modifier with
  | some m => [wordPiece apart m.keyword.spelling]
  | none => []

def unaryApart (op : Operator) (operand : List Char) : Bool :=
  match operand with
  | c :: _ => Symbol.extends? op.spelling && Operator.isSpelling (op.spelling ++ c.toString)
  | [] => false

mutual

def Expr.pieces (apart : Bool) : Expr → List Piece
  | .var _ name => [wordPiece apart name.name]
  | .func _ target => target.pieces apart
  | .index _ target index => target.pieces apart ++
      symbolPiece false '[' :: index.pieces (index.text.toList.head? = some '[') ++ [symbolPiece false ']']
  | .member _ target name => target.pieces apart ++ [symbolPiece false '.', wordPiece false name.name]
  | .literal _ value => [value.piece apart]
  | .binary _ op left right =>
    left.pieces apart ++ symbolPieces true op.spelling.toList ++ right.pieces true
  | .unary _ op operand =>
    symbolPieces apart op.spelling.toList ++ operand.pieces (unaryApart op operand.text.toList)
  | .suffix _ op operand => operand.pieces apart ++ symbolPieces false op.spelling.toList
  | .group _ inner => symbolPiece apart '(' :: inner.pieces false ++ [symbolPiece false ')']
  | .truple _ x y z => symbolPiece apart '(' :: x.pieces false ++ symbolPiece false ',' :: y.pieces true ++
      symbolPiece false ',' :: z.pieces true ++ [symbolPiece false ')']
  | .array _ items =>
    symbolPiece apart '[' :: exprPieces (startsWithArray items) items ++ [symbolPiece false ']']
  | .assign _ op target value =>
    target.pieces apart ++ symbolPieces true op.spelling.toList ++ value.pieces true
  | .call _ receiver modifier target args =>
    receiverPieces apart receiver ++ modifierPieces (apart || receiver.isSome) modifier ++
      target.pieces (apart || receiver.isSome || modifier.isSome) ++
      symbolPiece false '(' :: exprPieces false args ++ [symbolPiece false ')']
  | .pointerCall _ receiver modifier pointer args =>
    receiverPieces apart receiver ++ modifierPieces (apart || receiver.isSome) modifier ++
      symbolPieces (apart || receiver.isSome || modifier.isSome) ['[', '['] ++ pointer.pieces false ++
      symbolPieces false [']', ']'] ++
      symbolPiece false '(' :: exprPieces false args ++ [symbolPiece false ')']

def receiverPieces (apart : Bool) : Option Expr → List Piece
  | some e => e.pieces apart
  | none => []

def exprPieces (apart : Bool) : List Expr → List Piece
  | [] => []
  | e :: es => e.pieces apart ++ furtherPieces es

def furtherPieces : List Expr → List Piece
  | [] => []
  | e :: es => symbolPiece false ',' :: e.pieces true ++ furtherPieces es

end

theorem furtherPieces_append (es fs : List Expr) :
    furtherPieces (es ++ fs) = furtherPieces es ++ furtherPieces fs := by
  induction es with
  | nil => rfl
  | cons e es ih => simp [furtherPieces, ih]

theorem exprPieces_snoc (apart : Bool) {es : List Expr} (e : Expr) (h : es ≠ []) :
    exprPieces apart (es ++ [e]) = exprPieces apart es ++ symbolPiece false ',' :: e.pieces true := by
  cases es with
  | nil => exact absurd rfl h
  | cons f es => simp [exprPieces, furtherPieces, furtherPieces_append]

theorem pathPieces_snoc (apart : Bool) {path : ModulePath} (name : Ident) (h : path ≠ []) :
    pathPieces apart (path ++ [name]) =
      pathPieces apart path ++ [symbolPiece false '\\', wordPiece false name.name] := by
  cases path with
  | nil => exact absurd rfl h
  | cons first path => simp [pathPieces]

theorem intercalate_toList (sep t : String) (ts : List String) :
    (String.intercalate sep (t :: ts)).toList = t.toList ++ ts.flatMap fun u => sep.toList ++ u.toList := by
  induction ts generalizing t with
  | nil => simp
  | cons u us ih => simp [String.intercalate_cons_cons, ih]

theorem pathText_snoc {path : ModulePath} (name : Ident) (h : path ≠ []) :
    pathText (path ++ [name]) = pathText path ++ "\\" ++ name.name := by
  unfold pathText
  rw [List.map_append, String.intercalate_append_of_ne_nil (by simpa using h) (by simp)]
  simp

theorem unaryText_toList (op : Operator) (operand : String) :
    (unaryText op operand).toList = op.spelling.toList ++
      (if unaryApart op operand.toList = true then [' '] else []) ++ operand.toList := by
  unfold unaryText unaryApart
  cases h : operand.toList with
  | nil => simp [h]
  | cons c cs =>
    simp only
    split <;> simp [h]

section Reading

variable {d : Dialect} {afterValue apart : Bool} {rest : List Char} {ps : List Piece}

theorem clear_nil : Clear d [] := by
  simp [Clear]

theorem clear_symbol {c : Char} (hc : c ∈ symbolChars) (hp : c ≠ '.') : Clear d (c :: rest) := by
  simpa [Clear, isWordChar_of_symbol hc] using fun h => absurd h hp

theorem clear_blank : Clear d (' ' :: rest) := by
  simp [Clear, isWordChar_of_isBlank (d := d) (c := ' ') (by decide)]

theorem clear_point {c : Char} (hc : c.isDigit = false) : Clear d ('.' :: c :: rest) := by
  simp [Clear, isWordChar_of_symbol (d := d) (c := '.') (by decide), hc]

theorem endsValue_symbol (mode : GameMode) (apart : Bool) (c : Char) :
    (symbolPiece apart c).2.endsValue mode = (c == ')' || c == ']') := by
  simp [symbolPiece, Token.endsValue, Token.isSymbol, Token.symbol?]

theorem Spaced.space (h : Spaced d afterValue true rest ps) : Spaced d afterValue apart (' ' :: rest) ps :=
  .blank (by decide) h

theorem Spaced.symbol {c : Char} (hc : c ∈ symbolChars) (hr : Stops d afterValue .symbol [c] rest)
    (h : Spaced d (c == ')' || c == ']') false rest ps) :
    Spaced d afterValue apart (c :: rest) (symbolPiece apart c :: ps) := by
  have hs : head d afterValue c rest = .token .symbol (symbolPiece apart c).2.text.toList rest := by
    simpa [symbolPiece] using head_symbol hc hr
  rw [← endsValue_symbol d.mode apart c] at h
  exact .token hs rfl h

theorem Spaced.plainSymbol {c : Char} (hc : c ∈ symbolChars) (ho : ¬ opens c)
    (h : Spaced d (c == ')' || c == ']') false rest ps) :
    Spaced d afterValue apart (c :: rest) (symbolPiece apart c :: ps) := by
  refine .symbol hc ?_ h
  simp only [opens, not_or] at ho
  simp [Stops, ho]

theorem Spaced.opening {c : Char} (hc : c = '(' ∨ c = '[' ∨ c = ',') (h : Spaced d false false rest ps) :
    Spaced d afterValue apart (c :: rest) (symbolPiece apart c :: ps) := by
  obtain rfl | rfl | rfl := hc <;> exact .plainSymbol (by decide) (by simp [opens]) h

theorem Spaced.closing {c : Char} (hc : c = ')' ∨ c = ']') (h : ∀ afterValue, Spaced d afterValue false rest ps) :
    Spaced d afterValue apart (c :: rest) (symbolPiece apart c :: ps) := by
  obtain rfl | rfl := hc <;> exact .plainSymbol (by decide) (by simp [opens]) (h _)

theorem Spaced.gap (h : Spaced d afterValue apart rest ps) :
    Spaced d afterValue false ((if apart = true then [' '] else []) ++ rest) ps := by
  cases apart with
  | false => exact h
  | true => exact h.space

def Harmless (d : Dialect) (x : Char) : Prop :=
  x ≠ '/' ∧ x ≠ '*' ∧ x ≠ '\x22' ∧ d.isWordStart x = false ∧ x.isDigit = false

theorem Harmless.stops {c : Char} (h : ∀ x ∈ rest.head?, Harmless d x) : Stops d afterValue .symbol [c] rest := by
  intro x hx
  obtain ⟨hslash, hstar, hquote, hword, hdigit⟩ := h x hx
  exact ⟨fun _ => ⟨hslash, hstar⟩, fun _ => hquote, fun _ => .inr hword, fun _ => .inr hdigit⟩

theorem Spaced.symbols {cs : List Char} (hc : ∀ c ∈ cs, c ∈ symbolChars ∧ c ≠ ')' ∧ c ≠ ']')
    (ht : ∀ c ∈ cs.tail, Harmless d c) (hl : ∀ c ∈ cs.getLast?, opens c → ∀ x ∈ rest.head?, Harmless d x)
    (hn : cs ≠ []) (h : Spaced d false false rest ps) :
    Spaced d afterValue apart (cs ++ rest) (symbolPieces apart cs ++ ps) := by
  induction cs generalizing afterValue apart with
  | nil => exact absurd rfl hn
  | cons c cs ih =>
    obtain ⟨⟨hmem, hparen, hbracket⟩, hcs⟩ := List.forall_mem_cons.1 hc
    have hclose : (c == ')' || c == ']') = false := by simp [hparen, hbracket]
    cases cs with
    | nil =>
      have hr : Spaced d (c == ')' || c == ']') false rest ps := by rwa [hclose]
      by_cases ho : opens c
      · exact .symbol hmem (Harmless.stops (hl c rfl ho)) hr
      · exact .plainSymbol hmem ho hr
    | cons c' cs =>
      have ht' := List.forall_mem_cons.1 ht
      refine .symbol hmem (Harmless.stops ?_) ?_
      · rintro x ⟨⟩
        exact ht'.1
      · rw [hclose]
        exact ih hcs ht'.2 (by simpa using hl) (by simp)

theorem harmless_space : Harmless d ' ' := by
  refine ⟨by decide, by decide, by decide, ?_, by decide⟩
  refine Bool.eq_false_iff.2 fun h => ?_
  have := isWordChar_of_isBlank (d := d) (c := ' ') (by decide)
  rw [Dialect.isWordChar_of_isWordStart h] at this
  cases this

theorem Operator.spelling_chars (op : Operator) :
    (∀ c ∈ op.spelling.toList, c ∈ symbolChars ∧ c ≠ ')' ∧ c ≠ ']') ∧
      (∀ c ∈ op.spelling.toList.tail, c ≠ '/' ∧ c ≠ '*') ∧ op.spelling.toList ≠ [] := by
  have hchars : (op.spelling.toList.all fun c => symbolChars.contains c && c != ')' && c != ']') = true := by
    cases op <;> decide
  have htail : (op.spelling.toList.tail.all fun c => c != '/' && c != '*') = true := by cases op <;> decide
  refine ⟨by simpa [and_assoc] using hchars, by simpa using htail, ?_⟩
  cases op <;> decide

theorem Operator.spelling_harmless (op : Operator) : ∀ c ∈ op.spelling.toList.tail, Harmless d c := by
  intro c hc
  have hmem := (op.spelling_chars.1 c (List.mem_of_mem_tail hc)).1
  obtain ⟨-, hdigit, hquote, -⟩ := symbolChars_plain c hmem
  obtain ⟨hslash, hstar⟩ := op.spelling_chars.2.1 c hc
  exact ⟨hslash, hstar, hquote, isWordStart_of_symbol hmem, hdigit⟩

theorem Spaced.between (op : Operator) (h : Spaced d false true rest ps) :
    Spaced d afterValue apart (' ' :: op.spelling.toList ++ ' ' :: rest)
      (symbolPieces true op.spelling.toList ++ ps) := by
  refine .space (.symbols op.spelling_chars.1 op.spelling_harmless ?_ op.spelling_chars.2.2 h.space)
  rintro c - - x ⟨⟩
  exact harmless_space

theorem Spaced.affix {op : Operator} (ho : op.fixity = .before ∨ op.fixity = .after)
    (h : Spaced d false false rest ps) : Spaced d afterValue apart (op.spelling.toList ++ rest)
      (symbolPieces apart op.spelling.toList ++ ps) := by
  refine .symbols op.spelling_chars.1 op.spelling_harmless ?_ op.spelling_chars.2.2 h
  have hlast : ∀ c ∈ op.spelling.toList.getLast?, ¬ opens c := by
    revert ho
    cases op <;> simp [Operator.fixity, Operator.spelling, opens]
  intro c hc hopen
  exact (hlast c hc hopen).elim

theorem Token.Readable.anywhere {t : Token} (h : t.Readable d false) (hk : t.kind = .identifier)
    (afterValue : Bool) : t.Readable d afterValue := by
  intro hs
  obtain ⟨c, cs, rest, ht, hr⟩ := h hs
  rw [hk] at hr ⊢
  exact ⟨c, cs, rest, ht, (head_identifier hr).2 afterValue⟩

theorem Spaced.content {t : Token} {kind : TokenKind} (h : t.Readable d afterValue) (hk : t.kind = kind)
    (hs : kind ≠ .symbol) (ht : kind ≠ .whitespace ∧ kind ≠ .comment ∧ kind ≠ .eof) (hc : Clear d rest)
    (hr : ∀ afterValue, Spaced d afterValue false rest ps) :
    Spaced d afterValue apart (t.text.toList ++ rest) ((apart, ⟨kind, t.text, .zero⟩) :: ps) := by
  subst hk
  have htrivia : t.isTrivia = false := by simp [Token.isTrivia, ht]
  have heof : t.isEof = false := by simp [Token.isEof, ht]
  have hpiece : Token.Readable d afterValue ⟨t.kind, t.text, .zero⟩ := h
  exact hpiece.spaced hs htrivia (hc.stops afterValue hs htrivia heof) (hr _)

theorem Spaced.word {t : Token} (h : t.Readable d false) (hk : t.kind = .identifier) (hc : Clear d rest)
    (hr : ∀ afterValue, Spaced d afterValue false rest ps) :
    Spaced d afterValue apart (t.text.toList ++ rest) (wordPiece apart t.text :: ps) :=
  .content (h.anywhere hk afterValue) hk (by simp) (by simp) hc hr

theorem clear_operator (op : Operator) : Clear d (op.spelling.toList ++ rest) := by
  have hfirst : ∃ c cs, op.spelling.toList = c :: cs ∧ c ∈ symbolChars ∧ c ≠ '.' := by
    cases op <;> exact ⟨_, _, rfl, by decide⟩
  obtain ⟨c, cs, hop, hc, hp⟩ := hfirst
  rw [hop]
  exact clear_symbol hc hp

theorem Token.Readable.not_digit {t : Token} (h : t.Readable d false) (hk : t.kind = .identifier) :
    ∃ c cs, t.text.toList = c :: cs ∧ c.isDigit = false := by
  obtain ⟨c, cs, rest, ht, hr⟩ := h (by simp [hk])
  rw [hk] at hr
  exact ⟨c, cs, ht, isDigit_of_isWordStart (head_identifier hr).1⟩

theorem clear_member {t : Token} (h : t.Readable d false) (hk : t.kind = .identifier) :
    Clear d ('.' :: (t.text.toList ++ rest)) := by
  obtain ⟨c, cs, ht, hd⟩ := h.not_digit hk
  rw [ht]
  exact clear_point hd

theorem Spaced.point {t : Token} (h : t.Readable d false) (hk : t.kind = .identifier)
    (hr : Spaced d false false (t.text.toList ++ rest) ps) :
    Spaced d afterValue apart ('.' :: (t.text.toList ++ rest)) (symbolPiece apart '.' :: ps) := by
  obtain ⟨c, cs, ht, hd⟩ := h.not_digit hk
  refine .symbol (by decide) ?_ hr
  rw [ht]
  simp [Stops, hd]

end Reading

end GameScript
