import GameScript.Location
import GameScript.Vocabulary.Keyword

/-!
Tokens. Reserved words are identifiers here, since the game mode decides which words are reserved,
and every symbol token is one character.
-/

namespace GameScript

inductive TokenKind
  | identifier
  | number
  | string
  | metaString
  | resource
  | symbol
  | comment
  | whitespace
  | eof
deriving DecidableEq, Repr

structure Token where
  kind : TokenKind
  text : String
  loc : Location
deriving DecidableEq, Repr

namespace Token

def endAt (loc : Location) : Token := ⟨.eof, "", loc⟩

def isTrivia (t : Token) : Bool :=
  t.kind == .whitespace || t.kind == .comment

def isEof (t : Token) : Bool :=
  t.kind == .eof

def symbol? (t : Token) : Option Char :=
  if t.kind = .symbol then t.text.toList.head? else none

def isSymbol (t : Token) (c : Char) : Bool :=
  t.symbol? == some c

def keyword? (t : Token) (mode : GameMode) : Option Keyword :=
  if t.kind = .identifier then Keyword.ofWord? t.text mode else none

def isKeyword (t : Token) (k : Keyword) (mode : GameMode) : Bool :=
  t.keyword? mode == some k

/-- The token can end an operand, so that a percent sign behind it is the remainder operator. -/
def endsValue (t : Token) (mode : GameMode) : Bool :=
  match t.kind with
  | .identifier =>
    match t.keyword? mode with
    | none => true
    | some k => k.category == .literal
  | .number | .string | .metaString | .resource => true
  | .symbol => t.isSymbol ')' || t.isSymbol ']'
  | .comment | .whitespace | .eof => false

def describe (t : Token) : String :=
  match t.kind with
  | .eof => "end of input"
  | .identifier => "identifier `" ++ t.text ++ "`"
  | .number => "number `" ++ t.text ++ "`"
  | .string | .metaString => "string " ++ t.text
  | .resource => "resource `" ++ t.text ++ "`"
  | .symbol => "`" ++ t.text ++ "`"
  | .comment => "comment"
  | .whitespace => "whitespace"

def stop (t : Token) : Location :=
  t.loc.after t.text.toList

theorem symbol?_eq_none_of_kind {t : Token} (h : t.kind ≠ .symbol) : t.symbol? = none := by
  simp [symbol?, h]

theorem keyword?_eq_none_of_kind {t : Token} (mode : GameMode) (h : t.kind ≠ .identifier) :
    t.keyword? mode = none := by
  simp [keyword?, h]

theorem isEof_endAt (loc : Location) : (endAt loc).isEof = true := rfl

theorem isTrivia_endAt (loc : Location) : (endAt loc).isTrivia = false := rfl

end Token

end GameScript
