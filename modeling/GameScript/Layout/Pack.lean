import GameScript.Lexer.Lexer
import GameScript.Text.Alphanumeric
import GameScript.Vocabulary.Operator

/-!
Source without comments and whitespace. A blank stays between tokens that were apart and would read
differently if they were joined.
-/

namespace GameScript

namespace Pack

def symbolsJoin (left right : String) : Bool :=
  let glued := left ++ right
  glued == "//" || glued == "/*" || Symbol.longestLength glued.toList != left.length
    || Symbol.extends? glued

def needsBlank (left right : Token) : Bool :=
  match left.text.toList.getLast?, right.text.toList.head? with
  | some last, some first =>
    if Text.isWordLike last && Text.isWordLike first then true
    else if (last = '.' && first.isDigit) || (left.kind = .number && first = '.') then true
    else if left.kind = .symbol && right.kind = .symbol then symbolsJoin left.text right.text
    else (left.isSymbol '&' && right.kind = .string) || (left.isSymbol '%' && right.kind = .identifier)
  | _, _ => false

def adjacent (left right : Token) : Bool :=
  left.loc.offset + left.text.utf8ByteSize == right.loc.offset

def separator (left right : Token) : String :=
  if !adjacent left right && needsBlank left right then " " else ""

def packAfter (left : Token) : List Token → List String
  | [] => []
  | t :: rest => separator left t :: t.text :: packAfter t rest

def isSignificant (t : Token) : Bool :=
  !t.isTrivia && !t.isEof

end Pack

def packTokens (tokens : List Token) : String :=
  match tokens.filter Pack.isSignificant with
  | [] => ""
  | t :: rest => String.join (t.text :: Pack.packAfter t rest)

def packSource (source : String) (dialect : Dialect) : Except LexError String :=
  (lex source dialect).map packTokens

end GameScript
