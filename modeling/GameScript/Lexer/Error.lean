import GameScript.Location
import GameScript.Text.Hidden

namespace GameScript

inductive LexErrorKind
  | illegalCharacter (c : Char)
  | unterminatedString
  | unterminatedComment
  | emptyHexLiteral
deriving DecidableEq, Repr

structure LexError where
  kind : LexErrorKind
  loc : Location
deriving DecidableEq, Repr

namespace LexError

def message (e : LexError) : String :=
  match e.kind with
  | .illegalCharacter c => "illegal character " ++ Quoted.char c ++ " at " ++ e.loc.text
  | .unterminatedString => "unterminated string literal starting at " ++ e.loc.text
  | .unterminatedComment => "unterminated block comment starting at " ++ e.loc.text
  | .emptyHexLiteral => "hexadecimal literal without digits at " ++ e.loc.text

def code (e : LexError) : String :=
  match e.kind with
  | .illegalCharacter _ => "gscript::lex::illegal_character"
  | .unterminatedString => "gscript::lex::unterminated_string"
  | .unterminatedComment => "gscript::lex::unterminated_comment"
  | .emptyHexLiteral => "gscript::lex::empty_hex_literal"

def help (e : LexError) : Option String :=
  match e.kind with
  | .illegalCharacter _ =>
    some "enable `unknown_chars_as_letters` to treat unknown characters as part of identifiers"
  | _ => none

end LexError

end GameScript
