import GameScript.Vocabulary.Keyword

namespace GameScript

structure Dialect where
  hexLiterals : Bool := true
  singleQuoteStrings : Bool := false
  mode : GameMode := .multiplayer
  unknownAsLetters : Bool := false
deriving DecidableEq, Repr

def symbolChars : List Char :=
  ['\x7b', '\x7d', '(', ')', '[', ']', ';', ',', '.', ':', '=', '+', '-', '*', '/', '%', '<', '>',
    '!', '&', '|', '^', '~', '?', '#', '\\']

def isBlank (c : Char) : Bool :=
  c = ' ' || c = '\t' || c = '\r' || c = '\n'

def isHexDigit (c : Char) : Bool :=
  c.isDigit || ('a' ≤ c && c ≤ 'f') || ('A' ≤ c && c ≤ 'F')

namespace Dialect

/-- The character belongs to no class that every lexer of the dialect knows. -/
def isUnknown (d : Dialect) (c : Char) : Bool :=
  !(c.isAlphanum || c = '_' || isBlank c || c = '\x22' || (c = '\x27' && d.singleQuoteStrings)
    || symbolChars.contains c)

def isWordStart (d : Dialect) (c : Char) : Bool :=
  c.isAlpha || c = '_' || (d.unknownAsLetters && d.isUnknown c)

def isWordChar (d : Dialect) (c : Char) : Bool :=
  c.isAlphanum || c = '_' || (d.unknownAsLetters && d.isUnknown c)

theorem isWordChar_of_isWordStart {d : Dialect} {c : Char} (h : d.isWordStart c = true) :
    d.isWordChar c = true := by
  simp only [isWordStart, isWordChar, Char.isAlphanum, Bool.or_eq_true] at *
  rcases h with (h | h) | h <;> simp [h]

end Dialect

end GameScript
