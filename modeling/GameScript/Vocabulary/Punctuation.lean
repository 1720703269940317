namespace GameScript

inductive Stability
  | stable
  | deprecated
deriving DecidableEq, Repr

structure Usage where
  code : String
  note : Option String
deriving DecidableEq, Repr

inductive Punctuation
  | semicolon | comma | colon
  | dot | colonColon | backslash
  | hash | question | ellipsis
  | leftParen | rightParen | leftBracket | rightBracket | leftPointer | rightPointer
  | leftBrace | rightBrace
deriving DecidableEq, Repr

inductive PunctuationCategory
  | delimiter
  | separator
  | access
  | marker
deriving DecidableEq, Repr

namespace Punctuation

def all : List Punctuation :=
  [semicolon, comma, colon, dot, colonColon, backslash, hash, question, ellipsis, leftParen,
    rightParen, leftBracket, rightBracket, leftPointer, rightPointer, leftBrace, rightBrace]

def spelling : Punctuation → String
  | semicolon => ";"
  | comma => ","
  | colon => ":"
  | dot => "."
  | colonColon => "::"
  | backslash => "\\"
  | hash => "#"
  | question => "?"
  | ellipsis => "..."
  | leftParen => "("
  | rightParen => ")"
  | leftBracket => "["
  | rightBracket => "]"
  | leftPointer => "[["
  | rightPointer => "]]"
  | leftBrace => "\x7b"
  | rightBrace => "\x7d"

def category : Punctuation → PunctuationCategory
  | semicolon | comma | colon => .separator
  | dot | colonColon | backslash => .access
  | hash | question | ellipsis => .marker
  | _ => .delimiter

def examples : Punctuation → List Usage
  | colonColon =>
    [⟨"thread ::on_spawn();", some "Function in the current module."⟩,
      ⟨"maps\\mp\\_utility::wait_for(1);", some "Function in another module."⟩]
  | _ => []

def ofSpelling? (text : String) : Option Punctuation :=
  all.find? fun p => p.spelling == text

theorem mem_all (p : Punctuation) : p ∈ all := by
  cases p <;> decide

theorem ofSpelling?_spelling (p : Punctuation) : ofSpelling? p.spelling = some p := by
  cases p <;> decide +kernel

end Punctuation

end GameScript
