import GameScript.Vocabulary.Punctuation

namespace GameScript

inductive Operator
  | star | slash | percent | plus | minus
  | shl | shr
  | lt | ltEq | gt | gtEq | eqEq | notEq
  | bitAnd | bitXor | bitOr
  | andAnd | orOr
  | not | negate | bitNot
  | increment | decrement
  | assign | plusEq | minusEq | starEq | slashEq | percentEq | andEq | orEq | xorEq | shlEq | shrEq
deriving DecidableEq, Repr

inductive Associativity
  | left
  | right
deriving DecidableEq, Repr

/-- Where an operator stands: between two operands, in front of one, behind one, or between the
target and the value of an assignment. -/
inductive Fixity
  | between
  | before
  | after
  | assigning
deriving DecidableEq, Repr

namespace Operator

def all : List Operator :=
  [star, slash, percent, plus, minus, shl, shr, lt, ltEq, gt, gtEq, eqEq, notEq, bitAnd, bitXor,
    bitOr, andAnd, orOr, not, negate, bitNot, increment, decrement, assign, plusEq, minusEq,
    starEq, slashEq, percentEq, andEq, orEq, xorEq, shlEq, shrEq]

def spelling : Operator → String
  | star => "*"
  | slash => "/"
  | percent => "%"
  | plus => "+"
  | minus => "-"
  | shl => "<<"
  | shr => ">>"
  | lt => "<"
  | ltEq => "<="
  | gt => ">"
  | gtEq => ">="
  | eqEq => "=="
  | notEq => "!="
  | bitAnd => "&"
  | bitXor => "^"
  | bitOr => "|"
  | andAnd => "&&"
  | orOr => "||"
  | not => "!"
  | negate => "-"
  | bitNot => "~"
  | increment => "++"
  | decrement => "--"
  | assign => "="
  | plusEq => "+="
  | minusEq => "-="
  | starEq => "*="
  | slashEq => "/="
  | percentEq => "%="
  | andEq => "&="
  | orEq => "|="
  | xorEq => "^="
  | shlEq => "<<="
  | shrEq => ">>="

def precedence : Operator → Nat
  | star | slash | percent => 100
  | plus | minus => 90
  | shl | shr => 80
  | lt | ltEq | gt | gtEq => 70
  | eqEq | notEq => 60
  | bitAnd => 50
  | bitXor => 45
  | bitOr => 40
  | andAnd => 30
  | orOr => 20
  | not | negate | bitNot => 110
  | increment | decrement => 120
  | _ => 10

def fixity : Operator → Fixity
  | not | negate | bitNot => .before
  | increment | decrement => .after
  | assign | plusEq | minusEq | starEq | slashEq | percentEq | andEq | orEq | xorEq | shlEq
  | shrEq => .assigning
  | _ => .between

def associativity (op : Operator) : Associativity :=
  match op.fixity with
  | .before | .assigning => .right
  | .between | .after => .left

def examples : Operator → List Usage
  | increment =>
    [⟨"level.count++;", some "Only variables, member accesses and indexers can be incremented."⟩]
  | _ => []

def spellingChars : List Char :=
  ['=', '+', '-', '*', '/', '%', '<', '>', '!', '&', '|', '^', '~']

def maxSpellingLength : Nat := 3

/-- An operator of this fixity can stand at the position; what may stand between two operands
includes the assignments. -/
def fits (fixity position : Fixity) : Bool :=
  fixity == position || (position == .between && fixity == .assigning)

def ofSpelling? (spelling : String) (position : Fixity) : Option Operator :=
  all.find? fun op => fits op.fixity position && op.spelling == spelling

def isSpelling (text : String) : Bool :=
  all.any fun op => op.spelling == text

theorem mem_all (op : Operator) : op ∈ all := by
  cases op <;> decide

theorem isSpelling_iff (text : String) : isSpelling text = true ↔ ∃ op : Operator, op.spelling = text := by
  simp [isSpelling, mem_all]

theorem ofSpelling?_spelling {text : String} {position : Fixity} {op : Operator}
    (h : ofSpelling? text position = some op) : op.spelling = text := by
  have := List.find?_some h
  simp at this
  exact this.2

theorem ofSpelling?_fits {text : String} {position : Fixity} {op : Operator}
    (h : ofSpelling? text position = some op) : fits op.fixity position = true := by
  have := List.find?_some h
  simp at this
  exact this.1

end Operator

end GameScript

namespace GameScript.Symbol

def isKnown (text : String) : Bool :=
  Operator.isSpelling text || (Punctuation.ofSpelling? text).isSome

def spellings : List String :=
  Operator.all.map Operator.spelling ++ Punctuation.all.map Punctuation.spelling

def longestLength (run : List Char) : Nat :=
  (List.range run.length).foldl
    (fun best i => if isKnown (String.ofList (run.take (i + 1))) then i + 1 else best) 0

def extends? (text : String) : Bool :=
  let head := text.toList
  spellings.any fun s => head.length < s.toList.length && head.isPrefixOf s.toList

end GameScript.Symbol
