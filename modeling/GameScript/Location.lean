namespace GameScript

/-- Line and column count from 1, the column in characters; the offset counts bytes from 0. The numbers have no bound of
their own; in a text, lines and columns exceed its length by one at most (`lex_loc_le`). -/
structure Location where
  line : Nat
  column : Nat
  offset : Nat
deriving DecidableEq, Repr, Inhabited

namespace Location

def start : Location := ⟨1, 1, 0⟩

def zero : Location := ⟨0, 0, 0⟩

def next (loc : Location) (c : Char) : Location :=
  if c = '\n' then ⟨loc.line + 1, 1, loc.offset + c.utf8Size⟩
  else ⟨loc.line, loc.column + 1, loc.offset + c.utf8Size⟩

def after (loc : Location) (text : List Char) : Location :=
  text.foldl next loc

def text (loc : Location) : String :=
  toString loc.line ++ ":" ++ toString loc.column

theorem after_nil (loc : Location) : loc.after [] = loc := rfl

theorem after_cons (loc : Location) (c : Char) (text : List Char) :
    loc.after (c :: text) = (loc.next c).after text := rfl

end Location

/-- Both counts are rounded to single precision before the division. -/
def fraction (done total : Nat) : Float32 :=
  done.toUInt64.toFloat32 / total.toUInt64.toFloat32

end GameScript
