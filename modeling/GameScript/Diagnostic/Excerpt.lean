import GameScript.Text.Basic

namespace GameScript

structure Excerpt where
  line : Nat
  column : Nat
  text : List Char
deriving DecidableEq, Repr

namespace Excerpt

def dropReturns (line : List Char) : List Char :=
  (line.reverse.dropWhile (· == '\r')).reverse

def before : Nat → List Char → List Char
  | _, [] => []
  | offset, c :: cs => if c.utf8Size ≤ offset then c :: before (offset - c.utf8Size) cs else []

/-- Splits at the offset; one inside a character counts as the start of it, one behind the text as
the end. -/
def ofOffset (source : String) (offset : Nat) : Excerpt :=
  let passed := before offset source.toList
  let rest := source.toList.drop passed.length
  let head := (passed.reverse.takeWhile (· ≠ '\n')).reverse
  { line := passed.count '\n' + 1
    column := head.length + 1
    text := dropReturns (head ++ rest.takeWhile (· ≠ '\n')) }

theorem before_isPrefix (offset : Nat) (cs : List Char) : before offset cs <+: cs := by
  induction cs generalizing offset with
  | nil => simp [before]
  | cons c cs ih =>
    rw [before]
    split
    · exact List.cons_prefix_cons.2 ⟨rfl, ih _⟩
    · exact List.nil_prefix

end Excerpt

end GameScript
