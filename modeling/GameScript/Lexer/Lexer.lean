import GameScript.Lexer.Scan

namespace GameScript

structure Lexer where
  dialect : Dialect
  rest : List Char
  loc : Location
  last : Option Token
  finished : Bool
  size : Nat

namespace Lexer

def ofText (source : String) (dialect : Dialect) : Lexer :=
  ⟨dialect, source.toList, .start, none, false, source.utf8ByteSize⟩

def afterValue (x : Lexer) : Bool :=
  match x.last with
  | some t => t.endsValue x.dialect.mode
  | none => false

def progress (x : Lexer) : Float32 :=
  if x.size = 0 then 1 else fraction x.loc.offset x.size

/-- The next token, nothing behind the end, or an error that leaves behind what it has read. -/
def next (x : Lexer) : Lexer × Except LexError (Option Token) :=
  if x.finished then (x, .ok none)
  else
    match x.rest with
    | [] => ({ x with finished := true }, .ok (some (Token.endAt x.loc)))
    | c :: cs =>
      match Scan.head x.dialect x.afterValue c cs with
      | .token kind text rest =>
        let t : Token := ⟨kind, String.ofList text, x.loc⟩
        let last := if t.isTrivia then x.last else some t
        ({ x with rest := rest, loc := x.loc.after text, last := last }, .ok (some t))
      | .failure kind read rest =>
        ({ x with rest := rest, loc := x.loc.after read }, .error ⟨kind, x.loc⟩)

def remaining (x : Lexer) : Nat :=
  if x.finished then 0 else x.rest.length + 1

theorem next_remaining {x y : Lexer} {t : Token} (h : x.next = (y, .ok (some t))) :
    y.remaining < x.remaining := by
  unfold next at h
  split at h
  · simp at h
  · next hf =>
    split at h
    · simp only [Prod.mk.injEq] at h
      obtain ⟨rfl, -⟩ := h
      simp [remaining, hf]
    · next c cs hr =>
      split at h
      · next kind text rest hs =>
        simp only [Prod.mk.injEq] at h
        obtain ⟨rfl, -⟩ := h
        obtain ⟨ha, hn⟩ := Scan.head_token hs
        have hl := congrArg List.length ha
        have ht := List.length_pos_iff.2 hn
        simp only [List.length_append, List.length_cons] at hl
        simp only [remaining, hf, hr, List.length_cons, Bool.false_eq_true, if_false]
        omega
      · simp at h

def tokens (x : Lexer) : Except LexError (List Token) :=
  match _h : x.next with
  | (_, .error e) => .error e
  | (_, .ok none) => .ok []
  | (y, .ok (some t)) => y.tokens.map (t :: ·)
termination_by x.remaining
decreasing_by exact next_remaining _h

end Lexer

def lex (source : String) (dialect : Dialect) : Except LexError (List Token) :=
  (Lexer.ofText source dialect).tokens

end GameScript
