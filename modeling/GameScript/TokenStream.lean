import GameScript.Token

/-!
A cursor over a token sequence that always ends with an end-of-input token. Committed reads advance
`cursor`; lookahead advances `ahead`, and the tokens between the two wait to be read again.
-/

namespace GameScript

structure TokenStream where
  tokens : Array Token
  cursor : Nat
  ahead : Nat
  last : Option Nat
  tokens_pos : 0 < tokens.size

namespace TokenStream

def closed (tokens : List Token) : List Token :=
  match tokens.getLast? with
  | none => [Token.endAt .zero]
  | some t => if t.isEof then tokens else tokens ++ [Token.endAt t.stop]

theorem closed_length_pos (tokens : List Token) : 0 < (closed tokens).length := by
  unfold closed
  split
  · simp
  · next t h =>
    split
    · cases tokens <;> simp at h ⊢
    · simp

@[simp] theorem closed_endAt (tokens : List Token) (loc : Location) :
    closed (tokens ++ [Token.endAt loc]) = tokens ++ [Token.endAt loc] := by
  simp [closed, Token.isEof_endAt]

def ofList (tokens : List Token) : TokenStream :=
  ⟨(closed tokens).toArray, 0, 0, none, by simpa using closed_length_pos tokens⟩

def size (s : TokenStream) : Nat :=
  s.tokens.size

def tokenAt (s : TokenStream) (i : Nat) : Token :=
  have : min i (s.tokens.size - 1) < s.tokens.size := by
    have := s.tokens_pos
    omega
  s.tokens[min i (s.tokens.size - 1)]

def read (s : TokenStream) : Token × TokenStream :=
  let cursor := min (s.cursor + 1) s.size
  (s.tokenAt s.cursor, { s with cursor := cursor, ahead := max s.ahead cursor, last := some s.cursor })

def readAhead (s : TokenStream) : Token × TokenStream :=
  (s.tokenAt s.ahead, { s with ahead := min (s.ahead + 1) s.size })

def defer (s : TokenStream) : TokenStream :=
  match s.last with
  | some i => { s with cursor := i, last := none }
  | none => s

def commit (s : TokenStream) (n : Nat) : TokenStream :=
  { s with cursor := min (s.cursor + n) s.ahead }

/-- Indices and counts are words of this many values. -/
def wordSize : Nat :=
  UInt64.size

/-- Commits as many buffered tokens as the caller asks for. A sum that is no word wraps around. -/
def discard (s : TokenStream) (n : Nat) : TokenStream :=
  { s with cursor := min ((s.cursor + n) % wordSize) s.ahead }

theorem discard_eq_commit {s : TokenStream} {n : Nat} (h : s.cursor + n < wordSize) : s.discard n = s.commit n := by
  rw [discard, Nat.mod_eq_of_lt h, commit]

def symbolsFrom (s : TokenStream) (allowed : List Char) : Nat → Nat → List Char
  | _, 0 => []
  | i, limit + 1 =>
    match (s.tokenAt i).symbol? with
    | some c => if allowed.contains c then c :: s.symbolsFrom allowed (i + 1) limit else []
    | none => []

/-- The run of adjacent allowed symbols behind the committed cursor. The run stays buffered. -/
def symbols (s : TokenStream) (allowed : List Char) (limit : Nat) : List Char × TokenStream :=
  let run := s.symbolsFrom allowed s.cursor limit
  (run, { s with ahead := min (s.cursor + run.length) s.size })

def peekAt (s : TokenStream) (n : Nat) : Token :=
  s.tokenAt ((s.cursor + n) % wordSize)

def peek (s : TokenStream) : Token :=
  s.tokenAt s.cursor

def peekSignificant (s : TokenStream) : Token :=
  ((s.tokens.toList.drop s.cursor).find? fun t => !t.isTrivia).getD (s.tokenAt s.size)

def unread (s : TokenStream) : TokenStream :=
  { s with cursor := s.cursor - 1, last := none }

def mark (s : TokenStream) : Nat :=
  s.cursor

def reset (s : TokenStream) (mark : Nat) : TokenStream :=
  { s with cursor := min mark s.size, ahead := min mark s.size, last := none }

def progress (s : TokenStream) : Float32 :=
  fraction s.cursor s.size

def isExhausted (s : TokenStream) : Bool :=
  s.size ≤ s.cursor

def buffered (s : TokenStream) : Nat :=
  s.ahead - s.cursor

end TokenStream

end GameScript
