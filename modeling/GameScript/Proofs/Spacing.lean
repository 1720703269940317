import GameScript.Layout.Pack
import GameScript.Proofs.Lexing

namespace GameScript

open Scan

/-- A token, and whether a blank stands before it. -/
abbrev Piece := Bool × Token

/-- The rest of a text, read as pieces. The first mark says whether a blank has been read before. -/
inductive Spaced (d : Dialect) : Bool → Bool → List Char → List Piece → Prop
  | nil {afterValue apart : Bool} : Spaced d afterValue apart [] []
  | blank {afterValue apart : Bool} {c : Char} {cs : List Char} {ps : List Piece}
      (hc : isBlank c = true) (h : Spaced d afterValue true cs ps) : Spaced d afterValue apart (c :: cs) ps
  | token {afterValue apart : Bool} {c : Char} {cs rest : List Char} {t : Token} {ps : List Piece}
      (hs : head d afterValue c cs = .token t.kind t.text.toList rest) (ht : t.isTrivia = false)
      (h : Spaced d (t.endsValue d.mode) false rest ps) :
      Spaced d afterValue apart (c :: cs) ((apart, t) :: ps)

/-- The pieces are the tokens without trivia, and the marks say where trivia stood. -/
inductive Spread : Bool → List Token → List Piece → Prop
  | nil {apart : Bool} : Spread apart [] []
  | trivia {apart : Bool} {t : Token} {ts : List Token} {ps : List Piece} (ht : t.isTrivia = true)
      (h : Spread true ts ps) : Spread apart (t :: ts) ps
  | token {apart : Bool} {t : Token} {ts : List Token} {ps : List Piece} (ht : t.isTrivia = false)
      (h : Spread false ts ps) : Spread apart (t :: ts) ((apart, t) :: ps)

theorem Spread.tokens {apart : Bool} {ts : List Token} {ps : List Piece} (h : Spread apart ts ps) :
    ps.map Prod.snd = ts.filter fun t => !t.isTrivia := by
  induction h with
  | nil => rfl
  | trivia ht _ ih => simp [ht, ih]
  | token ht _ ih => simp [ht, ih]

theorem head_blank {d : Dialect} {afterValue : Bool} {c : Char} {cs : List Char} (hc : isBlank c = true) :
    head d afterValue c cs = .token .whitespace (c :: cs.takeWhile isBlank) (cs.dropWhile isBlank) := by
  unfold head
  rw [if_pos hc]
  rfl

theorem Reads.blank {d : Dialect} {afterValue left : Bool} {c : Char} {cs : List Char} {ts : List Token}
    (hc : isBlank c = true) (h : Reads d afterValue cs ts left []) :
    ∃ w ts', Reads d afterValue (c :: cs) (w :: ts') left [] ∧ w.isTrivia = true ∧
      (ts' = ts ∨ ∃ v, v.isTrivia = true ∧ ts = v :: ts') := by
  cases h with
  | done =>
    refine ⟨⟨.whitespace, String.ofList [c], .zero⟩, [], .token ?_ .done, rfl, .inl rfl⟩
    rw [head_blank hc]
    simp
  | @token _ _ c' cs rest _ t ts hs hr =>
    by_cases hc' : isBlank c' = true
    · rw [head_blank hc', Scan.token.injEq] at hs
      obtain ⟨hk, ht, rfl⟩ := hs
      have htrivia : t.isTrivia = true := by simp [Token.isTrivia, ← hk]
      refine ⟨⟨.whitespace, String.ofList (c :: c' :: cs.takeWhile isBlank), .zero⟩, ts, ?_, rfl,
        .inr ⟨t, htrivia, rfl⟩⟩
      rw [Token.leaves, if_pos htrivia] at hr
      refine .token ?_ hr
      rw [head_blank hc]
      simp [hc']
    · refine ⟨⟨.whitespace, String.ofList [c], .zero⟩, t :: ts, ?_, rfl, .inl rfl⟩
      refine .token ?_ (.token hs hr)
      rw [head_blank hc]
      simp [hc']

theorem Spaced.reads {d : Dialect} {afterValue apart : Bool} {cs : List Char} {ps : List Piece}
    (h : Spaced d afterValue apart cs ps) :
    ∃ ts left, Reads d afterValue cs ts left [] ∧ Spread apart ts ps := by
  induction h with
  | nil => exact ⟨[], _, .done, .nil⟩
  | blank hc _ ih =>
    obtain ⟨ts, left, hr, hs⟩ := ih
    obtain ⟨w, ts', hr', hw, rfl | ⟨v, hv, rfl⟩⟩ := hr.blank hc
    · exact ⟨_, left, hr', .trivia hw hs⟩
    · cases hs with
      | trivia _ hs => exact ⟨_, left, hr', .trivia hw hs⟩
      | token ht => rw [ht] at hv; cases hv
  | token hs ht _ ih =>
    obtain ⟨ts, left, hr, hsp⟩ := ih
    refine ⟨_, left, .token hs ?_, .token ht hsp⟩
    rwa [Token.leaves, ht]

theorem Spaced.lex {d : Dialect} {apart : Bool} {text : String} {ps : List Piece}
    (h : Spaced d false apart text.toList ps) :
    ∃ toks ts, lex text d = .ok toks ∧ List.Forall₂ Token.Same toks (ts ++ [Token.endAt .zero]) ∧
      Spread apart ts ps := by
  obtain ⟨ts, left, hr, hs⟩ := h.reads
  obtain ⟨toks, hok, hsame⟩ := Lexer.tokens_of_reads (x := Lexer.ofText text d) rfl hr .zero
  exact ⟨toks, ts, hok, hsame, hs⟩

namespace Token

/-- The lexer finds the token where a text begins with it. A symbol is found unless what follows makes
something else of it. -/
def Readable (d : Dialect) (afterValue : Bool) (t : Token) : Prop :=
  t.kind ≠ .symbol → ∃ c cs rest, t.text.toList = c :: cs ∧
    head d afterValue c (cs ++ rest) = .token t.kind (c :: cs) rest

def OneChar (t : Token) : Prop :=
  t.kind = .symbol → ∃ c, t.text.toList = [c]

structure Lexed (d : Dialect) (t : Token) : Prop where
  readable : t.Readable d false
  oneChar : t.OneChar
  isEof : t.isEof = false

end Token

theorem Reads.lexed {d : Dialect} {afterValue left : Bool} {cs rest : List Char} {ts : List Token}
    (h : Reads d afterValue cs ts left rest) : ∀ t ∈ ts, t.Lexed d := by
  induction h with
  | done => simp
  | @token _ _ c cs rest _ t ts hs _ ih =>
    refine List.forall_mem_cons.2 ⟨⟨fun hk => ?_, fun hk => ?_, ?_⟩, ih⟩
    · obtain ⟨happend, hne⟩ := head_token hs
      obtain ⟨c', text, ht⟩ := List.exists_cons_of_ne_nil hne
      rw [ht] at happend
      obtain ⟨rfl, rfl⟩ := List.cons.inj happend
      refine ⟨c', text, rest, ht, ?_⟩
      rw [← ht]
      exact head_anywhere hs hk
    · rw [hk] at hs
      exact ⟨c, head_symbol_text hs⟩
    · simpa [Token.isEof] using head_not_eof hs

theorem lexed_of_lex {source : String} {d : Dialect} {tokens : List Token} (h : lex source d = .ok tokens) :
    ∃ ts loc, tokens = ts ++ [Token.endAt loc] ∧ ∀ t ∈ ts, t.Lexed d := by
  obtain ⟨ts, loc, left, ht, hr, -⟩ := Lexer.reads_of_tokens (x := Lexer.ofText source d) rfl h
  exact ⟨ts, loc, ht, hr.lexed⟩

def Clear (d : Dialect) (rest : List Char) : Prop :=
  ∀ x ∈ rest.head?, d.isWordChar x = false ∧ (x = '.' → ∀ y ∈ rest.tail.head?, y.isDigit = false)

theorem Clear.stops {d : Dialect} {rest : List Char} (h : Clear d rest) (afterValue : Bool) {t : Token}
    (hk : t.kind ≠ .symbol) (ht : t.isTrivia = false) (he : t.isEof = false) :
    Stops d afterValue t.kind t.text.toList rest := by
  cases hkind : t.kind with
  | identifier | resource => exact fun x hx => (h x hx).1
  | number => exact h
  | string | metaString => trivial
  | symbol => exact absurd hkind hk
  | comment | whitespace => simp [Token.isTrivia, hkind] at ht
  | eof => simp [Token.isEof, hkind] at he

theorem Token.Readable.spaced {d : Dialect} {afterValue apart : Bool} {t : Token} {rest : List Char}
    {ps : List Piece} (h : t.Readable d afterValue) (hk : t.kind ≠ .symbol) (ht : t.isTrivia = false)
    (hstops : Stops d afterValue t.kind t.text.toList rest)
    (hr : Spaced d (t.endsValue d.mode) false rest ps) :
    Spaced d afterValue apart (t.text.toList ++ rest) ((apart, t) :: ps) := by
  obtain ⟨c, cs, rest', htext, hs⟩ := h hk
  rw [htext] at hstops ⊢
  refine .token ?_ ht hr
  rw [htext]
  exact head_behind hs hstops

end GameScript
