import GameScript.Proofs.Spacing
import GameScript.Proofs.Termination

namespace GameScript

inductive Shown : Bool → List Token → List Piece → Prop
  | nil {apart : Bool} : Shown apart [] []
  | trivia {apart : Bool} {t : Token} {ts : List Token} {ps : List Piece} (ht : t.isTrivia = true)
      (h : Shown true ts ps) : Shown apart (t :: ts) ps
  | token {apart : Bool} {t u : Token} {ts : List Token} {ps : List Piece} (hs : t.Same u)
      (hu : u.isTrivia = false) (h : Shown false ts ps) : Shown apart (t :: ts) ((apart, u) :: ps)

theorem Spread.shown {apart : Bool} {ts toks : List Token} {ps : List Piece} (h : Spread apart ts ps)
    (hs : List.Forall₂ Token.Same toks ts) : Shown apart toks ps := by
  induction h generalizing toks with
  | nil =>
    cases hs
    exact .nil
  | trivia ht _ ih =>
    cases hs with
    | cons hs hrest => exact .trivia (hs.isTrivia.trans ht) (ih hrest)
  | token ht _ ih =>
    cases hs with
    | cons hs hrest => exact .token hs ht (ih hrest)

theorem Spread.snoc {apart : Bool} {ts : List Token} {ps : List Piece} (h : Spread apart ts ps) {t : Token}
    (ht : t.isTrivia = false) : ∃ a, Spread apart (ts ++ [t]) (ps ++ [(a, t)]) := by
  induction h with
  | nil => exact ⟨_, .token ht .nil⟩
  | trivia hu _ ih => exact ih.imp fun _ h => .trivia hu h
  | token hu _ ih => exact ih.imp fun _ h => .token hu h

theorem Spaced.shows {d : Dialect} {apart : Bool} {text : String} {ps : List Piece}
    (h : Spaced d false apart text.toList ps) : ∃ toks last, GameScript.lex text d = .ok toks ∧
      Shown apart (TokenStream.closed toks) (ps ++ [(last, Token.endAt .zero)]) := by
  obtain ⟨toks, us, hok, hsame, hspread⟩ := h.lex
  obtain ⟨last, hend⟩ := hspread.snoc (Token.isTrivia_endAt .zero)
  have hshown := hend.shown hsame
  obtain ⟨ts, loc, rfl, -⟩ := lexed_of_lex hok
  rw [← TokenStream.closed_endAt] at hshown
  exact ⟨_, last, hok, hshown⟩

def joined : List Piece → List Char
  | (false, t) :: ps =>
    match t.symbol? with
    | some c => c :: joined ps
    | none => []
  | _ => []

@[simp] theorem joined_apart (t : Token) (ps : List Piece) : joined ((true, t) :: ps) = [] := rfl

theorem Shown.head_apart {apart : Bool} {ts : List Token} {ps : List Piece} (h : Shown apart ts ps)
    (ha : apart = true) : ∀ p ∈ ps.head?, p.1 = true := by
  induction h with
  | nil => simp
  | trivia _ _ ih => exact ih rfl
  | token => simpa using ha

theorem Shown.joined_eq_nil {ts : List Token} {ps : List Piece} (h : Shown true ts ps) : joined ps = [] := by
  cases ps with
  | nil => rfl
  | cons p ps =>
    obtain ⟨apart, t⟩ := p
    obtain rfl : apart = true := h.head_apart rfl (apart, t) (by simp)
    rfl

namespace TokenStream

theorem drop_eq_tokenAt {s : TokenStream} {i : Nat} {t : Token} {ts : List Token}
    (h : s.tokens.toList.drop i = t :: ts) : s.tokenAt i = t ∧ i < s.size ∧ s.tokens.toList.drop (i + 1) = ts := by
  have hlt : i < s.tokens.toList.length := by
    apply Nat.lt_of_not_le
    intro hle
    rw [List.drop_eq_nil_of_le hle] at h
    cases h
  rw [List.drop_eq_getElem_cons hlt] at h
  obtain ⟨ht, hts⟩ := List.cons.inj h
  have hsize : i < s.size := by simpa [size] using hlt
  refine ⟨?_, hsize, hts⟩
  rw [← ht]
  simp only [tokenAt, size, Array.getElem_toList] at hsize ⊢
  congr
  omega

theorem Closed.symbol_of_drop_nil {s : TokenStream} (hs : s.Closed) {i : Nat} (h : s.tokens.toList.drop i = []) :
    (s.tokenAt i).symbol? = none := by
  have hle : s.size ≤ i := by simpa [size] using List.drop_eq_nil_iff.1 h
  have heof := hs.eof
  rw [← tokenAt_of_size_le hle, Token.isEof, beq_iff_eq] at heof
  exact Token.symbol?_eq_none_of_kind (by simp [heof])

theorem Closed.symbolsFrom_eq {s : TokenStream} (hs : s.Closed) (allowed : List Char) {i : Nat} {ps : List Piece}
    (h : Shown false (s.tokens.toList.drop i) ps) (limit : Nat) :
    s.symbolsFrom allowed i limit = ((joined ps).takeWhile allowed.contains).take limit := by
  induction limit generalizing i ps with
  | zero => simp [symbolsFrom]
  | succ limit ih =>
    rw [symbolsFrom]
    generalize hd : s.tokens.toList.drop i = ts at h
    cases h with
    | nil => simp [hs.symbol_of_drop_nil hd, joined]
    | @trivia _ t ts ps ht h =>
      obtain ⟨hat, -, -⟩ := drop_eq_tokenAt hd
      have hk : t.kind ≠ .symbol := by
        intro hk
        simp [Token.isTrivia, hk] at ht
      rw [hat, Token.symbol?_eq_none_of_kind hk, h.joined_eq_nil]
      rfl
    | @token _ t u ts ps hsame _ h =>
      obtain ⟨hat, -, hnext⟩ := drop_eq_tokenAt hd
      rw [hat, hsame.symbol?, joined]
      cases hc : u.symbol? with
      | none => rfl
      | some c =>
        simp only
        by_cases ha : allowed.contains c = true
        · rw [if_pos ha, ih (hnext ▸ h), List.takeWhile_cons_of_pos ha, List.take_succ_cons]
        · rw [if_neg ha, List.takeWhile_cons_of_neg ha, List.take_nil]

def Shows (s : TokenStream) (ps : List Piece) : Prop :=
  ∃ apart, Shown apart (s.tokens.toList.drop s.cursor) ps

structure Delivers (s : TokenStream) (t : Token) (ps : List Piece) : Prop where
  closed : s.Closed
  behind : Shown false (s.tokens.toList.drop s.cursor) ps
  here : ∃ i ∈ s.last, s.tokens.toList.drop i = t :: s.tokens.toList.drop s.cursor

theorem Delivers.shows {s : TokenStream} {t : Token} {ps : List Piece} (h : s.Delivers t ps) : s.Shows ps :=
  ⟨false, h.behind⟩

theorem Delivers.defer {s : TokenStream} {t u : Token} {apart : Bool} {ps : List Piece} (h : s.Delivers t ps)
    (hs : t.Same u) (hu : u.isTrivia = false) : s.defer.Shows ((apart, u) :: ps) := by
  obtain ⟨i, hi, hd⟩ := h.here
  refine ⟨apart, ?_⟩
  simp only [TokenStream.defer, Option.mem_def.1 hi, hd]
  exact .token hs hu h.behind

theorem Takes.behind {s s' : TokenStream} {more : List Token} (h : s.Takes more s') {us : List Piece}
    {ps : List Piece} (hs : Shown false (s.tokens.toList.drop s.cursor) (us ++ ps)) (hus : ∀ u ∈ us, u.1 = false)
    (hl : us.length = more.length) : Shown false (s'.tokens.toList.drop s'.cursor) ps := by
  rw [h.tokens, h.cursor, ← hl, ← List.drop_drop]
  clear hl h
  generalize s.tokens.toList.drop s.cursor = ts at hs
  induction us generalizing ts with
  | nil => exact hs
  | cons u us ih =>
    obtain ⟨hu, hrest⟩ := List.forall_mem_cons.1 hus
    cases hs with
    | trivia _ h =>
      have := h.head_apart rfl u (by simp)
      simp [hu] at this
    | token _ _ h => exact ih hrest _ h

end TokenStream

namespace Session

def Reaches (s s' : Session) : Prop :=
  ∃ n, steps n s = s'

theorem Reaches.refl (s : Session) : s.Reaches s :=
  ⟨0, rfl⟩

theorem Reaches.trans {s s' s'' : Session} (h : s.Reaches s') (h' : s'.Reaches s'') : s.Reaches s'' := by
  obtain ⟨m, rfl⟩ := h
  obtain ⟨n, rfl⟩ := h'
  exact ⟨m + n, steps_add m n s⟩

theorem Reaches.step {s : Session} (hf : s.isFinished = false) : s.Reaches s.step := by
  refine ⟨1, ?_⟩
  simp [steps, hf]

theorem Reaches.run_eq {tokens : List Token} {config : ParserConfig} {s : Session}
    (h : (ofTokens tokens config).Reaches s) (hf : s.isFinished = true) : (ofTokens tokens config).run = s := by
  obtain ⟨n, rfl⟩ := h
  exact run_eq_steps hf

theorem reaches_dispatch {s : Session} {apart : Bool} {u : Token} {ps : List Piece} (hf : s.isFinished = false)
    (hc : s.stream.Closed) (h : s.stream.Shows ((apart, u) :: ps)) :
    ∃ t stream, t.Same u ∧ stream.Delivers t ps ∧ s.Reaches ({ s with stream := stream }.dispatch t) := by
  obtain ⟨apart', h⟩ := h
  generalize hd : s.stream.tokens.toList.drop s.stream.cursor = ts at h
  generalize hp : (apart, u) :: ps = qs at h
  induction h generalizing s with
  | nil => cases hp
  | @trivia _ t ts _ ht _ ih =>
    obtain ⟨hat, hlt, hnext⟩ := TokenStream.drop_eq_tokenAt hd
    have hread : s.step = { s with stream := s.stream.read.2 } := by
      have ht' : s.stream.read.1.isTrivia = true := by rwa [TokenStream.read, hat]
      simp [Session.step, hf, ht']
    have hcursor : s.stream.read.2.cursor = s.stream.cursor + 1 := by
      simp only [TokenStream.read]
      omega
    obtain ⟨t', stream, hs, hd', hr⟩ := ih (s := { s with stream := s.stream.read.2 }) hf hc.read
      (by rw [hcursor]; exact hnext) hp
    exact ⟨t', stream, hs, hd', (hread ▸ Reaches.step hf).trans hr⟩
  | @token _ t u' ts ps' hs hu h =>
    obtain ⟨hau, rfl⟩ := List.cons.inj hp
    obtain ⟨rfl, rfl⟩ := Prod.mk.inj hau
    obtain ⟨hat, hlt, hnext⟩ := TokenStream.drop_eq_tokenAt hd
    have hcursor : s.stream.read.2.cursor = s.stream.cursor + 1 := by
      simp only [TokenStream.read]
      omega
    have ht : s.stream.read.1 = t := hat
    refine ⟨t, s.stream.read.2, hs, ⟨hc.read, ?_, s.stream.cursor, rfl, ?_⟩, ?_⟩
    · rw [hcursor]
      exact hnext.symm ▸ h
    · rw [hcursor]
      exact hd.trans (hnext ▸ rfl)
    · have hstep : s.step = { s with stream := s.stream.read.2 }.dispatch t := by
        have ht' : t.isTrivia = false := hs.isTrivia.trans hu
        simp [Session.step, hf, ht, ht']
      exact hstep ▸ Reaches.step hf

end Session

end GameScript
