import GameScript.Proofs.Boundary
import Mathlib.Data.List.Forall2

/-!
The tokens of a text as a relation that composes: a text is read token by token, each with all that
follows it at hand. Where the tokens stand is a matter of its own.
-/

namespace GameScript

namespace Token

def Same (t u : Token) : Prop :=
  t.kind = u.kind ∧ t.text = u.text

theorem Same.refl (t : Token) : t.Same t := ⟨rfl, rfl⟩

theorem Same.isTrivia {t u : Token} (h : t.Same u) : t.isTrivia = u.isTrivia := by
  simp [Token.isTrivia, h.1]

theorem Same.isEof {t u : Token} (h : t.Same u) : t.isEof = u.isEof := by
  simp [Token.isEof, h.1]

theorem Same.symbol? {t u : Token} (h : t.Same u) : t.symbol? = u.symbol? := by
  simp [Token.symbol?, h.1, h.2]

theorem Same.endsValue {t u : Token} (h : t.Same u) (mode : GameMode) : t.endsValue mode = u.endsValue mode := by
  simp [Token.endsValue, Token.keyword?, Token.isSymbol, Token.symbol?, h.1, h.2]

def leaves (t : Token) (mode : GameMode) (afterValue : Bool) : Bool :=
  if t.isTrivia then afterValue else t.endsValue mode

def Placed : Location → List Token → Prop
  | _, [] => True
  | loc, t :: ts => t.loc = loc ∧ Placed t.stop ts

theorem Placed.left {loc : Location} {ts us : List Token} (h : Placed loc (ts ++ us)) : Placed loc ts := by
  induction ts generalizing loc with
  | nil => trivial
  | cons t ts ih => exact ⟨h.1, ih h.2⟩

theorem Placed.unique {loc : Location} {ts us : List Token} (ht : Placed loc ts) (hu : Placed loc us)
    (h : List.Forall₂ Same ts us) : ts = us := by
  induction h generalizing loc with
  | nil => rfl
  | @cons t u ts us hsame _ ih =>
    obtain ⟨hk, htext⟩ := hsame
    have htu : t = u := by
      obtain ⟨kind, text, loc'⟩ := t
      obtain ⟨kind', text', loc''⟩ := u
      obtain rfl : kind = kind' := hk
      obtain rfl : text = text' := htext
      rw [show loc' = loc from ht.1, show loc'' = loc from hu.1]
    subst htu
    rw [ih ht.2 hu.2]

end Token

inductive Reads (d : Dialect) : Bool → List Char → List Token → Bool → List Char → Prop
  | done {afterValue : Bool} {rest : List Char} : Reads d afterValue rest [] afterValue rest
  | token {afterValue left : Bool} {c : Char} {cs rest end' : List Char} {t : Token} {ts : List Token}
      (h : Scan.head d afterValue c cs = .token t.kind t.text.toList rest)
      (hr : Reads d (t.leaves d.mode afterValue) rest ts left end') :
      Reads d afterValue (c :: cs) (t :: ts) left end'

namespace Reads

variable {d : Dialect} {afterValue middle left : Bool}

theorem append {cs cs' rest : List Char} {ts us : List Token} (h : Reads d afterValue cs ts middle cs')
    (h' : Reads d middle cs' us left rest) : Reads d afterValue cs (ts ++ us) left rest := by
  induction h with
  | done => exact h'
  | token hs _ ih => exact .token hs (ih h')

end Reads

namespace Lexer

def behind (x : Lexer) (t : Token) (rest : List Char) : Lexer :=
  { x with
    rest := rest, loc := x.loc.after t.text.toList, last := if t.isTrivia then x.last else some t }

theorem afterValue_behind (x : Lexer) (t : Token) (rest : List Char) :
    (x.behind t rest).afterValue = t.leaves x.dialect.mode x.afterValue := by
  unfold afterValue behind Token.leaves
  cases t.isTrivia <;> rfl

theorem next_token {x : Lexer} {c : Char} {cs text rest : List Char} {kind : TokenKind}
    (hf : x.finished = false) (hr : x.rest = c :: cs)
    (h : Scan.head x.dialect x.afterValue c cs = .token kind text rest) :
    x.next = (x.behind ⟨kind, String.ofList text, x.loc⟩ rest, .ok (some ⟨kind, String.ofList text, x.loc⟩)) := by
  unfold next behind
  simp [hf, hr, h]

theorem tokens_token {x : Lexer} {c : Char} {cs text rest : List Char} {kind : TokenKind}
    (hf : x.finished = false) (hr : x.rest = c :: cs)
    (h : Scan.head x.dialect x.afterValue c cs = .token kind text rest) :
    x.tokens = (x.behind ⟨kind, String.ofList text, x.loc⟩ rest).tokens.map
      (⟨kind, String.ofList text, x.loc⟩ :: ·) := by
  rw [tokens]
  split
  · next he => simp [next_token hf hr h] at he
  · next he => simp [next_token hf hr h] at he
  · next he =>
    rw [next_token hf hr h] at he
    simp only [Prod.mk.injEq, Except.ok.injEq, Option.some.injEq] at he
    obtain ⟨rfl, rfl⟩ := he
    rfl

theorem tokens_end {x : Lexer} (hf : x.finished = false) (hr : x.rest = []) :
    x.tokens = .ok [Token.endAt x.loc] := by
  have hn : x.next = ({ x with finished := true }, .ok (some (Token.endAt x.loc))) := by
    simp [next, hf, hr]
  have hd : { x with finished := true }.tokens = .ok [] := by
    rw [tokens]
    simp [next]
  rw [tokens]
  split
  · next he => simp [hn] at he
  · next he => simp [hn] at he
  · next he =>
    rw [hn] at he
    simp only [Prod.mk.injEq, Except.ok.injEq, Option.some.injEq] at he
    obtain ⟨rfl, rfl⟩ := he
    rw [hd]
    rfl

theorem tokens_of_reads {x : Lexer} {ts : List Token} {left : Bool} (hf : x.finished = false)
    (h : Reads x.dialect x.afterValue x.rest ts left []) (loc : Location) :
    ∃ toks, x.tokens = .ok toks ∧ List.Forall₂ Token.Same toks (ts ++ [Token.endAt loc]) := by
  generalize hd : x.dialect = d at h
  generalize ha : x.afterValue = av at h
  generalize hr : x.rest = cs at h
  generalize hn : ([] : List Char) = end' at h
  induction h generalizing x with
  | done =>
    subst hn
    exact ⟨_, tokens_end hf hr, .cons ⟨rfl, rfl⟩ .nil⟩
  | @token av _ c cs rest _ t ts hs _ ih =>
    have hs' := hs
    rw [← hd, ← ha] at hs'
    have ht := tokens_token hf hr hs'
    have hb := afterValue_behind x ⟨t.kind, t.text, x.loc⟩ rest
    obtain ⟨toks, hok, hsame⟩ := ih (x := x.behind ⟨t.kind, t.text, x.loc⟩ rest) hf hd
      (by rw [hb, hd, ha]; rfl) rfl hn
    rw [String.ofList_toList] at ht
    rw [ht, hok]
    exact ⟨_, rfl, .cons ⟨rfl, rfl⟩ hsame⟩

theorem reads_of_tokens {x : Lexer} {toks : List Token} (hf : x.finished = false) (h : x.tokens = .ok toks) :
    ∃ ts loc left, toks = ts ++ [Token.endAt loc] ∧ Reads x.dialect x.afterValue x.rest ts left [] ∧
      Token.Placed x.loc toks := by
  generalize hn : x.rest.length = n
  induction n using Nat.strongRecOn generalizing x toks with
  | ind n ih =>
    cases hr : x.rest with
    | nil =>
      rw [tokens_end hf hr] at h
      cases h
      exact ⟨[], x.loc, _, rfl, .done, rfl, trivial⟩
    | cons c cs =>
      cases hs : Scan.head x.dialect x.afterValue c cs with
      | failure kind read rest =>
        rw [tokens] at h
        split at h
        · cases h
        · next he => simp [next, hf, hr, hs] at he
        · next he => simp [next, hf, hr, hs] at he
      | token kind text rest =>
        rw [tokens_token hf hr hs] at h
        obtain ⟨ha, hne⟩ := Scan.head_token hs
        cases hok : (x.behind ⟨kind, String.ofList text, x.loc⟩ rest).tokens with
        | error e =>
          rw [hok] at h
          cases h
        | ok toks' =>
          rw [hok] at h
          cases h
          have hlt : rest.length < n := by
            have hl := congrArg List.length ha
            have hp := List.length_pos_iff.2 hne
            simp only [List.length_append] at hl
            rw [← hn, hr]
            omega
          obtain ⟨ts, loc, left, rfl, hread, hplaced⟩ :=
            ih rest.length hlt (x := x.behind ⟨kind, String.ofList text, x.loc⟩ rest) hf hok rfl
          refine ⟨⟨kind, String.ofList text, x.loc⟩ :: ts, loc, left, rfl, ?_, rfl, hplaced⟩
          rw [afterValue_behind] at hread
          exact .token (by simpa [behind] using hs) hread

end Lexer

theorem lex_of_reads {source : String} {d : Dialect} {ts : List Token} {left : Bool} {loc : Location}
    (h : Reads d false source.toList ts left []) (hp : Token.Placed .start (ts ++ [Token.endAt loc])) :
    lex source d = .ok (ts ++ [Token.endAt loc]) := by
  obtain ⟨toks, hok, hsame⟩ := Lexer.tokens_of_reads (x := Lexer.ofText source d) rfl h loc
  obtain ⟨_, _, _, -, -, hplaced⟩ := Lexer.reads_of_tokens (x := Lexer.ofText source d) rfl hok
  rw [← hplaced.unique hp hsame]
  exact hok

end GameScript
