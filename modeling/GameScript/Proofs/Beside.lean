import GameScript.Proofs.Abreast
import GameScript.Proofs.Braces

namespace GameScript

theorem Spread.shown_self {apart : Bool} {ts : List Token} {ps : List Piece} (h : Spread apart ts ps) : Shown apart ts ps :=
  h.shown (List.forall₂_same.2 fun t _ => .refl t)

def significant : Bool → List Token → List Piece
  | _, [] => []
  | apart, t :: ts => if t.isTrivia then significant true ts else (apart, t) :: significant false ts

theorem spread_significant (apart : Bool) (ts : List Token) : Spread apart ts (significant apart ts) := by
  induction ts generalizing apart with
  | nil => exact .nil
  | cons t ts ih =>
    unfold significant
    split
    · next ht => exact .trivia ht (ih true)
    · next ht => exact .token (by simpa using ht) (ih false)

theorem Spread.significant_eq {apart : Bool} {ts : List Token} {ps : List Piece} (h : Spread apart ts ps) :
    significant apart ts = ps := by
  induction h with
  | nil => rfl
  | trivia ht _ ih => rw [significant, if_pos ht, ih]
  | token ht _ ih => rw [significant, if_neg (by simp [ht]), ih]

theorem Spread.length {apart : Bool} {ts : List Token} {ps : List Piece} (h : Spread apart ts ps) :
    (ts.filter fun t => !t.isTrivia).length = ps.length := by
  rw [← h.tokens, List.length_map]

theorem Spread.drop {apart : Bool} {ts : List Token} {ps : List Piece} (h : Spread apart ts ps) {i : Nat} {t : Token}
    {rest : List Token} (hi : ts.drop i = t :: rest) (ht : t.isTrivia = false) :
    ∃ b qs, ps.drop ((ts.take i).filter fun t => !t.isTrivia).length = (b, t) :: qs ∧ Spread false rest qs := by
  induction h generalizing i with
  | nil => simp at hi
  | trivia hu _ ih =>
    cases i with
    | zero =>
      obtain ⟨rfl, -⟩ := List.cons.inj hi
      rw [ht] at hu
      cases hu
    | succ i => simpa [hu] using ih hi
  | token hu h ih =>
    cases i with
    | zero =>
      obtain ⟨rfl, rfl⟩ := List.cons.inj hi
      exact ⟨_, _, rfl, h⟩
    | succ i => simpa [hu] using ih hi

theorem Spread.recast (r : Recast) {apart : Bool} {ts : List Token} {ps : List Piece} (h : Spread apart ts ps) :
    Spread apart (ts.map r.token) (ps.map fun p => (p.1, r.token p.2)) := by
  induction h with
  | nil => exact .nil
  | trivia ht _ ih => exact .trivia ht ih
  | token ht _ ih => exact .token ht ih

namespace Guise

/-- The pieces are the same behind the token. Symbols that are apart in the first list only are in no spelling next to
each other. If the ends are not paired, something else may stand where the first list ends. -/
inductive Pairs (g : Guise) (ends : Prop) : Token → List Piece → List Piece → Prop
  | nil {t : Token} : Pairs g ends t [] []
  | cons {t u : Token} {apart apart' : Bool} {ps ps' : List Piece}
      (ha : ∀ c d, t.symbol? = some c → u.symbol? = some d →
        apart' = apart ∨ apart = true ∧ apart' = false ∧ Pack.charsJoin c d = false)
      (h : Pairs g ends u ps ps') : Pairs g ends t ((apart, u) :: ps) ((apart', g.token u) :: ps')
  | stop {t e : Token} {apart : Bool} {ps' : List Piece} (hends : ¬ends) (he : e.isEof = true)
      (hj : ∀ c, t.symbol? = some c → ∀ d ∈ (joined ps').head?, Pack.charsJoin c d = false) :
      Pairs g ends t [(apart, e)] ps'

namespace Pairs

variable {g : Guise} {ends : Prop} {t : Token} {ps ps' : List Piece}

theorem joined (h : g.Pairs ends t ps ps') {first : Char} (hc : t.symbol? = some first) (allowed : List Char) (limit : Nat) :
    Pack.Extends first (((joined ps).takeWhile allowed.contains).take limit)
      (((GameScript.joined ps').takeWhile allowed.contains).take limit) := by
  induction h generalizing first limit with
  | nil => exact .refl _ _
  | @stop t e apart ps' _ he hj =>
    have hsymbol : e.symbol? = none :=
      Token.symbol?_eq_none_of_kind (by rw [Token.isEof, beq_iff_eq] at he; simp [he])
    have hempty : GameScript.joined [(apart, e)] = [] := by cases apart <;> simp [GameScript.joined, hsymbol]
    rw [hempty, List.takeWhile_nil, List.take_nil]
    exact .of_apart (hj first hc) _ _
  | @cons t u apart apart' ps ps' ha _ ih =>
    have hu : (g.token u).symbol? = u.symbol? := Recast.symbol?_token u
    cases hd : u.symbol? with
    | none =>
      have hnone (a : Bool) (v : Token) (hv : v.symbol? = none) (qs : List Piece) : GameScript.joined ((a, v) :: qs) = [] := by
        cases a <;> simp [GameScript.joined, hv]
      rw [hnone _ _ hd, hnone _ _ (hu.trans hd)]
      exact .refl _ _
    | some d =>
      have hjoined (v : Token) (hv : v.symbol? = some d) (qs : List Piece) :
          GameScript.joined ((false, v) :: qs) = d :: GameScript.joined qs := by
        simp [GameScript.joined, hv]
      obtain rfl | ⟨rfl, rfl, hcd⟩ := ha first d hc hd
      · cases apart' with
        | true => exact .refl _ _
        | false =>
          rw [hjoined _ hd, hjoined _ (hu.trans hd)]
          cases limit with
          | zero => exact .refl _ _
          | succ limit =>
            by_cases hallowed : allowed.contains d = true
            · rw [List.takeWhile_cons_of_pos hallowed, List.takeWhile_cons_of_pos hallowed]
              exact (ih hd limit).cons
            · rw [List.takeWhile_cons_of_neg hallowed, List.takeWhile_cons_of_neg hallowed]
              exact .refl _ _
      · rw [joined_apart, List.takeWhile_nil, List.take_nil]
        refine .of_apart (fun d' hd' => ?_) _ _
        rw [hjoined _ (hu.trans hd)] at hd'
        obtain rfl : d = d' := by simpa using hd'
        exact hcd

theorem drop {t u : Token} {ps ps' qs : List Piece} {apart : Bool} {n : Nat} (h : g.Pairs ends t ps ps')
    (hn : ps.drop n = (apart, u) :: qs) (hu : ends ∨ u.isEof = false) :
    ∃ apart' qs', ps'.drop n = (apart', g.token u) :: qs' ∧ g.Pairs ends u qs qs' := by
  induction h generalizing n with
  | nil => simp at hn
  | stop hends he =>
    cases n with
    | zero =>
      obtain ⟨hp, -⟩ := List.cons.inj hn
      obtain ⟨-, rfl⟩ := Prod.mk.inj hp
      rw [he] at hu
      exact absurd hu (by simp [hends])
    | succ n => simp at hn
  | cons ha h ih =>
    cases n with
    | zero =>
      obtain ⟨hp, rfl⟩ := List.cons.inj hn
      obtain ⟨rfl, rfl⟩ := Prod.mk.inj hp
      exact ⟨_, _, rfl, h⟩
    | succ n => exact ih hn

theorem self (g : Guise) (ends : Prop) (t : Token) (ps : List Piece) :
    g.Pairs ends t ps (ps.map fun p => (p.1, g.token p.2)) := by
  induction ps generalizing t with
  | nil => exact .nil
  | cons p ps ih => exact .cons (fun _ _ _ _ => .inl rfl) (ih p.2)

theorem length (h : g.Pairs ends t ps ps') (hends : ends) : ps.length = ps'.length := by
  induction h with
  | nil => rfl
  | cons _ _ ih => rw [List.length_cons, List.length_cons, ih]
  | stop hn => exact absurd hends hn

end Pairs

end Guise

namespace TokenStream

theorem significantBefore_succ {s : TokenStream} {i : Nat} (h : i < s.size) : s.significantBefore (i + 1) =
    if (s.tokenAt i).isTrivia then s.significantBefore i else s.significantBefore i + 1 := by
  unfold significantBefore
  rw [take_succ h]
  cases ht : (s.tokenAt i).isTrivia <;> simp [ht]

theorem tokenAt_size (s : TokenStream) : s.tokenAt s.size = s.tokenAt (s.size - 1) := by
  simp only [tokenAt, size]
  congr 1
  omega

theorem Closed.last_significant {s : TokenStream} (h : s.Closed) : (s.tokenAt (s.size - 1)).isTrivia = false := by
  have heof := h.eof
  rw [tokenAt_size, Token.isEof, beq_iff_eq] at heof
  simp [Token.isTrivia, heof]

theorem Closed.significantBefore_size {s : TokenStream} (h : s.Closed) :
    s.significantBefore s.size = s.significantBefore (s.size - 1) + 1 := by
  have hpos : 0 < s.size := s.tokens_pos
  have hlt : s.size - 1 < s.size := Nat.sub_lt hpos Nat.one_pos
  have hsucc := significantBefore_succ hlt
  rwa [h.last_significant, if_neg Bool.false_ne_true, Nat.sub_add_cancel hpos] at hsucc

structure Delivery (s s' : TokenStream) (i : Nat) : Prop where
  tokens : s'.tokens = s.tokens
  last : s'.last = some i
  cursor : s'.cursor = min (i + 1) s.size
  within : i ≤ s.size
  significant : (s.tokenAt i).isTrivia = false
  skipped : s.significantBefore i = s.significantBefore s.cursor

/-- The second stream has the pieces of the first one behind the skipped ones. -/
def Beside (g : Guise) (ends : Prop) (a b : TokenStream) : Prop :=
  ∃ t ps front qs, Spread false a.tokens.toList ps ∧ Spread false b.tokens.toList (front ++ qs) ∧ front.length = g.skipped ∧
    g.Pairs ends t ps qs

variable {g : Guise} {ends : Prop} {a b a' b' : TokenStream} {i j : Nat}

theorem Beside.token (h : Beside g ends a b) (hi : i < a.size) (hj : j ≤ b.size) (ha : (a.tokenAt i).isTrivia = false)
    (hb : (b.tokenAt j).isTrivia = false) (hij : b.significantBefore j = g.skipped + a.significantBefore i)
    (he : ends ∨ (a.tokenAt i).isEof = false) : j < b.size ∧ b.tokenAt j = g.token (a.tokenAt i) ∧ ∃ qs qs',
      Spread false (a.tokens.toList.drop (i + 1)) qs ∧ Spread false (b.tokens.toList.drop (j + 1)) qs' ∧
        g.Pairs ends (a.tokenAt i) qs qs' := by
  obtain ⟨t, ps, front, ps', hs, hs', hfront, hp⟩ := h
  obtain ⟨_, qs, hps, hqs⟩ := hs.drop (drop_eq_cons hi) ha
  obtain ⟨apart, qs', hdrop, hpairs⟩ := hp.drop hps he
  have hbehind : (front ++ ps').drop (b.significantBefore j) = (apart, g.token (a.tokenAt i)) :: qs' := by
    rw [hij, ← hfront, List.drop_append, List.drop_of_length_le (Nat.le_add_right ..), Nat.add_sub_cancel_left]
    exact hdrop
  have hlt : j < b.size := by
    refine Nat.lt_of_le_of_ne hj fun hj => ?_
    have hall : b.significantBefore b.size = (front ++ ps').length := by
      rw [significantBefore, List.take_of_length_le (by simp [size]), hs'.length]
    rw [hj, hall, List.drop_length] at hbehind
    cases hbehind
  obtain ⟨_, _, hps', hqs'⟩ := hs'.drop (drop_eq_cons hlt) hb
  obtain ⟨ht, rfl⟩ := List.cons.inj (hps'.symm.trans hbehind)
  exact ⟨hlt, (Prod.mk.inj ht).2, _, _, hqs, hqs', hpairs⟩

theorem significantBefore_lt (h : i < a.size) (ht : (a.tokenAt i).isTrivia = false) :
    a.significantBefore i < a.significantBefore a.size := by
  have hsucc := significantBefore_succ h
  rw [ht, if_neg Bool.false_ne_true] at hsucc
  have hle : a.significantBefore (i + 1) ≤ a.significantBefore a.size := significantBefore_le h
  omega

theorem Beside.significantBefore_size (h : Beside g ends a b) (hends : ends) :
    b.significantBefore b.size = g.skipped + a.significantBefore a.size := by
  obtain ⟨t, ps, front, ps', hs, hs', hfront, hp⟩ := h
  have hall {s : TokenStream} {ps : List Piece} (hs : Spread false s.tokens.toList ps) : s.significantBefore s.size = ps.length := by
    rw [TokenStream.significantBefore, List.take_of_length_le (by simp [size]), hs.length]
  rw [hall hs, hall hs', List.length_append, hfront, hp.length hends]

theorem Delivery.significantBefore (h : Delivery a a' i) : a'.significantBefore = a.significantBefore := by
  funext k
  rw [TokenStream.significantBefore, TokenStream.significantBefore, h.tokens]

theorem Beside.deliver (h : Beside g ends a b) (hl : Level g.skipped a b) (hac : a.Closed) (hbc : b.Closed)
    (ha : Delivery a a' i) (hb : Delivery b b' j) (hac' : a'.Closed) (hbc' : b'.Closed)
    (he : ends ∨ (a.tokenAt i).isEof = false) :
    b.tokenAt j = g.token (a.tokenAt i) ∧ Level g.skipped a' b' ∧ ∀ c, (a.tokenAt i).symbol? = some c → ∀ allowed limit,
      Pack.Extends c (a'.symbols allowed limit).1 (b'.symbols allowed limit).1 := by
  have hij : b.significantBefore j = g.skipped + a.significantBefore i := by rw [hb.skipped, hl.cursor, ha.skipped]
  by_cases hi : i < a.size
  · obtain ⟨hj, ht, qs, qs', hqs, hqs', hpairs⟩ := h.token hi hb.within ha.significant hb.significant hij he
    have hcursors : a'.cursor = i + 1 ∧ b'.cursor = j + 1 := by
      rw [ha.cursor, hb.cursor]
      omega
    refine ⟨ht, ⟨?_, ?_⟩, fun c hc allowed limit => ?_⟩
    · rw [ha.significantBefore, hb.significantBefore, hcursors.1, hcursors.2, significantBefore_succ hi,
        significantBefore_succ hj, ha.significant, hb.significant, hij]
      simp only [Bool.false_eq_true, if_false, Nat.add_assoc]
    · rw [ha.significantBefore, hb.significantBefore, ha.last, hb.last, Option.map_some, Option.map_some, hij]
    · rw [TokenStream.symbols, TokenStream.symbols]
      rw [← ha.tokens, ← hcursors.1] at hqs
      rw [← hb.tokens, ← hcursors.2] at hqs'
      rw [hac'.symbolsFrom_eq allowed hqs.shown_self, hbc'.symbolsFrom_eq allowed hqs'.shown_self]
      exact hpairs.joined hc allowed limit
  · obtain rfl : i = a.size := Nat.le_antisymm ha.within (Nat.le_of_not_lt hi)
    have hends : ends := he.resolve_right (by rw [hac.eof]; exact Bool.noConfusion)
    have hsize := h.significantBefore_size hends
    obtain rfl : j = b.size := by
      refine Nat.le_antisymm hb.within (Nat.le_of_not_lt fun hj => ?_)
      have := significantBefore_lt hj hb.significant
      omega
    have hlast : b.significantBefore (b.size - 1) = g.skipped + a.significantBefore (a.size - 1) := by
      rw [hac.significantBefore_size, hbc.significantBefore_size] at hsize
      omega
    obtain ⟨-, ht, -⟩ := h.token (Nat.sub_lt a.tokens_pos Nat.one_pos) (Nat.sub_le _ _) hac.last_significant
      hbc.last_significant hlast (.inl hends)
    have hcursors : a'.cursor = a.size ∧ b'.cursor = b.size := by
      rw [ha.cursor, hb.cursor]
      omega
    refine ⟨by rwa [tokenAt_size, tokenAt_size], ⟨?_, ?_⟩, fun c hc => ?_⟩
    · rw [ha.significantBefore, hb.significantBefore, hcursors.1, hcursors.2, hsize]
    · rw [ha.significantBefore, hb.significantBefore, ha.last, hb.last, Option.map_some, Option.map_some, hij]
    · have heof := hac.eof
      rw [Token.isEof, beq_iff_eq] at heof
      rw [Token.symbol?_eq_none_of_kind (by simp [heof])] at hc
      cases hc

end TokenStream

namespace Session

open TokenStream (Delivery Beside)

structure Fetches (s : Session) (m i : Nat) (stream : TokenStream) : Prop where
  delivery : Delivery s.stream stream i
  closed : stream.Closed
  steps : steps (m + 1) s = { s with stream := stream }.dispatch (s.stream.tokenAt i)

theorem exists_fetches {s : Session} (hf : s.isFinished = false) (hc : s.stream.Closed) : ∃ m i stream, s.Fetches m i stream := by
  -- Trivia is in front of the end, so the cursor goes on until something is delivered.
  generalize hn : s.stream.size - s.stream.cursor = n
  induction n using Nat.strongRecOn generalizing s with
  | ind n ih =>
    cases ht : (s.stream.tokenAt s.stream.cursor).isTrivia with
    | false =>
      refine ⟨0, s.stream.cursor, s.stream.read.2, ⟨rfl, rfl, rfl, hc.cursor, ht, rfl⟩, hc.read, ?_⟩
      have hread : s.stream.read.1.isTrivia = false := ht
      simp [Session.steps, step, hf, hread]
      rfl
    | true =>
      have hlt : s.stream.cursor < s.stream.size := hc.cursor_lt (Token.isEof_of_isEdge (Token.isEdge_of_isTrivia ht))
      have hcursor : s.stream.read.2.cursor = s.stream.cursor + 1 := Nat.min_eq_left hlt
      have hskip : s.step = { s with stream := s.stream.read.2 } := by
        have hread : s.stream.read.1.isTrivia = true := ht
        simp [step, hf, hread]
      obtain ⟨m, i, stream, hd, hclosed, hm⟩ := ih (s.stream.size - (s.stream.cursor + 1)) (by omega)
        (s := { s with stream := s.stream.read.2 }) hf hc.read (by rw [hcursor]; rfl)
      have hskipped : s.stream.significantBefore i = s.stream.significantBefore s.stream.cursor := by
        have hsucc := TokenStream.significantBefore_succ hlt
        rw [ht, if_pos rfl, ← hcursor] at hsucc
        exact hd.skipped.trans hsucc
      refine ⟨m + 1, i, stream, ⟨hd.tokens, hd.last, hd.cursor, hd.within, hd.significant, hskipped⟩, hclosed, ?_⟩
      rw [Session.steps, if_neg (by simp [hf]), hskip]
      exact hm

namespace Like

variable {g : Guise} {ends : Prop} {s r : Session}

theorem isFinished (h : Like g s r) : r.isFinished = s.isFinished := by
  obtain ⟨o, rfl, -⟩ := h
  obtain ⟨_, _, mode, _, _, _, _, _, _, _, _, _, _, _⟩ := s
  cases mode <;> rfl

theorem next (h : Like g s r) (hs : s.Sound) (hr : r.Sound) (hb : Beside g ends s.stream r.stream)
    (hf : s.isFinished = false) {m i : Nat} {stream : TokenStream} (hc : s.Fetches m i stream)
    (he : ends ∨ (s.stream.tokenAt i).isEof = false) (hp : g.Permits (s.stream.tokenAt i) (steps (m + 1) s)) :
    ∃ n, Like g (steps (m + 1) s) (steps (n + 1) r) := by
  obtain ⟨n, j, stream', hd, hbc, hn⟩ := exists_fetches (h.isFinished.trans hf) hr.closed
  obtain ⟨ha, hac, hm⟩ := hc
  have hrc := hr.closed
  obtain ⟨o, rfl, ho⟩ := h
  obtain ⟨ht, hl, hruns⟩ := hb.deliver ho.stream hs.closed hrc ha hd hac hbc he
  have habreast : Abreast g (s.stream.tokenAt i) { s with stream := stream } { g.session s o with stream := stream' } :=
    ⟨⟨{ o with stream := stream' }, rfl, hl, ho.warned, ho.failed⟩, hac, hbc, hruns⟩
  refine ⟨n, ?_⟩
  rw [hm] at hp ⊢
  rw [hn, ht]
  exact habreast.dispatch hp

end Like

structure Twins (g : Guise) (ends : Prop) (s r : Session) : Prop where
  like : Like g s r
  sound : s.Sound
  sound' : r.Sound
  beside : Beside g ends s.stream r.stream

namespace Twins

variable {g : Guise} {ends : Prop} {s r : Session}

theorem after {m n : Nat} (h : Twins g ends s r) (hl : Like g (steps m s) (steps n r)) :
    Twins g ends (steps m s) (steps n r) := by
  refine ⟨hl, h.sound.after m, h.sound'.after n, ?_⟩
  rw [Beside, h.sound.steps_tokens, h.sound'.steps_tokens]
  exact h.beside

theorem far (h : Twins g ends s r) (ha : g.Alone) (hends : ends) (k : Nat) : ∃ m n, k ≤ m ∧ Twins g ends (steps m s) (steps n r) := by
  induction k with
  | zero => exact ⟨0, 0, Nat.le_refl _, h⟩
  | succ k ih =>
    obtain ⟨m, n, hk, h'⟩ := ih
    cases hf : (steps m s).isFinished with
    | true =>
      refine ⟨m + 1, n, Nat.succ_le_succ hk, ?_⟩
      rwa [steps_succ, step_of_isFinished hf]
    | false =>
      obtain ⟨m', i, stream, hc⟩ := exists_fetches hf h'.sound.closed
      obtain ⟨n', hl⟩ := h'.like.next h'.sound h'.sound' h'.beside hf hc (.inl hends) (.inl ha)
      have h'' := h'.after hl
      rw [← steps_add, ← steps_add] at h''
      exact ⟨_, _, by omega, h''⟩

theorem run {tokens tokens' : List Token} {config : ParserConfig}
    (h : Twins g ends (ofTokens tokens config) (ofTokens tokens' config)) (ha : g.Alone) (hends : ends) :
    Like g (ofTokens tokens config).run (ofTokens tokens' config).run := by
  obtain ⟨m, n, hm, h'⟩ := h.far ha hends (ofTokens tokens config).stepBound
  rw [steps_eq_run hm] at h'
  have hf := h'.like.isFinished.trans (run_finished tokens config)
  rw [Reaches.run_eq ⟨n, rfl⟩ hf]
  exact h'.like

end Twins

end Session

structure Guise.Fresh (g : Guise) : Prop where
  prior : g.prior = {}
  constants : g.constants = []
  warned : g.warned = []
  skipped : g.skipped = 0
  shift : g.shift = 0

namespace Session

variable {g : Guise} {s r : Session}

theorem like_ofTokens (hg : g.Fresh) (tokens tokens' : List Token) (config : ParserConfig) :
    Like g (ofTokens tokens config) (ofTokens tokens' config) := by
  refine ⟨⟨.ofList tokens', #[], #[]⟩, ?_, ⟨⟨?_, rfl⟩, ⟨[], ?_, .nil⟩, .nil⟩⟩
  · have hid : g.id 0 = 0 := by rw [Recast.id, hg.shift]
    have hbehind : g.behind (g.script {}) = {} := by rw [Guise.behind, hg.prior]; rfl
    have hmode : g.mode (ofTokens tokens config).mode = (ofTokens tokens' config).mode := by
      unfold ofTokens
      cases config.target <;> rfl
    unfold Guise.session
    rw [hmode, show (ofTokens tokens config).nextId = 0 from rfl, hid, show (ofTokens tokens config).script = {} from rfl,
      hbehind, hg.constants]
    rfl
  · rw [hg.skipped]
    rfl
  · rw [hg.warned]
    rfl

theorem run_like (hg : g.Fresh) {tokens tokens' : List Token} (config : ParserConfig) {t : Token} {ps ps' : List Piece}
    (h : Spread false (TokenStream.closed tokens) ps) (h' : Spread false (TokenStream.closed tokens') ps')
    (hp : g.Pairs True t ps ps') : Like g (ofTokens tokens config).run (ofTokens tokens' config).run :=
  Twins.run
    ⟨like_ofTokens hg tokens tokens' config, sound_ofTokens tokens config, sound_ofTokens tokens' config,
      t, ps, [], ps', h, h', hg.skipped.symm, hp⟩
    ⟨hg.prior, hg.constants⟩ trivial

theorem run_recast (hg : g.Fresh) (ts : List Token) (loc : Location) (config : ParserConfig) :
    Like g (ofTokens (ts ++ [Token.endAt loc]) config).run
      (ofTokens ((ts ++ [Token.endAt loc]).map g.token) config).run := by
  have hps := spread_significant false (ts ++ [Token.endAt loc])
  generalize significant false (ts ++ [Token.endAt loc]) = ps at hps
  have hmap : (ts ++ [Token.endAt loc]).map g.token = ts.map g.token ++ [Token.endAt (g.loc loc)] :=
    List.map_append
  have hps' := hps.recast g.toRecast
  rw [hmap] at hps'
  rw [hmap]
  exact run_like hg config ((TokenStream.closed_endAt ts loc).symm ▸ hps) ((TokenStream.closed_endAt _ _).symm ▸ hps')
    (.self g True (Token.endAt loc) ps)

namespace Like

theorem halted (h : Like g s r) : r.halted = s.halted := by
  obtain ⟨o, rfl, -⟩ := h
  rfl

theorem warned (h : Like g s r) (hg : g.Fresh) : List.Forall₂ g.Alike s.warned.toList r.warned.toList := by
  obtain ⟨o, rfl, ho⟩ := h
  obtain ⟨ws, hws, halike⟩ := ho.warned
  rw [hg.warned, List.nil_append] at hws
  exact hws ▸ halike

theorem failed (h : Like g s r) : List.Forall₂ g.Alike s.failed.toList r.failed.toList := by
  obtain ⟨o, rfl, ho⟩ := h
  exact ho.failed

theorem finish (h : Like g s r) (hg : g.Fresh) (hf : s.isFinished = true) {α : Type} {f : Complaint → α}
    {F : Diagnostic → α} (hF : ∀ c, F c.diagnostic = f c) (hA : ∀ c c', g.Alike c c' → f c' = f c) :
    r.finish.graph = s.finish.graph.map g.graph ∧ r.finish.warnings.map F = s.finish.warnings.map F ∧
      r.finish.errors.map F = s.finish.errors.map F ∧ r.finish.halted = s.finish.halted := by
  have hmap {cs cs' : List Complaint} (hc : List.Forall₂ g.Alike cs cs') :
      (cs'.map Complaint.diagnostic).map F = (cs.map Complaint.diagnostic).map F := by
    rw [List.map_map, List.map_map, show F ∘ Complaint.diagnostic = f from funext hF]
    induction hc with
    | nil => rfl
    | cons hc _ ih => rw [List.map_cons, List.map_cons, hA _ _ hc, ih]
  rw [finish_of_isFinished hf, finish_of_isFinished (h.isFinished.trans hf), h.halted]
  refine ⟨?_, hmap (h.warned hg), hmap h.failed, rfl⟩
  simp only [h.output]
  split <;> rfl

end Like

end Session

end GameScript
