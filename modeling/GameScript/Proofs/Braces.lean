import GameScript.Proofs.Discipline
import GameScript.Proofs.Termination

namespace GameScript

/-- The depth behind a token. A closing brace without an opening one changes nothing. -/
def Token.nest (depth : Nat) (t : Token) : Nat :=
  if t.isSymbol '\x7b' then depth + 1 else if t.isSymbol '\x7d' then depth - 1 else depth

def braceDepth (tokens : List Token) : Nat :=
  tokens.foldl Token.nest 0

/-- The second index is that of the first brace behind which the depth is again what it is before the
opening brace at the first index. -/
structure BracesMatch (tokens : List Token) (i j : Nat) : Prop where
  opening : ∃ t, tokens[i]? = some t ∧ t.isSymbol '\x7b' = true
  closing : ∃ t, tokens[j]? = some t ∧ t.isSymbol '\x7d' = true
  lt : i < j
  inside : ∀ k, i < k → k ≤ j → braceDepth (tokens.take i) < braceDepth (tokens.take k)
  balanced : braceDepth (tokens.take (j + 1)) = braceDepth (tokens.take i)

namespace Token

theorem nest_of_isEdge {t : Token} (h : t.isEdge = false) (depth : Nat) : nest depth t = depth := by
  simp only [isEdge, Bool.or_eq_false_iff] at h
  simp [nest, h.1.1, h.1.2]

theorem nest_open {t : Token} (h : t.isSymbol '\x7b' = true) (depth : Nat) : nest depth t = depth + 1 :=
  if_pos h

theorem nest_close {t : Token} (h : t.isSymbol '\x7d' = true) (depth : Nat) : nest depth t = depth - 1 := by
  rw [nest, isSymbol_ne h (by decide), if_neg (by decide), if_pos h]

theorem foldl_nest {ts : List Token} (h : ∀ t ∈ ts, t.isEdge = false) (depth : Nat) :
    ts.foldl nest depth = depth := by
  induction ts with
  | nil => rfl
  | cons t ts ih =>
    rw [List.forall_mem_cons] at h
    rw [List.foldl_cons, nest_of_isEdge h.1, ih h.2]

theorem isEdge_of_isTrivia {t : Token} (h : t.isTrivia = true) : t.isEdge = false := by
  simp only [isTrivia, Bool.or_eq_true, beq_iff_eq] at h
  obtain h | h := h <;> exact isEdge_of_kind (by simp [h]) (by simp [h])

end Token

namespace TokenStream

def depthTo (s : TokenStream) (k : Nat) : Nat :=
  braceDepth (s.tokens.toList.take k)

theorem depthTo_congr {s s' : TokenStream} (h : s'.tokens = s.tokens) (k : Nat) : s'.depthTo k = s.depthTo k := by
  rw [depthTo, h, depthTo]

theorem Takes.depthTo {s s' : TokenStream} {more : List Token} (h : s.read.2.Takes more s') (hs : s.Closed)
    (ht : s.read.1.isEof = false) {k : Nat} (hk : s.cursor < k) (hk' : k ≤ s'.cursor) :
    s.depthTo k = Token.nest (s.depthTo s.cursor) s.read.1 := by
  have hread := hs.cursor_read ht
  have hwithin := h.within hs.read.cursor
  obtain ⟨i, rfl⟩ := Nat.exists_eq_add_of_le hk
  have hi : i ≤ more.length := by
    have := h.cursor
    omega
  have hmore : s.read.2.upcoming i = more.take i := by
    rw [h.read]
    simp only [upcoming, ← List.map_take, List.take_range]
    rw [Nat.min_eq_left hi]
  have htake := take_upcoming (s := s.read.2) (n := i) (by omega)
  have hone := take_succ (hs.cursor_lt ht)
  rw [hread] at htake
  rw [TokenStream.depthTo, Nat.succ_eq_add_one]
  change s.tokens.toList.take (s.cursor + 1 + i) = s.tokens.toList.take (s.cursor + 1) ++ _ at htake
  rw [htake, hone, hmore, braceDepth, List.foldl_append, List.foldl_append, Token.foldl_nest]
  · rfl
  · intro t ht
    exact h.inside t (List.mem_of_mem_take ht)

end TokenStream

namespace Session

def delivered : Nat → Session → List Token
  | 0, _ => []
  | n + 1, s => if s.isFinished then [] else s.stream.read.1 :: delivered n s.step

theorem delivered_succ (n : Nat) (s : Session) : delivered (n + 1) s = delivered n s ++
    if (steps n s).isFinished then [] else [(steps n s).stream.read.1] := by
  induction n generalizing s with
  | zero => rfl
  | succ n ih =>
    rw [delivered]
    split
    · next h => simp [delivered, steps, h]
    · next h => rw [ih, delivered, steps, if_neg h, if_neg h, List.cons_append]

/-- The braces up to the cursor, and up to every token that the step takes, are those of the session. -/
structure Advances (s s' : Session) : Prop where
  between : ∀ k, s.stream.cursor < k → k ≤ s'.stream.cursor → s.stream.depthTo k = s'.depth
  here : s.stream.depthTo s'.stream.cursor = s'.depth

theorem advances_of_takes {s s' : Session} {more : List Token} (hs : s.stream.Closed)
    (ht : s.stream.read.1.isEof = false) (htakes : s.stream.read.2.Takes more s'.stream)
    (hd : Token.nest (s.stream.depthTo s.stream.cursor) s.stream.read.1 = s'.depth) : Advances s s' := by
  have hbetween : ∀ k, s.stream.cursor < k → k ≤ s'.stream.cursor → s.stream.depthTo k = s'.depth := by
    intro k hk hk'
    rw [htakes.depthTo hs ht hk hk', hd]
  refine ⟨hbetween, hbetween _ ?_ (Nat.le_refl _)⟩
  rw [htakes.cursor, hs.cursor_read ht]
  omega

theorem Sound.step_advances {s : Session} (hs : s.Sound) (hf : s.isFinished = false)
    (ht : s.stream.read.1.isEof = false) (hd : s.stream.depthTo s.stream.cursor = s.depth) :
    s.step.halted = true ∨ (s.mode.inBody = false ∧ s.step.isFinished = true) ∨ Advances s s.step := by
  obtain ⟨htrivia, he⟩ | ⟨-, hturn⟩ := step_cases hs hf
  · right; right
    rw [he]
    refine advances_of_takes hs.closed ht (.refl _) ?_
    rw [Token.nest_of_isEdge (Token.isEdge_of_isTrivia htrivia), hd]
    rfl
  · cases hturn.moves (hs.read.shaped (halted_of_isFinished hf)) with
    | halts h => exact .inl h
    | ends hb h => exact .inr (.inl ⟨hb, h⟩)
    | back htakes hst _ _ hdepth =>
      have hcursor : s.step.stream.cursor = s.stream.cursor := by
        rw [hst]
        exact htakes.cursor_defer
      refine .inr (.inr ⟨?_, ?_⟩)
      · intro k hk hk'
        omega
      · rw [hcursor, hd]
        exact (hdepth ht).symm
    | plain htakes he _ _ hdepth =>
      refine .inr (.inr (advances_of_takes hs.closed ht htakes ?_))
      rw [Token.nest_of_isEdge he, hd]
      exact hdepth.symm
    | opens htakes he _ _ hdepth =>
      refine .inr (.inr (advances_of_takes hs.closed ht htakes ?_))
      rw [Token.nest_open he, hd]
      exact hdepth.symm
    | closes htakes he _ _ hdepth =>
      refine .inr (.inr (advances_of_takes hs.closed ht htakes ?_))
      rw [Token.nest_close he, hd]
      exact hdepth.symm

theorem Sound.step_tokens {s : Session} (hs : s.Sound) : s.step.stream.tokens = s.stream.tokens := by
  cases hf : s.isFinished with
  | true => rw [step_of_isFinished hf]
  | false =>
    obtain ⟨-, he⟩ | ⟨-, hturn⟩ := step_cases hs hf
    · rw [he]
      rfl
    · exact hturn.frame.tokens

theorem Sound.steps_tokens {s : Session} (hs : s.Sound) (n : Nat) :
    (steps n s).stream.tokens = s.stream.tokens := by
  induction n with
  | zero => rfl
  | succ n ih => rw [steps_succ, (hs.after n).step_tokens, ih]

theorem isFinished_of_steps {s : Session} {n : Nat} (h : (steps (n + 1) s).isFinished = false) :
    (steps n s).isFinished = false := by
  cases hn : (steps n s).isFinished with
  | false => rfl
  | true => rw [steps_succ, step_of_isFinished hn, hn] at h; cases h

theorem Sound.steps_depth {s : Session} (hs : s.Sound) (hd : s.stream.depthTo s.stream.cursor = s.depth)
    {n : Nat} (ht : ∀ t ∈ delivered n s, t.isEof = false) (hf : (steps n s).isFinished = false) :
    s.stream.depthTo (steps n s).stream.cursor = (steps n s).depth := by
  induction n with
  | zero => exact hd
  | succ n ih =>
    have hn := isFinished_of_steps hf
    rw [delivered_succ, hn] at ht
    simp only [Bool.false_eq_true, if_false, List.forall_mem_append, List.forall_mem_singleton] at ht
    have htokens := TokenStream.depthTo_congr (hs.steps_tokens n)
    have hbefore := ih ht.1 hn
    rw [← htokens] at hbefore
    rw [steps_succ] at hf ⊢
    obtain h | ⟨-, h⟩ | h := (hs.after n).step_advances hn ht.2 hbefore
    · rw [isFinished, h] at hf
      cases hf
    · rw [h] at hf
      cases hf
    · rw [← htokens]
      exact h.here

theorem StackShaped.blocks_pos {stmts : List PendingStmt} (h : StackShaped stmts) :
    0 < stmts.countP PendingStmt.isBlock := by
  induction h with
  | bottom => exact Nat.one_pos
  | cons _ _ ih =>
    rw [List.countP_cons]
    exact Nat.lt_of_lt_of_le ih (Nat.le_add_right _ _)

theorem Sound.depth_pos {s : Session} (hs : s.Sound) (hh : s.halted = false) (hb : s.mode.inBody = true) :
    0 < s.depth := by
  cases hm : s.mode with
  | body header =>
    have := ((hs.shaped hh).stacked header hm).blocks_pos
    rw [depth, openBlocks]
    omega
  | root | expression | expressionEnd | done =>
    rw [hm] at hb
    cases hb

theorem isFinished_of_inBody {s : Session} (hh : s.halted = false) (hb : s.mode.inBody = true) :
    s.isFinished = false := by
  rw [isFinished, hh, Bool.false_or]
  split
  · next hm =>
    rw [hm] at hb
    cases hb
  · rfl

theorem halted_of_steps {s : Session} {m n : Nat} (hmn : m ≤ n) (h : (steps n s).halted = false) :
    (steps m s).halted = false := by
  obtain ⟨k, rfl⟩ := Nat.exists_eq_add_of_le hmn
  cases hm : (steps m s).halted with
  | false => rfl
  | true =>
    rw [steps_add, steps_of_isFinished (by rw [isFinished, hm, Bool.true_or]), hm] at h
    cases h

theorem delivered_mono {s : Session} {m n : Nat} (hmn : m ≤ n) {t : Token} (ht : t ∈ delivered m s) :
    t ∈ delivered n s := by
  induction hmn with
  | refl => exact ht
  | step _ ih =>
    rw [delivered_succ]
    exact List.mem_append_left _ ih

theorem read_mem_delivered {s : Session} {n : Nat} (hf : (steps n s).isFinished = false) :
    (steps n s).stream.read.1 ∈ delivered (n + 1) s := by
  rw [delivered_succ, hf]
  simp

theorem Sound.step_body {s : Session} (hs : s.Sound) (hf : s.isFinished = false)
    (hh : s.step.halted = false) (hb : s.step.mode.inBody ≠ s.mode.inBody)
    (hend : s.mode.inBody = false → s.step.isFinished = false) :
    (s.mode.inBody = false ∧ s.stream.read.1.isSymbol '\x7b' = true ∧ s.depth = 0 ∧ s.step.depth = 1) ∨
      (s.mode.inBody = true ∧ s.stream.read.1.isSymbol '\x7d' = true ∧ s.depth = 1 ∧ s.step.depth = 0) := by
  obtain ⟨-, he⟩ | ⟨-, hturn⟩ := step_cases hs hf
  · rw [he] at hb
    exact (hb rfl).elim
  · cases hturn.moves (hs.read.shaped (halted_of_isFinished hf)) with
    | halts h =>
      rw [h] at hh
      cases hh
    | ends hb h =>
      rw [hend hb] at h
      cases h
    | back _ _ _ hb' | plain _ _ _ hb' => exact (hb hb').elim
    | opens _ ht _ hb' hd =>
      obtain hb' | ⟨hb', hzero⟩ := hb'
      · exact (hb hb').elim
      · have hone : s.step.depth = s.depth + 1 := hd
        have hzero : s.depth = 0 := hzero
        exact .inl ⟨hb', ht, hzero, by omega⟩
    | closes _ ht _ hb' hd =>
      obtain hb' | ⟨hb', hone⟩ := hb'
      · exact (hb hb').elim
      · have hzero : s.step.depth = s.depth - 1 := hd
        have hone : s.depth = 1 := hone
        exact .inr ⟨hb', ht, hone, by omega⟩

theorem getElem?_cursor {s : Session} (hs : s.Sound) (ht : s.stream.read.1.isEof = false) :
    s.stream.tokens.toList[s.stream.cursor]? = some s.stream.read.1 := by
  have hlt := hs.closed.cursor_lt ht
  have htake := TokenStream.take_succ hlt
  have hlen : s.stream.cursor < s.stream.tokens.toList.length := by simpa [TokenStream.size] using hlt
  rw [List.take_succ_eq_append_getElem hlen] at htake
  have := List.append_cancel_left htake
  simp only [List.cons.injEq, and_true] at this
  rw [List.getElem?_eq_getElem hlen, this]
  rfl

section

variable {s : Session} {m n : Nat}

theorem Sound.steps_inside (hs : s.Sound) (hd : s.stream.depthTo s.stream.cursor = s.depth) (hmn : m < n)
    (ht : ∀ t ∈ delivered n s, t.isEof = false) (hh : (steps n s).halted = false)
    (hm : (steps m s).isFinished = false)
    (hb : ∀ k, m < k → k ≤ n → (steps k s).mode.inBody = true) :
    ∀ k, (steps m s).stream.cursor < k → k ≤ (steps n s).stream.cursor → 0 < s.stream.depthTo k := by
  -- Every step of the body adds indices at which the depth is that of a session in the body.
  have hstep (i : Nat) (hi : m ≤ i) (hin : i < n) (hif : (steps i s).isFinished = false) :
      ∀ k, (steps i s).stream.cursor < k → k ≤ (steps (i + 1) s).stream.cursor → 0 < s.stream.depthTo k := by
    intro k hk hk'
    have hbody := hb (i + 1) (by omega) hin
    have hhalt := halted_of_steps hin hh
    have hfin := isFinished_of_inBody hhalt hbody
    have hsound := hs.after (i + 1)
    have hpos := hsound.depth_pos hhalt hbody
    have htokens := TokenStream.depthTo_congr (hs.steps_tokens i)
    have hbefore := hs.steps_depth hd (fun t h => ht t (delivered_mono (Nat.le_of_lt hin) h)) hif
    rw [← htokens] at hbefore
    have heof := ht _ (delivered_mono hin (read_mem_delivered hif))
    rw [steps_succ] at hk' hhalt hfin hpos
    obtain h | ⟨-, h⟩ | h := (hs.after i).step_advances hif heof hbefore
    · rw [hhalt] at h
      cases h
    · rw [hfin] at h
      cases h
    · rw [← htokens, h.between k hk hk']
      exact hpos
  clear ht
  induction n, hmn using Nat.le_induction with
  | base => exact hstep m (Nat.le_refl m) (Nat.lt_succ_self m) hm
  | succ n hmn ih =>
    intro k hk hk'
    have hhalt := halted_of_steps (Nat.le_succ n) hh
    by_cases hkn : k ≤ (steps n s).stream.cursor
    · refine ih hhalt (fun i hi hin => hb i hi (by omega)) ?_ k hk hkn
      intro i hi hin
      exact hstep i hi (by omega)
    · exact hstep n (by omega) (Nat.lt_succ_self n)
        (isFinished_of_inBody hhalt (hb n hmn (Nat.le_succ n))) k (by omega) hk'

theorem Sound.steps_match (hs : s.Sound) (hd : s.stream.depthTo s.stream.cursor = s.depth) (hmn : m < n)
    (ht : ∀ t ∈ delivered (n + 1) s, t.isEof = false) (hh : (steps (n + 1) s).halted = false)
    (hm : (steps m s).mode.inBody = false)
    (hb : ∀ k, m < k → k ≤ n → (steps k s).mode.inBody = true)
    (hn : (steps (n + 1) s).mode.inBody = false) :
    BracesMatch s.stream.tokens.toList (steps m s).stream.cursor (steps n s).stream.cursor := by
  have hhn := halted_of_steps (Nat.le_succ n) hh
  have hfirst := hb (m + 1) (Nat.lt_succ_self m) hmn
  have hlast := hb n hmn (Nat.le_refl n)
  have hfm1 := isFinished_of_inBody (halted_of_steps hmn hhn) hfirst
  have hfm := isFinished_of_steps hfm1
  have hfn := isFinished_of_inBody hhn hlast
  have hem := ht _ (delivered_mono (by omega) (read_mem_delivered hfm))
  have hen := ht _ (read_mem_delivered hfn)
  have hdm := hs.steps_depth hd (fun t h => ht t (delivered_mono (by omega) h)) hfm
  have hdn := hs.steps_depth hd (fun t h => ht t (delivered_mono (Nat.le_succ n) h)) hfn
  obtain ⟨-, hopen, hzero, -⟩ | ⟨h, -⟩ := (hs.after m).step_body hfm
    (by rw [← steps_succ]; exact halted_of_steps hmn hhn)
    (by rw [← steps_succ, hfirst, hm]; decide)
    (fun _ => by rw [← steps_succ]; exact hfm1)
  · obtain ⟨h, -⟩ | ⟨-, hclose, hone, hzero'⟩ := (hs.after n).step_body hfn
      (by rw [← steps_succ]; exact hh)
      (by rw [← steps_succ, hn, hlast]; decide)
      (fun h => by rw [hlast] at h; cases h)
    · rw [hlast] at h
      cases h
    have htm := hs.steps_tokens m
    have htn := hs.steps_tokens n
    have hinside := hs.steps_inside hd hmn (fun t h => ht t (delivered_mono (Nat.le_succ n) h)) hhn hfm hb
    have hlt : (steps m s).stream.cursor < (steps n s).stream.cursor := by
      refine Nat.lt_of_le_of_ne (hs.cursor_le_steps (Nat.le_of_lt hmn)) fun he => ?_
      rw [← he, hdm, hzero] at hdn
      have := (hs.after n).depth_pos hhn hlast
      omega
    refine ⟨?_, ?_, hlt, ?_, ?_⟩
    · have := getElem?_cursor (hs.after m) hem
      rw [htm] at this
      exact ⟨_, this, hopen⟩
    · have := getElem?_cursor (hs.after n) hen
      rw [htn] at this
      exact ⟨_, this, hclose⟩
    · intro k hk hk'
      have hpos := hinside k hk hk'
      rw [TokenStream.depthTo] at hpos hdm
      rw [hdm, hzero]
      exact hpos
    · rw [← TokenStream.depthTo_congr htn] at hdn
      obtain h | ⟨h, -⟩ | h := (hs.after n).step_advances hfn hen hdn
      · rw [← steps_succ, hh] at h
        cases h
      · rw [hlast] at h
        cases h
      have hle := (hs.after n).cursor_le_step
      have hhere := h.here
      have hlt' : (steps n s).stream.cursor + 1 ≤ (steps n s).step.stream.cursor := by
        refine Nat.lt_of_le_of_ne hle fun he => ?_
        rw [← he, hdn, hzero', hone] at hhere
        cases hhere
      have hbetween := h.between _ (Nat.lt_succ_self _) hlt'
      rw [hzero', TokenStream.depthTo_congr htn, TokenStream.depthTo] at hbetween
      rw [TokenStream.depthTo, hzero] at hdm
      rw [hbetween, hdm]
  · rw [hm] at h
    cases h

end

theorem depthTo_ofTokens (tokens : List Token) (config : ParserConfig) :
    (ofTokens tokens config).stream.depthTo (ofTokens tokens config).stream.cursor =
      (ofTokens tokens config).depth :=
  rfl

/-- As long as the input goes on, the braces up to the cursor are the open blocks and the braces that
are skipped; and a function body is what is between two braces that match. -/
theorem steps_braces (tokens : List Token) (config : ParserConfig) :
    (∀ n, (∀ t ∈ delivered n (ofTokens tokens config), t.isEof = false) →
      (steps n (ofTokens tokens config)).isFinished = false →
      braceDepth ((TokenStream.closed tokens).take (steps n (ofTokens tokens config)).stream.cursor) =
        (steps n (ofTokens tokens config)).openBlocks + (steps n (ofTokens tokens config)).rootDepth) ∧
    ∀ m n, m < n → (∀ t ∈ delivered (n + 1) (ofTokens tokens config), t.isEof = false) →
      (steps (n + 1) (ofTokens tokens config)).halted = false →
      (steps m (ofTokens tokens config)).mode.inBody = false →
      (∀ k, m < k → k ≤ n → (steps k (ofTokens tokens config)).mode.inBody = true) →
      (steps (n + 1) (ofTokens tokens config)).mode.inBody = false →
      BracesMatch (TokenStream.closed tokens) (steps m (ofTokens tokens config)).stream.cursor
        (steps n (ofTokens tokens config)).stream.cursor := by
  have hs := sound_ofTokens tokens config
  have hd := depthTo_ofTokens tokens config
  constructor
  · intro n ht hf
    exact hs.steps_depth hd ht hf
  · intro m n hmn ht hh hm hb hn
    exact hs.steps_match hd hmn ht hh hm hb hn

theorem steps_braces_body :
    let word (text : String) : Token := ⟨.identifier, text, .start⟩
    let symbol (text : String) : Token := ⟨.symbol, text, .start⟩
    let nested := [symbol "\x7b", symbol ")", symbol "\x7d"]
    let call := [word "g", symbol "(", symbol ")", symbol ";"]
    let tokens := [word "f", symbol "(", symbol ")", symbol "\x7b"] ++ nested ++ call ++ [symbol "\x7d"]
    (∃ s, s = steps 6 (ofTokens tokens {}) ∧ s.errors.size = 1 ∧ s.openBlocks = 2 ∧
      braceDepth ((TokenStream.closed tokens).take s.stream.cursor) = s.openBlocks + s.rootDepth) ∧
      BracesMatch (TokenStream.closed tokens) 3 11 := by
  intro word symbol nested call tokens
  obtain ⟨hdepth, hmatch⟩ := steps_braces tokens {}
  have hbody : ∀ k ∈ List.range 13, 3 < k → (steps k (ofTokens tokens {})).mode.inBody = true := by decide +kernel
  have hinside (k : Nat) (hk : 3 < k) (hk' : k ≤ 12) : (steps k (ofTokens tokens {})).mode.inBody = true :=
    hbody k (List.mem_range.2 (Nat.lt_succ_of_le hk')) hk
  have hopen : (steps 3 (ofTokens tokens {})).stream.cursor = 3 := by decide +kernel
  have hclose : (steps 12 (ofTokens tokens {})).stream.cursor = 11 := by decide +kernel
  have hends := hmatch 3 12 (by decide) (by decide +kernel) (by decide +kernel) (by decide +kernel) hinside
    (by decide +kernel)
  rw [hopen, hclose] at hends
  exact ⟨⟨_, rfl, by decide +kernel, by decide +kernel, hdepth 6 (by decide +kernel) (by decide +kernel)⟩, hends⟩

end Session

end GameScript
