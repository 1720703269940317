import GameScript.Proofs.Showing
import GameScript.Proofs.Spelling

namespace GameScript

theorem Token.kind_of_isSymbol {t : Token} {c : Char} (h : t.isSymbol c = true) : t.kind = .symbol := by
  by_contra hn
  rw [isSymbol_iff, symbol?_eq_none_of_kind hn] at h
  cases h

theorem Token.kind_of_keyword {t : Token} {mode : GameMode} {k : Keyword} (h : t.keyword? mode = some k) :
    t.kind = .identifier := by
  by_contra hn
  rw [keyword?_eq_none_of_kind mode hn] at h
  cases h

theorem joined_append {us : List Token} {cs : List Char} (h : us.map Token.symbol? = cs.map some) (ps : List Piece) :
    joined (us.map (fun u => (false, u)) ++ ps) = cs ++ joined ps := by
  induction us generalizing cs with
  | nil =>
    obtain rfl := List.map_eq_nil_iff.1 h.symm
    rfl
  | cons u us ih =>
    obtain ⟨c, cs, rfl, hc, hcs⟩ := List.map_eq_cons_iff.1 h.symm
    simp [joined, ← hc, ih hcs.symm]

/-- No operator character stands together with what is in front. -/
def Calm (ps : List Piece) : Prop :=
  ∀ c ∈ (joined ps).head?, c ∉ Operator.spellingChars

namespace Session

theorem foldStack_of_folds {p : PendingExpr → Bool} {id id' : Nat} {x y : ExprState} (h : Folds p id x id' y)
    {operand : Expr} (hx : x.slot = some operand) : ∃ e, y = ⟨x.context, x.started, y.stack, some e⟩ ∧
      ExprState.foldStack p x.stack operand id = some (y.stack, e, id') := by
  induction h generalizing operand with
  | @done id x hd =>
    refine ⟨operand, by rw [← hx], ?_⟩
    cases hs : x.stack with
    | nil => rfl
    | cons top rest =>
      have : p top = false := hd top (by simp [hs])
      simp [ExprState.foldStack, this]
  | @join id id' context started top rest operand' e y hp he _ ih =>
    obtain rfl : operand' = operand := Option.some.inj hx
    obtain ⟨e', hy, hf⟩ := ih rfl
    refine ⟨e', hy, ?_⟩
    rw [ExprState.foldStack, if_pos hp, he]
    exact hf

theorem foldWhile_of_folds {s : Session} {p : PendingExpr → Bool} {id : Nat} {x y : ExprState}
    (h : Folds p s.nextId x id y) (t : Token) : s.foldWhile x p t = .ok ({ s with nextId := id }, y) := by
  unfold foldWhile
  cases hx : x.stack with
  | nil =>
    cases h with
    | done => rfl
    | join => cases hx
  | cons top rest =>
    simp only
    by_cases hp : p top = true
    · rw [if_pos hp]
      cases h with
      | done hd => simp [hd top (by simp [hx])] at hp
      | join hp he h =>
        obtain ⟨e', hy, hf⟩ := foldStack_of_folds (.join hp he h) rfl
        cases hx
        simp only [hf]
        rw [hy]
    · rw [if_neg hp]
      cases h with
      | done => rfl
      | join hp' =>
        cases hx
        exact absurd hp' hp

theorem folded_of_folds {s : Session} {id : Nat} {x y : ExprState}
    (h : Folds PendingExpr.isOperator s.nextId x id y) (t : Token) (next : Session → ExprState → ExprMove) :
    s.folded x t next = next { s with nextId := id } y := by
  rw [folded, foldWhile_of_folds h]

theorem Folds.open_of {p : PendingExpr → Bool} {id id' : Nat} {x y : ExprState} (h : Folds p id x id' y)
    (hy : ∀ top ∈ y.stack.head?, top.refusesCallee = false) : ∀ top ∈ x.stack.head?, top.refusesCallee = false := by
  cases h with
  | done => exact hy
  | @join _ _ _ _ top _ _ _ _ _ he =>
    simp only [List.head?_cons, Option.mem_some_iff, forall_eq']
    cases top <;> simp [PendingExpr.complete?, PendingExpr.refusesCallee, PendingExpr.expectsName] at he ⊢

theorem operatorBehind?_spelling {op : Operator} (h : op.fixity ≠ .before) :
    operatorBehind? op.spelling.toList = some op := by
  revert h
  cases op <;> decide +kernel

theorem spelling_chars (op : Operator) : ∀ c ∈ op.spelling.toList, c ∈ Operator.spellingChars := by
  have h : (op.spelling.toList.all fun c => Operator.spellingChars.contains c) = true := by cases op <;> decide
  simpa using h

theorem spelling_length_le (op : Operator) : op.spelling.toList.length ≤ Operator.maxSpellingLength := by
  cases op <;> decide

theorem symbolToken_of_open {s : Session} {x : ExprState} {t : Token} {c : Char} (ht : t.isSymbol c = true)
    (hx : ∀ top ∈ x.stack.head?, top.refusesCallee = false) : s.symbolToken x t = s.symbolCharToken x c t := by
  unfold symbolToken
  rw [Token.isSymbol_iff.1 ht]
  simp only
  cases hs : x.stack with
  | nil => rfl
  | cons top rest =>
    have := hx top (by simp [hs])
    cases top <;> simp [PendingExpr.refusesCallee, PendingExpr.expectsName] at this ⊢

section Lookahead

variable {s : Session} {t : Token} {more : List Token} {ps : List Piece}

theorem lookahead_eq (hc : s.stream.Closed) (hs : Shown false (s.stream.tokens.toList.drop s.stream.cursor) ps)
    (allowed : List Char) (limit : Nat) :
    (s.lookahead allowed limit).1 = ((joined ps).takeWhile allowed.contains).take limit :=
  hc.symbolsFrom_eq allowed hs limit

theorem discard_of_length (hc : s.stream.Closed) (allowed : List Char) (limit : Nat) {n : Nat}
    (hb : ∀ c ∈ allowed, c ≠ '\x7b' ∧ c ≠ '\x7d') (hn : n ≤ (s.lookahead allowed limit).1.length) :
    ∃ taken stream, taken.length = n ∧ s.stream.Takes taken stream ∧
      (s.lookahead allowed limit).2.discard n = { s with stream := stream } := by
  obtain ⟨stream, he, htakes, -⟩ := discard_takes hc allowed limit hb hn
  exact ⟨_, stream, by simp [TokenStream.upcoming], htakes, he⟩

end Lookahead

def Makes (s : Session) (n : Nat) (m : ExprMove) (id : Nat) (y : ExprState) : Prop :=
  ∃ taken stream, taken.length = n ∧ s.stream.Takes taken stream ∧
    m = ({ s with stream := stream, nextId := id, expr := some y }, .consumed)

theorem Makes.here {s : Session} {m : ExprMove} {id : Nat} {y : ExprState}
    (h : m = ({ s with nextId := id, expr := some y }, .consumed)) : s.Makes 0 m id y :=
  ⟨[], s.stream, rfl, .refl _, h⟩

theorem Makes.started {s : Session} {n : Nat} {m : ExprMove} {id : Nat} {y : ExprState} (h : s.Makes n m id y) :
    s.Makes n (started m) id { y with started := true } := by
  obtain ⟨taken, stream, hn, hs, rfl⟩ := h
  exact ⟨taken, stream, hn, hs, rfl⟩

section Handlers

variable {s : Session} {x y : ExprState} {t u : Token} {id : Nat} {ps : List Piece}

theorem openBracket_of_double (hc : s.stream.Closed)
    (hs : Shown false (s.stream.tokens.toList.drop s.stream.cursor) ((false, u) :: ps))
    (hu : u.isSymbol '[' = true) (h : ∀ stream : TokenStream, { s with stream := stream }.openPointer x t =
      ({ s with stream := stream, nextId := id, expr := some y }, .consumed)) :
    s.Makes 1 (s.openBracket x t) id y := by
  have hrun : (s.lookahead ['['] 1).1 = ['['] := by
    rw [lookahead_eq hc hs, joined, Token.isSymbol_iff.1 hu]
    rfl
  obtain ⟨taken, stream, hn, htakes, hd⟩ :=
    discard_of_length hc ['['] 1 (n := 1) (by simp) (by rw [hrun]; exact Nat.le_refl 1)
  refine ⟨taken, stream, hn, htakes, ?_⟩
  unfold openBracket
  simp only [hrun, List.length_singleton, if_true, hd]
  exact h stream

theorem lookahead_bracket (hc : s.stream.Closed) {c : Char}
    (hs : Shown false (s.stream.tokens.toList.drop s.stream.cursor) ps) (hj : (joined ps).head? ≠ some c) :
    (s.lookahead [c] 1).1 = [] := by
  rw [lookahead_eq hc hs]
  cases hp : joined ps with
  | nil => rfl
  | cons d ds =>
    have hd : d ≠ c := by
      rintro rfl
      exact hj (by rw [hp]; rfl)
    simp [hd]

theorem operatorToken_of_spell {more : List Token} {op : Operator} {operand : Expr} {c : Char}
    (hc : s.stream.Closed)
    (hs : Shown false (s.stream.tokens.toList.drop s.stream.cursor) (more.map (fun u => (false, u)) ++ ps))
    (hp : Calm ps) (ht : t.symbol? = some c) (hx : x.slot = some operand) (ho : op.fixity ≠ .before)
    (hop : Token.Spell (t :: more) op.spelling)
    (h : ∀ stream : TokenStream, (match op.fixity with
        | .after => { s with stream := stream }.suffixToken x op operand t
        | .assigning => { s with stream := stream }.assignToken x op operand t
        | .between => { s with stream := stream }.binaryToken x op t
        | .before => { s with stream := stream }.failUnexpected t "an operator") =
      ({ s with stream := stream, nextId := id, expr := some y }, .consumed)) :
    s.Makes more.length (s.operatorToken x c t) id y := by
  obtain ⟨cs, hcs⟩ : ∃ cs, op.spelling.toList = c :: cs := by
    unfold Token.Spell at hop
    rw [List.map_cons, ht] at hop
    obtain ⟨d, ds, hd, hdc, -⟩ := List.map_eq_cons_iff.1 hop.symm
    obtain rfl := Option.some.inj hdc
    exact ⟨ds, hd⟩
  have hmore : more.map Token.symbol? = cs.map some := by
    unfold Token.Spell at hop
    rw [hcs, List.map_cons, List.map_cons] at hop
    exact (List.cons.inj hop).2
  have hlen : more.length = cs.length := by simpa using congrArg List.length hmore
  have hmax : cs.length ≤ 2 := by
    have := spelling_length_le op
    rw [hcs, List.length_cons] at this
    exact Nat.le_of_succ_le_succ this
  have hrun : (s.lookahead Operator.spellingChars (Operator.maxSpellingLength - 1)).1 = cs := by
    have hall : ∀ d ∈ cs, Operator.spellingChars.contains d = true := fun d hd => by
      simpa using spelling_chars op d (by rw [hcs]; exact List.mem_cons_of_mem _ hd)
    rw [lookahead_eq hc hs, joined_append hmore, List.takeWhile_append_of_pos hall]
    have hnil : (joined ps).takeWhile Operator.spellingChars.contains = [] := by
      cases hj : joined ps with
      | nil => rfl
      | cons d ds =>
        have := hp d (by rw [hj]; rfl)
        exact List.takeWhile_cons_of_neg (by simpa using this)
    rw [hnil, List.append_nil]
    exact List.take_of_length_le hmax
  have hbehind : operatorBehind? (c :: cs) = some op := by
    rw [← hcs]
    exact operatorBehind?_spelling ho
  have hspelling : op.spelling.length - 1 = more.length := by
    rw [← String.length_toList, hcs, hlen, List.length_cons, Nat.add_sub_cancel]
  obtain ⟨taken, stream, hn, htakes, hd⟩ := discard_of_length hc Operator.spellingChars
    (Operator.maxSpellingLength - 1) (n := more.length) (by simp [Operator.spellingChars])
    (by rw [hrun, hlen])
  refine ⟨taken, stream, hn, htakes, ?_⟩
  unfold operatorToken
  simp only [hrun, hx, hbehind, hspelling, hd]
  exact h stream

theorem exprToken_symbol (hk : t.kind = .symbol) : s.exprToken x t = started (s.symbolToken x t) := by
  simp only [exprToken, hk]

theorem exprToken_identifier (hk : t.kind = .identifier) : s.exprToken x t = started (s.identifierToken x t) := by
  simp only [exprToken, hk]

theorem identifierToken_of_isPlain (ht : t.IsPlain s.gameMode) : s.identifierToken x t = s.nameToken x t := by
  unfold identifierToken
  split
  · rfl
  · simp only [ht.keyword]

theorem identifierToken_of_keyword {m : CallModifier} (ht : t.keyword? s.gameMode = some m.keyword)
    (hx : ∀ target rest, x.stack ≠ .member target :: rest) : s.identifierToken x t = s.modifierToken x m t := by
  unfold identifierToken
  split
  · next h => exact absurd h (hx _ _)
  · cases m <;> simp [ht, CallModifier.keyword]

theorem exprToken_of_open {c : Char} (ht : t.isSymbol c = true)
    (hx : ∀ top ∈ x.stack.head?, top.refusesCallee = false) :
    s.exprToken x t = started (s.symbolCharToken x c t) := by
  rw [exprToken_symbol (Token.kind_of_isSymbol ht), symbolToken_of_open ht hx]

theorem exprToken_literal {kind : LiteralKind} (hx : x.operandAllowed = true)
    (ht : t.literalKind? s.gameMode = some kind) :
    s.exprToken x t = started (s.literalToken x kind t) := by
  obtain ⟨-, htop⟩ := ExprState.operandAllowed_iff.1 hx
  unfold Token.literalKind? at ht
  unfold exprToken
  congr 1
  cases hk : t.kind <;> simp only [hk, reduceCtorEq, Option.some.injEq] at ht ⊢
  case identifier =>
    unfold identifierToken
    split
    · next h =>
      have := (htop _ (by rw [h]; rfl)).1
      simp [PendingExpr.refusesCallee, PendingExpr.expectsName] at this
    · split at ht
      · next h =>
        cases ht
        rw [h]
      · next h =>
        cases ht
        rw [h]
      · next h =>
        cases ht
        rw [h]
      · cases ht
  all_goals rw [ht]

theorem open_top {top : PendingExpr} {rest : List PendingExpr} (hx : ∀ p ∈ x.stack.head?, p.refusesCallee = false)
    (h : x.stack = top :: rest) : top.refusesCallee = false :=
  hx top (by rw [h]; rfl)

theorem nameToken_of_calleeAllowed (hx : x.calleeAllowed = true) :
    s.nameToken x t = s.setVariable x ⟨t.text, t.loc⟩ := by
  obtain ⟨hslot, htop⟩ := calleeAllowed_iff.1 hx
  unfold nameToken
  split
  · next h => exact nomatch (open_top htop h : true = false)
  · next h => exact nomatch (open_top htop h : true = false)
  · next h => exact nomatch (open_top htop h : true = false)
  · next h _ _ _ =>
    rw [hslot] at h
    cases h
  · rw [if_pos hx]

theorem nameToken_of_receiver {receiver : Expr} (hs : x.slot = some receiver)
    (hx : ∀ top ∈ x.stack.head?, top.isLead = false ∧ top.refusesCallee = false) :
    s.nameToken x t = s.setVariable (x.push (.lead receiver.loc ⟨some receiver, none⟩)) ⟨t.text, t.loc⟩ := by
  have htop := fun p hp => (hx p hp).2
  unfold nameToken
  split
  · next h => exact nomatch (open_top htop h : true = false)
  · next h => exact nomatch (open_top htop h : true = false)
  · next h => exact nomatch (open_top htop h : true = false)
  · next h _ _ _ =>
    obtain rfl := Option.some.inj (hs.symm.trans h)
    split
    · next h =>
      have := (hx _ (by rw [h]; rfl)).1
      cases this
    · next h => exact nomatch (open_top htop h : true = false)
    · next h => exact nomatch (open_top htop h : true = false)
    · rfl
  · next h _ _ _ =>
    rw [hs] at h
    cases h

theorem modifierToken_of_operandAllowed {m : CallModifier} (hx : x.operandAllowed = true) :
    s.modifierToken x m t = s.keep (x.push (.lead t.loc ⟨none, some m⟩)) := by
  obtain ⟨hslot, htop⟩ := ExprState.operandAllowed_iff.1 hx
  unfold modifierToken
  split
  · next h =>
    rw [hslot] at h
    cases h
  · next h =>
    have := (htop _ (by rw [h]; rfl)).2
    cases this
  · rw [if_pos hx]

theorem openParen_of_operandAllowed (hx : x.operandAllowed = true) :
    s.openParen x t = s.keep (x.push (.group t.loc [])) := by
  obtain ⟨hslot, htop⟩ := ExprState.operandAllowed_iff.1 hx
  unfold openParen
  split
  · next h => exact nomatch (open_top (fun p hp => (htop p hp).1) h : true = false)
  · rw [if_pos hx]
  · next h _ =>
    rw [hslot] at h
    cases h

theorem openParen_of_callTarget {e : Expr} {target : FunctionRef} (hs : x.slot = some e)
    (hx : ∀ top ∈ x.stack.head?, top.refusesCallee = false) (he : callTarget? e = some target) :
    s.openParen x t = s.keep (openCall x e.loc (.function target)) := by
  unfold openParen
  split
  · next h => exact nomatch (open_top hx h : true = false)
  · next h _ =>
    rw [hs] at h
    cases h
  · next h _ =>
    obtain rfl := Option.some.inj (hs.symm.trans h)
    simp only [he]

theorem openPointer_of_operandAllowed (hx : x.operandAllowed = true) :
    s.openPointer x t = s.keep (x.push (.pointerOpen t.loc {})) := by
  obtain ⟨hslot, htop⟩ := ExprState.operandAllowed_iff.1 hx
  unfold openPointer
  split
  · next h =>
    rw [hslot] at h
    cases h
  · next h =>
    have := (htop _ (by rw [h]; rfl)).2
    cases this
  · rw [if_pos hx]

theorem closePointer_of_double (loc : Location) (lead : CallLead) (rest : List PendingExpr) {pointer : Expr}
    (hc : s.stream.Closed) (hs : Shown false (s.stream.tokens.toList.drop s.stream.cursor) ((false, u) :: ps))
    (hu : u.isSymbol ']' = true) (hx : x.slot = some pointer) :
    s.Makes 1 (s.closePointer x loc lead rest t) s.nextId
      { x with stack := .pointerReady loc lead pointer :: rest, slot := none } := by
  have hrun : (s.lookahead [']'] 1).1 = [']'] := by
    rw [lookahead_eq hc hs, joined, Token.isSymbol_iff.1 hu]
    rfl
  obtain ⟨taken, stream, hn, htakes, hd⟩ :=
    discard_of_length hc [']'] 1 (n := 1) (by simp) (by rw [hrun]; exact Nat.le_refl 1)
  refine ⟨taken, stream, hn, htakes, ?_⟩
  unfold closePointer
  simp only [hrun, List.length_singleton, ne_eq, not_true_eq_false, if_false, hd, hx]
  rfl

theorem colon_of_double (hc : s.stream.Closed)
    (hs : Shown false (s.stream.tokens.toList.drop s.stream.cursor) ((false, u) :: ps))
    (hu : u.isSymbol ':' = true) (h : ∀ stream : TokenStream, (match x.stack, x.slot with
      | .path loc segments false :: rest, none =>
        { s with stream := stream }.keep { x with stack := .qualified loc (.path segments) :: rest }
      | _, some (.var node first) =>
        { s with stream := stream }.keep (x.push (.qualified node.loc (.path [first])))
      | _, none =>
        if x.calleeAllowed then { s with stream := stream }.keep (x.push (.qualified t.loc .own))
        else { s with stream := stream }.failFound t "`::`" "an operator"
      | _, some _ => { s with stream := stream }.failFound t "`::`" "an operator") =
      ({ s with stream := stream, nextId := id, expr := some y }, .consumed)) :
    s.Makes 1 (s.colon x t) id y := by
  have hrun : (s.lookahead [':'] 1).1 = [':'] := by
    rw [lookahead_eq hc hs, joined, Token.isSymbol_iff.1 hu]
    rfl
  obtain ⟨taken, stream, hn, htakes, hd⟩ :=
    discard_of_length hc [':'] 1 (n := 1) (by simp) (by rw [hrun]; exact Nat.le_refl 1)
  refine ⟨taken, stream, hn, htakes, ?_⟩
  unfold colon
  simp only [hrun, List.length_singleton, ne_eq, not_true_eq_false, if_false, hd]
  exact h stream

theorem openBracket_of_single (hc : s.stream.Closed)
    (hs : Shown false (s.stream.tokens.toList.drop s.stream.cursor) ps) (hj : (joined ps).head? ≠ some '[')
    (h : ∀ stream : TokenStream, (match x.slot with
      | some target => { s with stream := stream }.keep (x.push (.index target))
      | none =>
        if x.operandAllowed then { s with stream := stream }.keep (x.push (.array t.loc []))
        else { s with stream := stream }.failFound t "`[`" "a function name") =
      ({ s with stream := stream, nextId := id, expr := some y }, .consumed)) :
    s.Makes 0 (s.openBracket x t) id y := by
  obtain ⟨stream, hd, htakes⟩ := s.lookahead_takes ['['] 1
  refine ⟨[], stream, rfl, htakes, ?_⟩
  unfold openBracket
  simp only [lookahead_bracket hc hs hj, List.length_nil, Nat.zero_ne_one, if_false, hd]
  exact h stream

theorem symbolCharToken_operator {c : Char} (hc : c ∈ Operator.spellingChars) :
    s.symbolCharToken x c t = s.operatorToken x c t := by
  simp only [Operator.spellingChars, List.mem_cons, List.not_mem_nil, or_false] at hc
  rcases hc with rfl | rfl | rfl | rfl | rfl | rfl | rfl | rfl | rfl | rfl | rfl | rfl | rfl <;> rfl

theorem spell_head {ts : List Token} {op : Operator} (h : Token.Spell (t :: ts) op.spelling) :
    ∃ c, t.symbol? = some c ∧ c ∈ Operator.spellingChars := by
  obtain ⟨c, cs, hop, hc, -⟩ := List.map_eq_cons_iff.1 h.symm
  exact ⟨c, hc.symm, spelling_chars op c (by rw [hop]; exact List.mem_cons_self)⟩

theorem unary_char {op : Operator} (ho : op.fixity = .before) (h : Token.Spell [t] op.spelling) :
    ∃ c, t.symbol? = some c ∧ c ∈ Operator.spellingChars ∧ Operator.ofSpelling? c.toString .before = some op := by
  obtain ⟨c, hc, hmem⟩ := spell_head h
  refine ⟨c, hc, hmem, ?_⟩
  have hop : op.spelling.toList = [c] := by simpa [Token.Spell, hc] using h.symm
  have hs : c.toString = op.spelling := by
    rw [← String.toList_inj, hop]
    simp
  rw [hs]
  clear hs hop h
  revert ho
  cases op <;> decide +kernel

theorem assignToken_of_assignable {op : Operator} {e : Expr} (hx : ∀ top ∈ x.stack.head?,
      top.refusesCallee = false ∧ top.isLead = false ∧
        (top.isOperator = true → ∃ op' target', top = .assign op' target'))
    (hc : (x.stack = [] ∧ x.context.takesAssignment = true) ∨ s.config.allowAssignmentExpressions = true)
    (he : e.isAssignable = true) : s.assignToken x op e t = s.keep (x.push (.assign op e)) := by
  have hplain {top : PendingExpr} {rest : List PendingExpr} (h : x.stack = top :: rest) := hx top (by rw [h]; rfl)
  unfold assignToken
  split
  · next h => simpa using (hplain h).2.2 rfl
  · next h => simpa using (hplain h).2.2 rfl
  · next h => exact nomatch (hplain h).2.1
  · unfold assignTarget
    have hno : (!(x.stack.isEmpty && x.context.takesAssignment) && !s.config.allowAssignmentExpressions) = false := by
      obtain ⟨hs, ht⟩ | ha := hc
      · simp [hs, ht]
      · simp [ha]
    rw [hno, if_pos he]
    rfl

theorem spell_pair {c d : Char} {text : String} (h : Token.Spell [t, u] text) (ht : text.toList = [c, d]) :
    t.isSymbol c = true ∧ u.isSymbol d = true := by
  simpa [Token.Spell, ht, Token.isSymbol_iff] using h

end Handlers

theorem exprToken_of_shift {s : Session} {x y : ExprState} {t : Token} {more : List Token} {id : Nat}
    {ps : List Piece} (hc : s.stream.Closed) (hset : x.Settled) (h : Shift s.config s.nextId x (t :: more) id y)
    (hs : Shown false (s.stream.tokens.toList.drop s.stream.cursor) (more.map (fun u => (false, u)) ++ ps))
    (hb : t.isSymbol '[' = true → more = [] → (joined ps).head? ≠ some '[')
    (hp : x.slot.isSome = true → ∀ c ∈ Operator.spellingChars, t.isSymbol c = true → Calm ps) :
    s.Makes more.length (s.exprToken x t) id { y with started := true } := by
  -- Behind an operand, where one may start, and behind operators that were joined, no name is due.
  have hopen {e : Expr} (he : x.slot = some e) := hset.open_of_some he
  have hidle (hx : x.operandAllowed = true) : ∀ top ∈ x.stack.head?, top.refusesCallee = false :=
    fun top ht => ((ExprState.operandAllowed_iff.1 hx).2 top ht).1
  have hfolds {z : ExprState} {id' : Nat} {top : PendingExpr} {rest : List PendingExpr}
      (hf : Folds PendingExpr.isOperator s.nextId x id' z) (hz : z.stack = top :: rest)
      (ht : top.refusesCallee = false) : ∀ p ∈ x.stack.head?, p.refusesCallee = false :=
    Folds.open_of hf (by simpa [hz] using ht)
  generalize hts : t :: more = ts at h
  cases h with
  -- Literals and words
  | literal hx ht =>
    obtain ⟨rfl, rfl⟩ := List.cons.inj hts
    rw [exprToken_literal hx ht, literalToken, if_pos hx]
    exact (Makes.here rfl).started
  | plainName hx ht =>
    obtain ⟨rfl, rfl⟩ := List.cons.inj hts
    rw [exprToken_identifier ht.kind, identifierToken_of_isPlain ht, nameToken_of_calleeAllowed hx]
    exact (Makes.here rfl).started
  | receiver he hx ht =>
    obtain ⟨rfl, rfl⟩ := List.cons.inj hts
    rw [exprToken_identifier ht.kind, identifierToken_of_isPlain ht, nameToken_of_receiver he hx]
    exact (Makes.here rfl).started
  | memberName hx ht =>
    obtain ⟨rfl, rfl⟩ := List.cons.inj hts
    rw [exprToken_identifier ht]
    refine (Makes.here ?_).started
    simp only [identifierToken, nameToken, hx]
    rfl
  | segment hx ht | functionName hx ht =>
    obtain ⟨rfl, rfl⟩ := List.cons.inj hts
    rw [exprToken_identifier ht.kind, identifierToken_of_isPlain ht]
    refine (Makes.here ?_).started
    simp only [nameToken, hx]
    rfl
  | modifierBehind he hx hn ht =>
    obtain ⟨rfl, rfl⟩ := List.cons.inj hts
    rw [exprToken_identifier (Token.kind_of_keyword ht), identifierToken_of_keyword ht hn]
    refine (Makes.here ?_).started
    simp only [modifierToken, he, hx]
    rfl
  | modifierInLead he hx hl ht =>
    obtain ⟨rfl, rfl⟩ := List.cons.inj hts
    rw [exprToken_identifier (Token.kind_of_keyword ht), identifierToken_of_keyword ht (by simp [hx])]
    refine (Makes.here ?_).started
    simp only [modifierToken, he, hx, hl]
    rfl
  | modifier hx ht =>
    obtain ⟨rfl, rfl⟩ := List.cons.inj hts
    rw [exprToken_identifier (Token.kind_of_keyword ht), identifierToken_of_keyword ht fun _ _ h =>
      absurd (open_top (hidle hx) h : true = false) Bool.noConfusion]
    exact (Makes.here (modifierToken_of_operandAllowed hx)).started
  -- Brackets and what is between them
  | openPointerArgs hx ht =>
    obtain ⟨rfl, rfl⟩ := List.cons.inj hts
    rw [exprToken_symbol (Token.kind_of_isSymbol ht)]
    refine (Makes.here ?_).started
    simp only [symbolToken, Token.isSymbol_iff.1 ht, hx, PendingExpr.expectsName]
    simp only [symbolCharToken, openParen, hx]
    rfl
  | openGroup hx ht =>
    obtain ⟨rfl, rfl⟩ := List.cons.inj hts
    rw [exprToken_of_open ht (hidle hx)]
    exact (Makes.here (openParen_of_operandAllowed hx)).started
  | openArgs he hx hcall ht =>
    obtain ⟨rfl, rfl⟩ := List.cons.inj hts
    rw [exprToken_of_open ht hx]
    exact (Makes.here (openParen_of_callTarget he hx hcall)).started
  | closeGroup hf hy he ht | closeTruple hf hy he ht =>
    obtain ⟨rfl, rfl⟩ := List.cons.inj hts
    rw [exprToken_of_open ht (hfolds hf hy rfl)]
    refine (Makes.here ?_).started
    show s.closeParen x t = _
    rw [closeParen, folded_of_folds hf]
    simp only [hy, he]
    rfl
  | closeArgs hf hy he ht =>
    obtain ⟨rfl, rfl⟩ := List.cons.inj hts
    rw [exprToken_of_open ht (hfolds hf hy rfl)]
    refine (Makes.here ?_).started
    show s.closeParen x t = _
    rw [closeParen, folded_of_folds hf]
    simp only [hy]
    rw [if_neg (by simpa using he)]
    rfl
  | nextItem hf hy he hl ht =>
    obtain ⟨rfl, rfl⟩ := List.cons.inj hts
    rw [exprToken_of_open ht (hfolds hf hy rfl)]
    refine (Makes.here ?_).started
    show s.comma x t = _
    rw [comma, folded_of_folds hf]
    simp only [hy, he, if_neg hl]
    rfl
  | nextArg hf hy he ht | nextElement hf hy he ht =>
    obtain ⟨rfl, rfl⟩ := List.cons.inj hts
    rw [exprToken_of_open ht (hfolds hf hy rfl)]
    refine (Makes.here ?_).started
    show s.comma x t = _
    rw [comma, folded_of_folds hf]
    simp only [hy, he]
    rfl
  | pointerBehind he hx ht =>
    obtain ⟨rfl, rfl⟩ := List.cons.inj hts
    obtain ⟨ht, hu⟩ := spell_pair (c := '[') (d := '[') ht rfl
    rw [exprToken_of_open ht (hopen he)]
    refine (openBracket_of_double hc hs hu fun stream => ?_).started
    have hlead := topIsLead_eq_false_iff.2 fun top htop => (hx top htop).1
    simp only [openPointer, he, hlead]
    rfl
  | pointerInLead he hx ht =>
    obtain ⟨rfl, rfl⟩ := List.cons.inj hts
    obtain ⟨ht, hu⟩ := spell_pair (c := '[') (d := '[') ht rfl
    rw [exprToken_of_open ht (by simp [hx, PendingExpr.refusesCallee, PendingExpr.expectsName])]
    refine (openBracket_of_double hc hs hu fun stream => ?_).started
    simp only [openPointer, he, hx]
    rfl
  | openPointer hx ht =>
    obtain ⟨rfl, rfl⟩ := List.cons.inj hts
    obtain ⟨ht, hu⟩ := spell_pair (c := '[') (d := '[') ht rfl
    rw [exprToken_of_open ht (hidle hx)]
    exact (openBracket_of_double hc hs hu fun stream => openPointer_of_operandAllowed hx).started
  | openIndex he hx ht =>
    obtain ⟨rfl, rfl⟩ := List.cons.inj hts
    rw [exprToken_of_open ht hx]
    refine (openBracket_of_single hc hs (hb ht rfl) fun stream => ?_).started
    simp only [he]
    rfl
  | openArray hx ht =>
    obtain ⟨rfl, rfl⟩ := List.cons.inj hts
    rw [exprToken_of_open ht (hidle hx)]
    refine (openBracket_of_single hc hs (hb ht rfl) fun stream => ?_).started
    simp only [(ExprState.operandAllowed_iff.1 hx).1, hx]
    rfl
  | closePointer hf hy he ht =>
    obtain ⟨rfl, rfl⟩ := List.cons.inj hts
    obtain ⟨ht, hu⟩ := spell_pair (c := ']') (d := ']') ht rfl
    rw [exprToken_of_open ht (hfolds hf hy rfl)]
    obtain ⟨taken, stream, hn, htakes, hm⟩ :=
      closePointer_of_double (s := { s with nextId := id }) (t := t) _ _ _ hc hs hu he
    refine Makes.started ⟨taken, stream, hn, htakes, ?_⟩
    show s.closeBracket x t = _
    rw [closeBracket, folded_of_folds hf]
    simp only [hy]
    exact hm
  | closeIndex hf hy he ht =>
    obtain ⟨rfl, rfl⟩ := List.cons.inj hts
    rw [exprToken_of_open ht (hfolds hf hy rfl)]
    refine (Makes.here ?_).started
    show s.closeBracket x t = _
    rw [closeBracket, folded_of_folds hf]
    simp only [hy, he]
    rfl
  | closeArray hf hy he ht =>
    obtain ⟨rfl, rfl⟩ := List.cons.inj hts
    rw [exprToken_of_open ht (hfolds hf hy rfl)]
    refine (Makes.here ?_).started
    show s.closeBracket x t = _
    rw [closeBracket, folded_of_folds hf]
    simp only [hy]
    rw [if_neg (by simpa using he)]
    rfl
  -- Points, backslashes and colons
  | point he hx ht =>
    obtain ⟨rfl, rfl⟩ := List.cons.inj hts
    rw [exprToken_of_open ht hx]
    refine (Makes.here ?_).started
    show s.point x t = _
    simp only [point, he]
    rfl
  | backslash he hx ht =>
    obtain ⟨rfl, rfl⟩ := List.cons.inj hts
    rw [exprToken_symbol (Token.kind_of_isSymbol ht)]
    refine (Makes.here ?_).started
    simp only [symbolToken, Token.isSymbol_iff.1 ht, hx, PendingExpr.expectsName]
    show s.pathSeparator x t = _
    simp only [pathSeparator, hx, he]
    rfl
  | firstBackslash he ht =>
    obtain ⟨rfl, rfl⟩ := List.cons.inj hts
    rw [exprToken_of_open ht (hopen he)]
    refine (Makes.here ?_).started
    show s.pathSeparator x t = _
    simp only [pathSeparator, he]
    rfl
  | qualifyPath he hx ht =>
    obtain ⟨rfl, rfl⟩ := List.cons.inj hts
    obtain ⟨ht, hu⟩ := spell_pair (c := ':') (d := ':') ht rfl
    rw [exprToken_symbol (Token.kind_of_isSymbol ht)]
    refine Makes.started ?_
    simp only [symbolToken, Token.isSymbol_iff.1 ht, hx, PendingExpr.expectsName]
    refine colon_of_double hc hs hu fun stream => ?_
    simp only [hx, he]
    rfl
  | qualifyName he ht =>
    obtain ⟨rfl, rfl⟩ := List.cons.inj hts
    obtain ⟨ht, hu⟩ := spell_pair (c := ':') (d := ':') ht rfl
    rw [exprToken_of_open ht (hopen he)]
    refine (colon_of_double hc hs hu fun stream => ?_).started
    simp only [he]
    rfl
  | qualifyOwn hx ht =>
    obtain ⟨rfl, rfl⟩ := List.cons.inj hts
    obtain ⟨ht, hu⟩ := spell_pair (c := ':') (d := ':') ht rfl
    obtain ⟨hslot, htop⟩ := calleeAllowed_iff.1 hx
    rw [exprToken_of_open ht htop]
    refine (colon_of_double hc hs hu fun stream => ?_).started
    split
    · next h _ => cases (open_top htop h : true = false)
    · next h =>
      rw [hslot] at h
      cases h
    · rw [if_pos hx]
      rfl
    · next h =>
      rw [hslot] at h
      cases h
  -- Operators
  | unary hx ho ht =>
    obtain ⟨rfl, rfl⟩ := List.cons.inj hts
    obtain ⟨c, hsym, hmem, hfind⟩ := unary_char ho ht
    rw [exprToken_of_open (Token.isSymbol_iff.2 hsym) (hidle hx), symbolCharToken_operator hmem]
    refine Makes.started ?_
    -- The run is looked at, but only its first character counts here.
    obtain ⟨stream, hl, htakes⟩ :=
      s.lookahead_takes Operator.spellingChars (Operator.maxSpellingLength - 1)
    refine ⟨[], stream, rfl, htakes, ?_⟩
    unfold operatorToken
    simp only [(ExprState.operandAllowed_iff.1 hx).1, hl]
    simp only [unaryToken, hfind, if_pos hx]
    rfl
  | suffix he hx ha ho ht =>
    subst hts
    obtain ⟨c, hsym, hmem⟩ := spell_head ht
    rw [exprToken_of_open (Token.isSymbol_iff.2 hsym) hx, symbolCharToken_operator hmem]
    -- Behind an operand the longest spelling counts, and nothing that follows makes a longer one.
    refine (operatorToken_of_spell hc hs (hp (by simp [he]) c hmem (Token.isSymbol_iff.2 hsym)) hsym he
      (by simp [ho]) ht fun stream => ?_).started
    simp only [ho, suffixToken, if_pos ha]
    rfl
  | assign he hx hcond ha ho ht =>
    subst hts
    obtain ⟨c, hsym, hmem⟩ := spell_head ht
    rw [exprToken_of_open (Token.isSymbol_iff.2 hsym) fun top htop => (hx top htop).1,
      symbolCharToken_operator hmem]
    refine (operatorToken_of_spell hc hs (hp (by simp [he]) c hmem (Token.isSymbol_iff.2 hsym)) hsym he
      (by simp [ho]) ht fun stream => ?_).started
    simp only [ho]
    exact assignToken_of_assignable hx hcond ha
  | binary hf hsome he ho ht =>
    subst hts
    obtain ⟨c, hsym, hmem⟩ := spell_head ht
    obtain ⟨operand, hx⟩ := Option.isSome_iff_exists.1 hsome
    rw [exprToken_of_open (Token.isSymbol_iff.2 hsym) (hopen hx), symbolCharToken_operator hmem]
    refine (operatorToken_of_spell hc hs (hp hsome c hmem (Token.isSymbol_iff.2 hsym)) hsym hx
      (by simp [ho]) ht fun stream => ?_).started
    simp only [ho, binaryToken]
    rw [foldWhile_of_folds (s := { s with stream := stream }) hf]
    simp only [he]
    rfl

end Session

end GameScript
