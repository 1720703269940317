import GameScript.Proofs.Frame
import GameScript.Proofs.LikeDeclaration
import GameScript.Proofs.Squeezed

namespace GameScript

theorem Token.isTrivia_of_symbol {t : Token} {c : Char} (h : t.symbol? = some c) : t.isTrivia = false := by
  unfold symbol? at h
  split at h
  · next hk => simp [isTrivia, hk]
  · cases h

namespace TokenStream

variable {a b : TokenStream}

theorem significantBefore_le {i j : Nat} (h : i ≤ j) : a.significantBefore i ≤ a.significantBefore j := by
  unfold significantBefore
  exact ((List.take_sublist_take_left h).filter _).length_le

theorem significantBefore_symbolsFrom (ha : a.Closed) (allowed : List Char) {i limit n : Nat}
    (hn : n ≤ (a.symbolsFrom allowed i limit).length) :
    a.significantBefore (i + n) = a.significantBefore i + n := by
  induction n generalizing i limit with
  | zero => rfl
  | succ n ih =>
    cases limit with
    | zero => simp [symbolsFrom] at hn
    | succ limit =>
      rw [symbolsFrom] at hn
      split at hn
      · next c hc =>
        split at hn
        · have hnext : a.significantBefore (i + 1) = a.significantBefore i + 1 := by
            rw [significantBefore, take_succ (ha.lt_of_symbol hc)]
            simp [Token.isTrivia_of_symbol hc, significantBefore]
          rw [Nat.add_comm n, ← Nat.add_assoc, ih (Nat.le_of_succ_le_succ hn), hnext, Nat.add_assoc]
        · simp at hn
      · simp at hn

theorem significantBefore_commit (ha : a.Closed) (allowed : List Char) (limit : Nat) {n : Nat}
    (hn : n ≤ (a.symbols allowed limit).1.length) :
    ((a.symbols allowed limit).2.commit n).significantBefore ((a.symbols allowed limit).2.commit n).cursor =
      a.significantBefore a.cursor + n := by
  have hsize := ha.symbolsFrom_le allowed ha.cursor limit
  have hcursor : ((a.symbols allowed limit).2.commit n).cursor = a.cursor + n := by
    simp only [symbols, commit] at hn ⊢
    omega
  rw [hcursor]
  exact significantBefore_symbolsFrom ha allowed hn

theorem Level.commit {skipped : Nat} (h : Level skipped a b) (ha : a.Closed) (hb : b.Closed) {allowed : List Char}
    {limit n : Nat} (hn : n ≤ (a.symbols allowed limit).1.length) (hn' : n ≤ (b.symbols allowed limit).1.length) :
    Level skipped ((a.symbols allowed limit).2.commit n) ((b.symbols allowed limit).2.commit n) := by
  refine ⟨?_, h.last⟩
  rw [significantBefore_commit ha allowed limit hn, significantBefore_commit hb allowed limit hn', h.cursor, Nat.add_assoc]

end TokenStream

namespace Session

/-- Both sessions are behind the token. What only the second finds next to it is of no use. -/
structure Abreast (g : Guise) (t : Token) (s r : Session) : Prop where
  like : Like g s r
  closed : s.stream.Closed
  closed' : r.stream.Closed
  runs : ∀ c, t.symbol? = some c → ∀ allowed limit,
    Pack.Extends c (s.stream.symbols allowed limit).1 (r.stream.symbols allowed limit).1

variable {g : Guise} {t : Token} {s r : Session} {c : Char}

namespace Abreast

theorem congr {s' r' : Session} (h : Abreast g t s r) (hl : Like g s' r') (hs : s'.stream = s.stream)
    (hr : r'.stream = r.stream) : Abreast g t s' r' :=
  ⟨hl, by rw [hs]; exact h.closed, by rw [hr]; exact h.closed', by rw [hs, hr]; exact h.runs⟩

theorem double (h : Abreast g t s r) (hc : t.symbol? = some c) (hj : Pack.charsJoin c c = true) (limit : Nat) :
    (r.lookahead [c] limit).1 = (s.lookahead [c] limit).1 := by
  refine (h.runs c hc [c] limit).eq_of_single hj fun d hd => ?_
  exact List.mem_singleton.1 (r.stream.symbolsFrom_allowed [c] r.stream.cursor limit d hd)

theorem discard (h : Abreast g t s r) {allowed : List Char} {limit n : Nat}
    (hs : n ≤ (s.lookahead allowed limit).1.length) (hr : n ≤ (r.lookahead allowed limit).1.length) :
    Like g ((s.lookahead allowed limit).2.discard n) ((r.lookahead allowed limit).2.discard n) := by
  have hc := h.closed
  have hc' := h.closed'
  obtain ⟨o, rfl, ho⟩ := h.like
  exact ⟨{ o with stream := (o.stream.symbols allowed limit).2.commit n }, rfl, ho.stream.commit hc hc' hs hr, ho.warned, ho.failed⟩

theorem lookahead (h : Abreast g t s r) (allowed : List Char) (limit : Nat) :
    Like g (s.lookahead allowed limit).2 (r.lookahead allowed limit).2 := by
  obtain ⟨o, rfl, ho⟩ := h.like
  exact ⟨{ o with stream := (o.stream.symbols allowed limit).2 }, rfl, ho.stream.symbols, ho.warned, ho.failed⟩

theorem openBracket (h : Abreast g t s r) (x : ExprState) (hc : t.symbol? = some '[') :
    LikeMove g (s.openBracket x t) (r.openBracket (g.exprState x) (g.token t)) := by
  have heq (q : Session) (z : ExprState) (v : Token) : q.openBracket z v =
      if (q.lookahead ['['] 1).1.length = 1 then ((q.lookahead ['['] 1).2.discard 1).openPointer z v
      else (q.lookahead ['['] 1).2.singleBracket z v := rfl
  have hrun := h.double hc (by decide +kernel) 1
  rw [heq, heq, hrun]
  refine Like.byCases (fun hl => ?_) fun _ => (h.lookahead _ _).singleBracket x t
  exact (h.discard (Nat.le_of_eq hl.symm) (by rw [hrun, hl])).openPointer x t

theorem colon (h : Abreast g t s r) (x : ExprState) (hc : t.symbol? = some ':') :
    LikeMove g (s.colon x t) (r.colon (g.exprState x) (g.token t)) := by
  have heq (q : Session) (z : ExprState) (v : Token) : q.colon z v =
      if (q.lookahead [':'] 1).1.length ≠ 1 then (q.lookahead [':'] 1).2.ended z
      else ((q.lookahead [':'] 1).2.discard 1).doubleColon z v := rfl
  have hrun := h.double hc (by decide +kernel) 1
  rw [heq, heq, hrun]
  refine Like.byCases (fun _ => (h.lookahead _ _).ended x) fun hl => ?_
  rw [not_not] at hl
  exact (h.discard (Nat.le_of_eq hl.symm) (by rw [hrun, hl])).doubleColon x t

theorem folded {next next' : Session → ExprState → ExprMove} (h : Abreast g t s r) (x : ExprState)
    (hn : ∀ s' r' x', Abreast g t s' r' → LikeMove g (next s' x') (next' r' (g.exprState x'))) :
    LikeMove g (s.folded x t next) (r.folded (g.exprState x) (g.token t) next') :=
  h.like.folded x t fun _ _ x' hl hs hr => hn _ _ x' (h.congr hl hs hr)

end Abreast

def closeListed (s : Session) (x : ExprState) (t : Token) : ExprMove :=
  match x.stack with
  | [] => s.ended x
  | .index target :: _ =>
    match x.slot with
    | some index =>
      let (node, s) := s.withNode target.loc
      s.keep (x.close (.index node target index))
    | none => s.fail .missingIndex t.loc t
  | .array loc items :: _ =>
    if x.slot.isNone && !items.isEmpty then s.fail (.missingBefore "]") t.loc t
    else
      let (node, s) := s.withNode loc
      s.keep (x.close (.array node (items ++ x.slot.toList)))
  | _ => s.failFound t "`]`" "an expression"

theorem Like.closeListed (h : Like g s r) (x : ExprState) (t : Token) :
    LikeMove g (s.closeListed x t) (r.closeListed (g.exprState x) (g.token t)) := by
  obtain ⟨context, started, stack, slot⟩ := x
  rcases stack with _ | ⟨top, rest⟩
  · exact h.ended _
  · cases top with
    | index target =>
      cases slot with
      | some index =>
        simp only [Session.closeListed, Recast.exprState, Recast.pendingExpr, List.map_cons, Recast.expr?, Recast.loc_expr]
        refine h.keepWith target.loc fun hn => ?_
        simp only [Session.withNode, hn, Recast.close_exprState, Recast.expr]
        rfl
      | none => exact h.fail (.refl rfl) t.loc t
    | array loc items =>
      have hmissing : ((g.expr? slot).isNone && !(g.exprs items).isEmpty) = (slot.isNone && !items.isEmpty) := by simp
      simp only [Session.closeListed, Recast.exprState, Recast.pendingExpr, List.map_cons, hmissing]
      refine byCases (fun _ => h.fail (.refl rfl) t.loc t) fun _ => h.keepWith loc fun hn => ?_
      simp only [Session.withNode, hn, Recast.close_exprState, Recast.expr, Recast.exprs_append]
      rfl
    | _ => exact h.failFound t _ _

def closeDouble (s : Session) (x : ExprState) (loc : Location) (lead : CallLead) (rest : List PendingExpr) (t : Token) :
    ExprMove :=
  match x.slot with
  | some pointer => s.keep { x with stack := .pointerReady loc lead pointer :: rest, slot := none }
  | none => s.fail .missingPointer t.loc t

theorem Like.closeDouble (h : Like g s r) (x : ExprState) (loc : Location) (lead : CallLead) (rest : List PendingExpr)
    (t : Token) : LikeMove g (s.closeDouble x loc lead rest t)
      (r.closeDouble (g.exprState x) (g.loc loc) (g.lead lead) (rest.map g.pendingExpr) (g.token t)) := by
  obtain ⟨context, started, stack, slot⟩ := x
  cases slot with
  | some pointer => exact h.keep ⟨context, started, .pointerReady loc lead pointer :: rest, none⟩
  | none => exact h.fail (.refl rfl) t.loc t

def openPointer? : List PendingExpr → Option (Location × CallLead × List PendingExpr)
  | .pointerOpen loc lead :: rest => some (loc, lead, rest)
  | _ => none

theorem openPointer?_pendingExpr (g : Guise) (stack : List PendingExpr) : openPointer? (stack.map g.pendingExpr) =
    (openPointer? stack).map fun q => (g.loc q.1, g.lead q.2.1, q.2.2.map g.pendingExpr) := by
  rcases stack with _ | ⟨top, rest⟩
  · rfl
  · cases top <;> rfl

def closeBehind (s : Session) (x : ExprState) (t : Token) : ExprMove :=
  match openPointer? x.stack with
  | some (loc, lead, rest) => s.closePointer x loc lead rest t
  | none => s.closeListed x t

theorem closeBracket_eq (s : Session) (x : ExprState) (t : Token) :
    s.closeBracket x t = s.folded x t fun s x => s.closeBehind x t := by
  unfold closeBracket
  congr
  funext s x
  obtain ⟨context, started, stack, slot⟩ := x
  rcases stack with _ | ⟨top, rest⟩
  · rfl
  · cases top <;> rfl

namespace Abreast

theorem closePointer (h : Abreast g t s r) (x : ExprState) (loc : Location) (lead : CallLead) (rest : List PendingExpr)
    (hc : t.symbol? = some ']') : LikeMove g (s.closePointer x loc lead rest t)
      (r.closePointer (g.exprState x) (g.loc loc) (g.lead lead) (rest.map g.pendingExpr) (g.token t)) := by
  have heq (q : Session) (z : ExprState) (loc : Location) (lead : CallLead) (rest : List PendingExpr) (v : Token) :
      q.closePointer z loc lead rest v =
      if (q.lookahead [']'] 1).1.length ≠ 1 then (q.lookahead [']'] 1).2.failFound v "`]`" "`]]`"
      else ((q.lookahead [']'] 1).2.discard 1).closeDouble z loc lead rest v := rfl
  have hrun := h.double hc (by decide +kernel) 1
  rw [heq, heq, hrun]
  refine Like.byCases (fun _ => (h.lookahead _ _).failFound t _ _) fun hl => ?_
  rw [not_not] at hl
  exact (h.discard (Nat.le_of_eq hl.symm) (by rw [hrun, hl])).closeDouble x loc lead rest t

theorem closeBracket (h : Abreast g t s r) (x : ExprState) (hc : t.symbol? = some ']') :
    LikeMove g (s.closeBracket x t) (r.closeBracket (g.exprState x) (g.token t)) := by
  rw [closeBracket_eq, closeBracket_eq]
  refine h.folded x fun s r x h => ?_
  unfold closeBehind
  rw [show (g.exprState x).stack = x.stack.map g.pendingExpr from rfl, openPointer?_pendingExpr]
  cases openPointer? x.stack with
  | none => exact h.like.closeListed x t
  | some q => exact h.closePointer x q.1 q.2.1 q.2.2 hc

end Abreast

def readOperator (s : Session) (x : ExprState) (first : Char) (op? : Option Operator) (t : Token) : ExprMove :=
  match x.slot with
  | none => s.unaryToken x first t
  | some operand =>
    match op? with
    | none => s.failUnexpected t "an operator"
    | some op =>
      match op.fixity with
      | .after => s.suffixToken x op operand t
      | .assigning => s.assignToken x op operand t
      | .between => s.binaryToken x op t
      | .before => s.failUnexpected t "an operator"

theorem Like.readOperator (h : Like g s r) (x : ExprState) (first : Char) (op? : Option Operator) (t : Token) :
    LikeMove g (s.readOperator x first op? t) (r.readOperator (g.exprState x) first op? (g.token t)) := by
  have hunary := h.unaryToken x first t
  have hsuffix := h.suffixToken x
  have hassign := h.assignToken x
  have hbinary := h.binaryToken x
  obtain ⟨context, started, stack, slot⟩ := x
  cases slot with
  | none => exact hunary
  | some operand =>
    cases op? with
    | none => exact h.failUnexpected t _
    | some op =>
      simp only [Session.readOperator, Recast.exprState, Recast.expr?]
      cases op.fixity with
      | after => exact hsuffix op operand t
      | assigning => exact hassign op operand t
      | between => exact hbinary op t
      | before => exact h.failUnexpected t _

def operatorRun (s : Session) : List Char × Session :=
  s.lookahead Operator.spellingChars (Operator.maxSpellingLength - 1)

def behindOperator (s : Session) (op? : Option Operator) : Session :=
  match op? with
  | some op => s.operatorRun.2.discard (op.spelling.length - 1)
  | none => s.operatorRun.2

theorem operatorToken_eq (s : Session) (x : ExprState) (first : Char) (t : Token) : s.operatorToken x first t =
    if x.slot.isSome then
      (s.behindOperator (operatorBehind? (first :: s.operatorRun.1))).readOperator x first
        (operatorBehind? (first :: s.operatorRun.1)) t
    else s.operatorRun.2.unaryToken x first t := by
  obtain ⟨context, started, stack, slot⟩ := x
  cases slot with
  | none => rfl
  | some operand =>
    rw [operatorToken, ← operatorRun]
    simp only [Option.isSome_some, if_true]
    cases operatorBehind? (first :: s.operatorRun.1) <;> rfl

namespace Abreast

theorem operatorToken (h : Abreast g t s r) (x : ExprState) (hc : t.symbol? = some c) :
    LikeMove g (s.operatorToken x c t) (r.operatorToken (g.exprState x) c (g.token t)) := by
  have hslot : (g.exprState x).slot.isSome = x.slot.isSome := by simp [Recast.exprState]
  have hop : operatorBehind? (c :: r.operatorRun.1) = operatorBehind? (c :: s.operatorRun.1) :=
    (h.runs c hc _ _).operatorBehind?
  have hrun : Like g s.operatorRun.2 r.operatorRun.2 := h.lookahead _ _
  have hbehind : Like g (s.behindOperator (operatorBehind? (c :: s.operatorRun.1)))
      (r.behindOperator (operatorBehind? (c :: s.operatorRun.1))) := by
    cases ho : operatorBehind? (c :: s.operatorRun.1) with
    | none => exact hrun
    | some op =>
      have hlength {run : List Char} (h : operatorBehind? (c :: run) = some op) : op.spelling.length - 1 ≤ run.length := by
        obtain ⟨n, hn⟩ := spelling_of_operatorBehind? h
        have := congrArg List.length hn
        simp only [String.length_toList, List.length_take, List.length_cons] at this
        omega
      exact h.discard (hlength ho) (hlength (hop.trans ho))
  rw [operatorToken_eq, operatorToken_eq, hop, hslot]
  exact Like.byCases (fun _ => hbehind.readOperator x c _ t) fun _ => hrun.unaryToken x c t

theorem symbolCharToken (h : Abreast g t s r) (x : ExprState) (hc : t.symbol? = some c) :
    LikeMove g (s.symbolCharToken x c t) (r.symbolCharToken (g.exprState x) c (g.token t)) := by
  unfold Session.symbolCharToken
  refine Like.byCases (fun _ => h.like.openParen x t) fun _ => Like.byCases (fun _ => h.like.closeParen x t) fun _ =>
    Like.byCases (fun _ => h.like.comma x t) fun _ => Like.byCases (fun hb => h.openBracket x (hb ▸ hc)) fun _ =>
    Like.byCases (fun hb => h.closeBracket x (hb ▸ hc)) fun _ => Like.byCases (fun _ => h.like.point x t) fun _ =>
    Like.byCases (fun _ => h.like.pathSeparator x t) fun _ => Like.byCases (fun hb => h.colon x (hb ▸ hc)) fun _ =>
    Like.byCases (fun _ => h.operatorToken x hc) fun _ => h.like.ended x

end Abreast

def awaited? (x : ExprState) (c : Char) : Option String :=
  match x.stack with
  | [] => none
  | top :: _ =>
    if top.expectsName then some "an identifier"
    else
      match top with
      | .path .. => if c = '\\' ∨ c = ':' then none else some "`::`"
      | .pointerReady .. => if c = '(' then none else some "`(`"
      | _ => none

theorem awaited?_exprState (g : Guise) (x : ExprState) (c : Char) : awaited? (g.exprState x) c = awaited? x c := by
  obtain ⟨context, started, stack, slot⟩ := x
  rcases stack with _ | ⟨top, rest⟩
  · rfl
  · cases top <;> rfl

theorem symbolToken_eq (s : Session) (x : ExprState) (t : Token) : s.symbolToken x t =
    match t.symbol? with
    | none => s.ended x
    | some c =>
      match awaited? x c with
      | some expected => s.failUnexpected t expected
      | none => s.symbolCharToken x c t := by
  unfold symbolToken awaited?
  cases t.symbol? with
  | none => rfl
  | some c =>
    simp only
    cases x.stack with
    | nil => rfl
    | cons top rest =>
      simp only
      split
      · rfl
      · cases top <;> simp only <;> split <;> rfl

namespace Abreast

theorem symbolToken (h : Abreast g t s r) (x : ExprState) :
    LikeMove g (s.symbolToken x t) (r.symbolToken (g.exprState x) (g.token t)) := by
  rw [symbolToken_eq, symbolToken_eq, Recast.symbol?_token]
  cases hc : t.symbol? with
  | none => exact h.like.ended x
  | some c =>
    simp only [awaited?_exprState]
    cases awaited? x c with
    | some expected => exact h.like.failUnexpected t expected
    | none => exact h.symbolCharToken x hc

theorem exprToken (h : Abreast g t s r) (x : ExprState) :
    LikeMove g (s.exprToken x t) (r.exprToken (g.exprState x) (g.token t)) := by
  have hl := h.like
  unfold Session.exprToken
  refine Like.started ?_
  rw [show (g.token t).kind = t.kind from rfl]
  cases hk : t.kind with
  | identifier => exact hl.identifierToken x hk
  | number =>
    rw [Recast.text_token (by rw [hk]; decide)]
    have hword : (numberKind t.text).isWord = false := by
      unfold numberKind
      split <;> rfl
    exact hl.literalToken x (by simp [hword, hk])
  | string | metaString | resource => exact hl.literalToken x (by simp [LiteralKind.isWord, hk])
  | symbol => exact h.symbolToken x
  | eof | comment | whitespace => exact hl.ended x

theorem feedExpr (h : Abreast g t s r) (hp : g.Permits t (s.feedExpr t)) : Like g (s.feedExpr t) (r.feedExpr (g.token t)) := by
  have hexpr : r.expr = s.expr.map g.exprState := by
    obtain ⟨o, rfl, -⟩ := h.like
    rfl
  unfold Session.feedExpr at hp ⊢
  rw [hexpr]
  cases hs : s.expr with
  | none => exact h.like
  | some x =>
    have hmove := h.exprToken x
    simp only [hs] at hp
    simp only [Option.map_some]
    generalize s.exprToken x t = m, r.exprToken (g.exprState x) (g.token t) = n at hmove hp
    obtain ⟨s', flow⟩ := m
    obtain ⟨r', flow'⟩ := n
    obtain ⟨hl, hflow⟩ := hmove
    simp only at hl hflow
    subst hflow
    cases flow' with
    | consumed => exact hl
    | terminated =>
      have hrest : r'.expr.getD (g.exprState x) = g.exprState (s'.expr.getD x) := by
        obtain ⟨o, rfl, -⟩ := hl
        exact Option.getD_map ..
      obtain ⟨hfinished, hcompleted⟩ := hl.finishExpr (s'.expr.getD x) t
      simp only [hrest, hcompleted]
      exact hfinished.exprDone x.context _ hp

theorem beginExpr (h : Abreast g t s r) (context : ExprContext) : Abreast g t (s.beginExpr context) (r.beginExpr context) :=
  h.congr (h.like.beginExpr context) rfl rfl

theorem startExprStmt (h : Abreast g t s r) (hp : g.Permits t (s.startExprStmt t)) :
    Like g (s.startExprStmt t) (r.startExprStmt (g.token t)) :=
  (h.beginExpr .statement).feedExpr hp

theorem startStmt (h : Abreast g t s r) (hp : g.Permits t (s.startStmt t)) :
    Like g (s.startStmt t) (r.startStmt (g.token t)) := by
  have hl := h.like
  unfold Session.startStmt at hp ⊢
  simp only [Recast.isSymbol_token, g.keyword?_token, hl.gameMode, show (g.token t).isEof = t.isEof from rfl]
  refine Like.permitted hp (fun _ _ => ?_) fun _ hp => Like.permitted hp (fun _ hp => hl.closeBrace hp) fun _ hp =>
    Like.permitted hp (fun _ _ => hl.straySemicolon t) fun _ hp => Like.permitted hp (fun _ _ => hl.report (.refl rfl) t.loc) fun _ hp => ?_
  · exact hl.pushNew t.loc (fun node => .block ⟨node, .nested, []⟩) (fun node => .block ⟨node, .nested, []⟩) fun _ => rfl
  · cases hk : t.keyword? s.gameMode with
    | none =>
      simp only [hk] at hp
      exact h.startExprStmt hp
    | some k =>
      simp only [hk] at hp
      obtain ⟨hs, hr⟩ | ⟨s', r', hs, hr, hl'⟩ := hl.startKeyword? k t.loc
      · simp only [hs] at hp
        simp only [hs, hr, show (g.token t).loc = g.loc t.loc from rfl]
        exact h.startExprStmt hp
      · simpa only [hs, hr, show (g.token t).loc = g.loc t.loc from rfl] using hl'

end Abreast

def openIf? : List PendingStmt → Option (Node × Expr × Stmt)
  | .ifStmt node (.awaitElse condition thenBranch) :: _ => some (node, condition, thenBranch)
  | _ => none

theorem openIf?_pendingStmt (g : Guise) (stmts : List PendingStmt) : openIf? (stmts.map g.pendingStmt) =
    (openIf? stmts).map fun q => (g.node q.1, g.expr q.2.1, g.stmt q.2.2) := by
  rcases stmts with _ | ⟨top, rest⟩
  · rfl
  · cases top with
    | ifStmt node phase => cases phase <;> rfl
    | _ => rfl

theorem bodyToken_eq (s : Session) (t : Token) : s.bodyToken t =
    match openIf? s.stmts with
    | some (node, condition, thenBranch) => s.awaitElse node condition thenBranch t
    | none => (s.headerToken? t).getD (s.startStmt t) := by
  unfold bodyToken
  rcases s.stmts with _ | ⟨top, rest⟩
  · simp only [openIf?]
    cases s.headerToken? t <;> rfl
  · cases top with
    | ifStmt node phase =>
      cases phase with
      | awaitElse => rfl
      | _ => simp only [openIf?]; cases s.headerToken? t <;> rfl
    | _ => simp only [openIf?]; cases s.headerToken? t <;> rfl

namespace Abreast

theorem paramDots (h : Abreast g t s r) (header : FunctionHeader) (loc : Location) (m : ParamModifiers)
    (hc : t.symbol? = some '.') :
    Like g (s.paramDots header loc m t) (r.paramDots (g.header header) (g.loc loc) m (g.token t)) := by
  have heq (q : Session) (header : FunctionHeader) (loc : Location) (v : Token) : q.paramDots header loc m v =
      if (q.lookahead ['.'] 2).1.length ≠ 2 then
        ((q.lookahead ['.'] 2).2.report (.unexpected "`.`" "`...`") v.loc).resync v
      else ((q.lookahead ['.'] 2).2.discard 2).paramMark header loc { m with variadic := true } m.variadic v := rfl
  have hrun := h.double hc (by decide +kernel) 2
  rw [heq, heq, hrun]
  refine Like.byCases' (fun _ => ((h.lookahead _ _).report (.refl rfl) t.loc).resync t) fun hl => ?_
  rw [not_not] at hl
  exact (h.discard (Nat.le_of_eq hl.symm) (by rw [hrun, hl])).paramMark header loc _ _ t

theorem paramToken (h : Abreast g t s r) (header : FunctionHeader) (pending : PendingParam) :
    Like g (s.paramToken header pending t) (r.paramToken (g.header header) (g.pendingParam pending) (g.token t)) := by
  have hl := h.like
  have hpending : (g.pendingParam pending).getD ((g.token t).loc, {}) =
      (g.loc (pending.getD (t.loc, {})).1, (pending.getD (t.loc, {})).2) := by
    cases pending <;> rfl
  unfold Session.paramToken
  simp only [hl.plainName?, hpending, Recast.isSymbol_token]
  generalize pending.getD (t.loc, {}) = q
  cases s.plainName? t with
  | none =>
    exact Like.byCases' (fun _ => hl.paramMark header q.1 _ _ t) fun _ =>
      Like.byCases' (fun _ => hl.paramMark header q.1 _ _ t) fun _ =>
      Like.byCases' (fun hd => h.paramDots header q.1 q.2 (Token.isSymbol_iff.1 hd)) fun _ =>
      Like.byCases' (fun _ => hl.closeParams header pending t) fun _ => hl.rejectToken t _
  | some name =>
    obtain ⟨hadd, hheader⟩ := hl.addParam header ⟨q.1, some name, q.2⟩
    simp only [Recast.param, Option.map_some] at hadd hheader
    simp only [Option.map_some, hheader]
    exact hadd.inRoot (.paramEnd (s.addParam header ⟨q.1, some name, q.2⟩).1)

theorem inRoot (h : Abreast g t s r) (phase : RootPhase) : Abreast g t (s.inRoot phase) (r.inRoot (g.rootPhase phase)) :=
  h.congr (h.like.inRoot phase) rfl rfl

theorem rootToken (h : Abreast g t s r) (phase : RootPhase) (hp : g.Permits t (s.rootToken phase t)) :
    Like g (s.rootToken phase t) (r.rootToken (g.rootPhase phase) (g.token t)) := by
  have hphase : isIdle (g.rootPhase phase) = isIdle phase := by cases phase <;> rfl
  have h := h.inRoot .idle
  have hl := h.like
  unfold Session.rootToken at hp ⊢
  simp only [hphase, show (g.token t).isEof = t.isEof from rfl]
  refine Like.permitted hp (fun _ hp => (hl.report (.refl rfl) t.loc).rootIdle hp) fun _ hp => ?_
  cases phase with
  | idle => exact hl.rootIdle hp
  | directiveName loc => exact hl.directiveName loc t
  | importPath loc segments awaiting => exact hl.importPath loc segments awaiting t
  | directiveHead loc name => exact hl.directiveHead loc name hp
  | directiveEnd loc name args => exact hl.expect t ';' false fun _ => hl.addDirective loc (.withArgs name args)
  | constName loc =>
    simp only [Recast.rootPhase, show r.inRoot .idle = r.inRoot (g.rootPhase .idle) from rfl, hl.plainName?]
    cases (s.inRoot .idle).plainName? t with
    | none => exact hl.rejectToken t _
    | some name => exact hl.inRoot (.constEquals loc name)
  | constEquals loc name =>
    exact hl.expect t '=' false fun _ => (hl.inRoot (.constValue loc name)).beginExpr .constValue
  | globals names awaiting => exact hl.globalNames names awaiting t
  | functionOpen name =>
    refine hl.expect t '(' false fun _ => ?_
    have hnew : g.header ⟨((s.inRoot .idle).withNode name.loc).1, name, []⟩ =
        ⟨((r.inRoot .idle).withNode (g.loc name.loc)).1, g.ident name, []⟩ :=
      congrArg (fun node => FunctionHeader.mk node (g.ident name) []) (hl.newNode name.loc).symm
    have := (hl.withNode name.loc).inRoot (.param ⟨((s.inRoot .idle).withNode name.loc).1, name, []⟩ none)
    simp only [Recast.rootPhase, hnew] at this
    exact this
  | param header pending => exact h.paramToken header pending
  | paramEnd header => exact hl.paramEnd header t
  | functionEnd header => exact hl.functionEnd header hp
  | directiveArgs | constValue => exact hl

theorem bodyToken (h : Abreast g t s r) (hp : g.Permits t (s.bodyToken t)) :
    Like g (s.bodyToken t) (r.bodyToken (g.token t)) := by
  rw [bodyToken_eq] at hp
  rw [bodyToken_eq, bodyToken_eq, h.like.stmts, openIf?_pendingStmt]
  cases ho : openIf? s.stmts with
  | some q => exact h.like.awaitElse q.1 q.2.1 q.2.2 t
  | none =>
    simp only [ho] at hp
    simp only [Option.map_none]
    obtain ⟨hs, hr⟩ | ⟨s', r', hs, hr, hl'⟩ := h.like.headerToken? t
    · rw [hs, Option.getD_none] at hp
      rw [hs, hr]
      exact h.startStmt hp
    · rwa [hs, hr]

theorem expressionStart (h : Abreast g t s r) (hp : g.Permits t (s.expressionStart t)) :
    Like g (s.expressionStart t) (r.expressionStart (g.token t)) :=
  Like.permitted hp (fun _ _ => (h.like.report (.refl rfl) t.loc).withMode .done) fun _ hp => (h.beginExpr .topLevel).feedExpr hp

theorem dispatch (h : Abreast g t s r) (hp : g.Permits t (s.dispatch t)) : Like g (s.dispatch t) (r.dispatch (g.token t)) := by
  have hl := h.like
  have hexpr : r.expr.isSome = s.expr.isSome := by
    obtain ⟨o, rfl, -⟩ := hl
    exact Option.isSome_map
  unfold Session.dispatch at hp ⊢
  rw [hl.recovery]
  cases hs : s.recovery with
  | some recovery => exact hl.recoverToken recovery t
  | none =>
    simp only [hs] at hp
    simp only [hexpr, hl.mode]
    refine Like.permitted hp (fun _ hp => h.feedExpr hp) fun _ hp => ?_
    cases hm : s.mode with
    | root phase => exact h.rootToken phase (by simpa only [hm] using hp)
    | body header => exact h.bodyToken (by simpa only [hm] using hp)
    | expression => exact h.expressionStart (by simpa only [hm] using hp)
    | expressionEnd => exact hl.expressionEnd t
    | done => exact hl

end Abreast

end Session

end GameScript
