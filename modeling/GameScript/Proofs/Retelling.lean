import GameScript.Proofs.DanglingElse
import GameScript.Proofs.Sentences
import GameScript.Proofs.Standing

namespace GameScript

open Session

theorem Stowed.bind {stmts stmts' : List PendingStmt} {stmt : Stmt} (h : Stowed stmts stmt stmts') (s : Session) :
    s.bind stmts stmt = { s with stmts := stmts' } := by
  induction h with
  | @block node role statements rest stmt hr =>
    cases role with
    | functionBody | nested => rfl
    | switchBody labels =>
      have hne : labels.groups.isEmpty = false := by simpa using hr labels rfl
      simp [Session.bind, addToBlock, hne]
  | thenBranch => rfl
  | @whole top rest stmts stmt whole hw hr ih =>
    cases top with
    | ifStmt _ phase | whileLoop _ phase | forLoop _ phase | foreachLoop _ phase =>
      cases phase <;> cases hw
      exact ih
    | _ => cases hw

def Receptive (stmts : List PendingStmt) : Prop :=
  ∀ stmt, ∃ stmts', Stowed stmts stmt stmts'

namespace Receptive

variable {top : PendingStmt} {rest stmts : List PendingStmt}

theorem top_open (h : Receptive stmts) : ∃ top rest, stmts = top :: rest ∧ top.isOpen = true := by
  obtain ⟨stmts', hs⟩ := h (.block ⟨0, .zero⟩ [])
  cases hs with
  | block => exact ⟨_, _, rfl, rfl⟩
  | thenBranch => exact ⟨_, _, rfl, rfl⟩
  | @whole top rest _ _ whole hw =>
    refine ⟨top, rest, rfl, ?_⟩
    cases top with
    | ifStmt _ phase | whileLoop _ phase | forLoop _ phase | foreachLoop _ phase =>
      cases phase <;> cases hw
      rfl
    | _ => cases hw

theorem block {node : Node} {role : BlockRole} {statements : List Stmt}
    (hr : ∀ labels, role = .switchBody labels → labels.groups ≠ []) :
    Receptive (.block ⟨node, role, statements⟩ :: rest) :=
  fun _ => ⟨_, .block hr⟩

theorem thenBranch {node : Node} {condition : Expr} : Receptive (.ifStmt node (.thenBranch condition) :: rest) :=
  fun _ => ⟨_, .thenBranch⟩

theorem above (h : Receptive rest) (hw : ∀ stmt, ∃ whole, top.complete? stmt = some whole) :
    Receptive (top :: rest) := by
  intro stmt
  obtain ⟨whole, hw⟩ := hw stmt
  obtain ⟨stmts', hs⟩ := h whole
  exact ⟨stmts', .whole hw hs⟩

end Receptive

theorem Stowed.inner {top : PendingStmt} {rest stmts : List PendingStmt} {stmt whole : Stmt}
    (h : Stowed (top :: rest) stmt stmts) (hw : top.complete? stmt = some whole) : Stowed rest whole stmts := by
  cases h with
  | block | thenBranch => cases hw
  | whole hw' hr =>
    rw [hw] at hw'
    cases hw'
    exact hr

theorem Stowed.inBlock {b : PendingBlock} {rest stmts : List PendingStmt} {stmt : Stmt}
    (h : Stowed (.block b :: rest) stmt stmts) : stmts = .block { b with statements := stmt :: b.statements } :: rest := by
  cases h with
  | block => rfl
  | whole hw => cases hw

theorem Stowed.inThen {node : Node} {condition : Expr} {rest stmts : List PendingStmt} {stmt : Stmt}
    (h : Stowed (.ifStmt node (.thenBranch condition) :: rest) stmt stmts) :
    stmts = .ifStmt node (.awaitElse condition stmt) :: rest := by
  cases h with
  | thenBranch => rfl
  | whole hw => cases hw

def Stmt.Alike (s s' : Stmt) : Prop :=
  Relabel.blank.stmt s = Relabel.blank.stmt s'

theorem Stmt.Alike.eq {s s' : Stmt} (h : s.Alike s') : Relabel.blank.stmt s = Relabel.blank.stmt s' := h

def NoElse (mode : GameMode) (ps : List Piece) : Prop :=
  ∃ u qs, ps = (true, u) :: qs ∧ u.keyword? mode ≠ some .elseKw

theorem noElse_keyword {mode : GameMode} {k : Keyword} {ps : List Piece} (hk : k.reservedIn mode = true)
    (hne : k ≠ .elseKw) : NoElse mode (keywordPiece true k :: ps) := by
  have hkeyword : (keywordPiece true k).2.keyword? mode = some k := keyword_of_same hk (Token.Same.refl _)
  refine ⟨_, ps, rfl, fun he => hne ?_⟩
  exact Option.some.inj (hkeyword.symm.trans he)

theorem noElse_symbol {mode : GameMode} {c : Char} {ps : List Piece} : NoElse mode (symbolPiece true c :: ps) :=
  ⟨_, ps, rfl, by simp [Token.keyword?]⟩

theorem Opens.noElse {mode : GameMode} {qs : List Piece} (h : Opens mode true qs) : NoElse mode qs := by
  obtain ⟨t, rest, rfl, ht⟩ := h
  refine ⟨t, rest, rfl, fun hk => ?_⟩
  have := ht.keyword .elseKw hk
  simp [Keyword.category] at this

theorem NoElse.append {mode : GameMode} {qs rs : List Piece} (h : NoElse mode qs) : NoElse mode (qs ++ rs) := by
  obtain ⟨u, qs, rfl, hu⟩ := h
  exact ⟨u, qs ++ rs, rfl, hu⟩

theorem NoElse.joined_eq_nil {mode : GameMode} {ps : List Piece} (h : NoElse mode ps) : joined ps = [] := by
  obtain ⟨u, qs, rfl, -⟩ := h
  rfl

theorem FlowKind.target?_kind {kind : FlowKind} {targets targets' : List FlowTarget} {target : FlowTarget}
    (ht : targets'.map FlowTarget.kind = targets.map FlowTarget.kind) (h : kind.target? targets = some target) :
    ∃ target', kind.target? targets' = some target' ∧ target'.kind = target.kind := by
  induction targets generalizing targets' with
  | nil => cases h
  | cons first rest ih =>
    obtain ⟨first', rest', rfl⟩ : ∃ first' rest', targets' = first' :: rest' := by
      cases targets' with
      | nil => cases ht
      | cons first' rest' => exact ⟨first', rest', rfl⟩
    obtain ⟨hfirst, hrest⟩ := List.cons.inj ht
    simp only [FlowKind.target?, List.find?_cons, hfirst] at h ⊢
    cases hk : (kind == .breakFlow || first.kind == .loop) with
    | true =>
      simp only [hk, Option.some.injEq] at h ⊢
      subst h
      exact ⟨first', rfl, hfirst⟩
    | false =>
      simp only [hk] at h ⊢
      exact ih hrest h

/-- Wherever the pieces of the statement stand inside of the targets, they are read as the statement. What
follows must be none of its own. -/
structure Stmt.Retold (b : Session) (targets : List FlowTarget) (stmt : Stmt) : Prop where
  begins : NoElse b.gameMode stmt.pieces
  gets : ∀ ⦃s : Session⦄ ⦃stmts : List PendingStmt⦄ ⦃ps : List Piece⦄, Receptive stmts →
    (Session.targets stmts).map FlowTarget.kind = targets.map FlowTarget.kind →
    (stmt.isOpen = true → NoElse b.gameMode ps) → b.Standing s stmts (stmt.pieces ++ ps) →
    b.Gets s ps fun stmts' => ∃ stmt', Stowed stmts stmt' stmts' ∧ stmt'.Alike stmt

section Kinds

variable {b s : Session} {top : PendingStmt} {stmts rest : List PendingStmt} {ps : List Piece}
  {targets : List FlowTarget} {node : Node} {t u : Token}

theorem Token.Same.keyword? {mode : GameMode} (h : t.Same u) : t.keyword? mode = u.keyword? mode := by
  simp only [Token.keyword?, h.1, h.2]

theorem Token.StartsExpr.same {mode : GameMode} (h : u.StartsExpr mode) (hs : t.Same u) : t.StartsExpr mode := by
  refine ⟨hs.isEof.trans h.eof, fun c hc => ?_, fun k hk => h.keyword k ?_⟩
  · rw [Token.isSymbol, hs.symbol?]
    exact h.symbol c hc
  · rwa [← hs.keyword?]

theorem startStmt_expr (h : t.StartsExpr s.gameMode) : s.startStmt t = s.startExprStmt t := by
  have hopen : t.isSymbol '\x7b' = false := h.symbol _ (by simp)
  have hclose : t.isSymbol '\x7d' = false := h.symbol _ (by simp)
  have hsemi : t.isSymbol ';' = false := h.symbol _ (by simp)
  cases hk : t.keyword? s.gameMode with
  | none => simp [startStmt, hopen, hclose, hsemi, h.eof, hk]
  | some k =>
    have hcategory := h.keyword k hk
    have hnone : s.startKeyword? k t.loc = none := by
      cases k with
      | threadKw | childThreadKw | trueKw | falseKw | undefinedKw => rfl
      | _ => simp [Keyword.category] at hcategory
    simp [startStmt, hopen, hclose, hsemi, h.eof, hk, hnone]

theorem dispatch_startsExpr {header : FunctionHeader} (hr : s.recovery = none) (hx : s.expr = none)
    (hm : s.mode = .body header) (hs : s.stmts = top :: rest) (ho : top.isOpen = true) (ht : t.StartsExpr s.gameMode) :
    s.dispatch t = { s with expr := some (fresh .statement) }.dispatch t := by
  rw [dispatch_of_expr (s := { s with expr := some (fresh .statement) }) hr rfl]
  simp only [dispatch, hr, hx, hm, Option.isSome_none, Bool.false_eq_true, if_false, bodyToken_open hs ho,
    startStmt_expr ht, startExprStmt, beginExpr, fresh]

theorem Expr.Alike.hasEffect {e e' : Expr} (h : e'.Alike e) : e'.hasEffect = e.hasEffect :=
  h.of_relabel Relabel.blank.hasEffect_expr

theorem retold_expr {e : Expr} (hb : b.AtRest) (he : e.Told b.config .statement) (hf : e.hasEffect = true) :
    (Stmt.expr node e).Retold b targets := by
  obtain ⟨ts, hspells, -⟩ := he.composed.spells
  have hopens : Opens b.gameMode true (e.pieces true) := hspells.opens true
  refine ⟨hopens.append.noElse, fun s stmts ps hr _ _ h => ?_⟩
  rw [Stmt.pieces, List.append_assoc] at h
  obtain ⟨top, rest, rfl, hopen⟩ := hr.top_open
  obtain ⟨header, hheader⟩ := hb.mode
  have hstate : s.Active ∧ s.expr = none ∧ s.mode = .body header ∧ s.stmts = top :: rest ∧ s.config = b.config := by
    rw [h.same]
    exact ⟨⟨hb.active.finished, hb.active.recovery⟩, hb.expr, hheader, rfl, rfl⟩
  obtain ⟨hactive, hx, hm, hstmts, hconfig⟩ := hstate
  obtain ⟨u, qs, hu, hstarts⟩ := hopens
  have hmode : s.gameMode = b.gameMode := by rw [gameMode, hconfig]; rfl
  have hspells' : Spells s.gameMode e ts := by
    rw [hmode]
    exact hspells
  have hparses : Parses s e := hspells'.parses hactive (hconfig ▸ ⟨he.composed.binds, he.composed.formed, he.apart⟩)
  -- The first token is dispatched as if the expression had begun in front of it.
  have hcomes : s.Comes s (symbolPiece false ';' :: ps) (Leaves .statement [] e) :=
    hparses.begins _ h.closed hu (hconfig ▸ he.composed.place) (calm_symbol (by decide) false) h.shows
      fun stream t ht => dispatch_startsExpr (s := { s with stream := stream }) hactive.recovery hx hm hstmts hopen
        (hmode ▸ hstarts.same ht)
  obtain ⟨stream, id, e', t, ht, hdel, ha, hreach⟩ := hcomes.completes hactive (ending_symbol (by simp))
  obtain ⟨stmts', hstowed⟩ := hr (.expr ⟨id, e'.loc⟩ e')
  have hsemi : t.isSymbol ';' = true := symbol_of_same ht
  have hdone : { s with stream := stream, nextId := id, expr := none }.exprDone .statement (.value e') t =
      { s with stream := stream, nextId := id + 1, expr := none, stmts := stmts' } := by
    simp only [exprDone, statementDone, ha.hasEffect.trans hf, if_true, expect, hsemi, withNode, finishStmt, hstmts,
      hstowed.bind]
  rw [hdone] at hreach
  refine ⟨_, stmts', hreach, ⟨?_, hdel.closed, hdel.shows⟩, _, hstowed, by simp [Stmt.Alike, Relabel.stmt, ha.eq]⟩
  rw [h.same]
  simp only [hb.expr]

theorem argumentProblem?_alike {node' : Node} {keyword : CallKeyword} {argument argument' : Option Expr}
    (h : argument'.map Relabel.blank.expr = argument.map Relabel.blank.expr)
    (hp : argumentProblem? node keyword argument = none) : argumentProblem? node' keyword argument' = none := by
  cases argument with
  | none =>
    obtain rfl := Option.map_eq_none_iff.1 h
    cases keyword with
    | waitCall => cases hp
    | _ => rfl
  | some e =>
    obtain ⟨e', rfl, -⟩ := Option.map_eq_some_iff.1 h
    cases keyword with
    | waitTillFrameEndCall | breakpointCall => cases hp
    | _ => rfl

theorem bodyToken_call {keyword : CallKeyword} (hs : s.stmts = top :: rest) (ho : top.isOpen = true)
    (hk : t.keyword? s.gameMode = some keyword.keyword) :
    s.bodyToken t = { s with
      nextId := s.nextId + 1, stmts := .keywordCall ⟨s.nextId, t.loc⟩ keyword :: s.stmts,
      expr := some (fresh .keywordArg) } := by
  rw [bodyToken_open hs ho, startStmt_keyword hk]
  cases keyword <;> rfl

theorem retold_keywordCall {keyword : CallKeyword} {argument : Option Expr} (hb : b.AtRest)
    (hk : keyword.keyword.reservedIn b.gameMode = true) (he : ∀ e ∈ argument, e.Told b.config .keywordArg)
    (hp : argumentProblem? node keyword argument = none) : (Stmt.keywordCall node keyword argument).Retold b targets := by
  refine ⟨noElse_keyword hk (by cases keyword <;> simp [CallKeyword.keyword]), fun s stmts ps hr _ _ h => ?_⟩
  simp only [Stmt.pieces, List.append_assoc, List.cons_append, List.nil_append] at h
  obtain ⟨top, rest, rfl, hopen⟩ := hr.top_open
  obtain ⟨t, s₁, hsame, hmeets, hreach⟩ := h.meets hb
  have hkeyword : t.keyword? s₁.gameMode = some keyword.keyword := by
    rw [hmeets.gameMode_eq]
    exact keyword_of_same hk hsame
  rw [bodyToken_call hmeets.stmts_eq hopen hkeyword] at hreach
  obtain ⟨s₂, completed, t', ht', hmeets', hf, ha, hreach'⟩ := hmeets.clause (s₁.nextId + 1)
    (.keywordCall ⟨s₁.nextId, t.loc⟩ keyword :: s₁.stmts) hb he (.inl rfl)
  have hproblem : argumentProblem? ⟨s₁.nextId, t.loc⟩ keyword completed.value? = none := argumentProblem?_alike ha hp
  obtain ⟨stmts', hstowed⟩ := hr (.keywordCall ⟨s₁.nextId, t.loc⟩ keyword completed.value?)
  have hdone : s₂.exprDone .keywordArg completed t' = { s₂ with stmts := stmts' } := by
    simp only [exprDone, keywordArgDone, hmeets'.stmts_eq, popStmt, expect, ht', if_true, hf, Bool.false_eq_true, if_false,
      hproblem, finishStmt, List.tail_cons, hmeets.stmts_eq, hstowed.bind]
  rw [hdone] at hreach'
  refine .of_reaches (hreach.trans hreach') (hmeets'.standing.gets ⟨_, hstowed, ?_⟩)
  simp [Stmt.Alike, Relabel.stmt, ha]

theorem bodyToken_flow {kind : FlowKind} {target : FlowTarget} (hs : s.stmts = top :: rest) (ho : top.isOpen = true)
    (hk : t.keyword? s.gameMode = some kind.keyword) (hf : kind.target? (Session.targets s.stmts) = some target) :
    s.bodyToken t = { s with nextId := s.nextId + 1, stmts := .flow ⟨s.nextId, t.loc⟩ kind target :: s.stmts } := by
  have hflow : Session.flowTarget? s.stmts kind = some target := hf
  rw [bodyToken_open hs ho, startStmt_keyword hk]
  cases kind <;> simp [FlowKind.keyword, startKeyword?, startFlow, hflow, withNode, pushStmt]

theorem retold_flow {kind : FlowKind} {target : FlowTarget} (hb : b.AtRest) (hf : kind.target? targets = some target) :
    (Stmt.flow node kind target).Retold b targets := by
  have hk : kind.keyword.reservedIn b.gameMode = true := Keyword.reservedIn_of_both _ (by cases kind <;> rfl)
  refine ⟨noElse_keyword hk (by cases kind <;> simp [FlowKind.keyword]), fun s stmts ps hr ht _ h => ?_⟩
  obtain ⟨top, rest, rfl, hopen⟩ := hr.top_open
  obtain ⟨target', htarget, hkind⟩ := FlowKind.target?_kind ht hf
  have hbegun : b.Gets s (symbolPiece false ';' :: ps) fun stmts' => ∃ node, stmts' = .flow node kind target' :: top :: rest := by
    refine h.step hb fun s' t hsame hmeets => ?_
    have hkeyword : t.keyword? s'.gameMode = some kind.keyword := by
      rw [hmeets.gameMode_eq]
      exact keyword_of_same hk hsame
    refine ⟨_, s'.warned, _, bodyToken_flow hmeets.stmts_eq hopen hkeyword (hmeets.stmts_eq ▸ htarget),
      ⟨s'.nextId, t.loc⟩, ?_⟩
    rw [hmeets.stmts_eq]
  refine hbegun.trans fun s' stmts' hp hst => ?_
  obtain ⟨node', rfl⟩ := hp
  obtain ⟨stmts', hstowed⟩ := hr (.flow node' kind target')
  refine hst.step hb fun s'' t hsame hmeets => ⟨s''.nextId, s''.warned, stmts', ?_, _, hstowed, ?_⟩
  · have hsemi : t.isSymbol ';' = true := symbol_of_same hsame
    simp only [bodyToken, headerToken?, hmeets.stmts_eq, expect, hsemi, if_true, popStmt, finishStmt, List.tail_cons,
      hstowed.bind]
  · simp only [Stmt.Alike, Relabel.stmt, Relabel.flowTarget, Relabel.blank_node, hkind]
    rfl

theorem Stmt.Retold.inBlock {stmt : Stmt} {role : BlockRole} {done : List Stmt} (h : stmt.Retold b targets)
    (hr : ∀ labels, role = .switchBody labels → labels.groups ≠ [])
    (ht : (Session.targets rest).map FlowTarget.kind = targets.map FlowTarget.kind) (hn : NoElse b.gameMode ps)
    (hst : b.Standing s (.block ⟨node, role, done⟩ :: rest) (stmt.pieces ++ ps)) :
    b.Gets s ps fun stmts' => ∃ stmt', stmts' = .block ⟨node, role, stmt' :: done⟩ :: rest ∧ stmt'.Alike stmt := by
  refine (h.gets (.block hr) ?_ (fun _ => hn) hst).trans fun s' stmts' hp hst' => hst'.gets ?_
  · simpa [PendingStmt.flowTarget?] using ht
  · obtain ⟨stmt', hstowed, ha⟩ := hp
    exact ⟨stmt', hstowed.inBlock, ha⟩

theorem retold_statements {role : BlockRole} {ss done : List Stmt} (hs : ∀ stmt ∈ ss, stmt.Retold b targets)
    (hr : ∀ labels, role = .switchBody labels → labels.groups ≠ [])
    (ht : (Session.targets rest).map FlowTarget.kind = targets.map FlowTarget.kind) (hn : NoElse b.gameMode ps)
    (hst : b.Standing s (.block ⟨node, role, done⟩ :: rest) ((groupPieces ss).flatten ++ ps)) :
    b.Gets s ps fun stmts' => ∃ new, stmts' = .block ⟨node, role, new ++ done⟩ :: rest ∧
      new.reverse.map Relabel.blank.stmt = ss.map Relabel.blank.stmt := by
  induction ss generalizing s done with
  | nil => exact hst.gets ⟨[], rfl, rfl⟩
  | cons stmt ss ih =>
    obtain ⟨hstmt, hss⟩ := List.forall_mem_cons.1 hs
    have hnext : NoElse b.gameMode ((groupPieces ss).flatten ++ ps) := by
      cases ss with
      | nil => exact hn
      | cons next ss =>
        simp only [groupPieces, List.flatten_cons, List.append_assoc]
        exact (hss next (by simp)).begins.append
    simp only [groupPieces, List.flatten_cons, List.append_assoc] at hst
    refine (hstmt.inBlock hr ht hnext hst).trans fun s' stmts' hp hst' => ?_
    obtain ⟨stmt', rfl, ha⟩ := hp
    refine (ih hss hst').trans fun s'' stmts'' hp hst'' => hst''.gets ?_
    obtain ⟨new, rfl, hnew⟩ := hp
    exact ⟨new ++ [stmt'], by simp, by simpa [hnew] using ha.eq⟩

theorem bodyToken_brace (hs : s.stmts = top :: rest) (ho : top.isOpen = true) (ht : t.isSymbol '\x7b' = true) :
    s.bodyToken t = { s with nextId := s.nextId + 1, stmts := .block ⟨⟨s.nextId, t.loc⟩, .nested, []⟩ :: s.stmts } := by
  rw [bodyToken_open hs ho]
  simp [startStmt, ht, pushNew, withNode, pushStmt]

theorem bodyToken_closeBrace {block : PendingBlock} (hs : s.stmts = .block block :: rest) (ht : t.isSymbol '\x7d' = true) :
    s.bodyToken t = s.closeBlock block t := by
  have hopen : t.isSymbol '\x7b' = false := Token.isSymbol_ne ht (by decide)
  rw [bodyToken_open hs rfl]
  simp [startStmt, ht, hopen, closeBrace, hs]

theorem retold_block {ss : List Stmt} (hb : b.AtRest) (hs : ∀ stmt ∈ ss, stmt.Retold b targets) :
    (Stmt.block node ss).Retold b targets := by
  refine ⟨noElse_symbol, fun s stmts ps hr ht _ h => ?_⟩
  simp only [Stmt.pieces, bracedPieces, List.append_assoc, List.cons_append, List.nil_append] at h
  obtain ⟨top, rest, rfl, hopen⟩ := hr.top_open
  have hbegun : b.Gets s ((groupPieces ss).flatten ++ symbolPiece true '\x7d' :: ps) fun stmts' =>
      ∃ node, stmts' = .block ⟨node, .nested, []⟩ :: top :: rest := by
    refine h.step hb fun s' t hsame hmeets => ?_
    refine ⟨_, s'.warned, _, bodyToken_brace hmeets.stmts_eq hopen (symbol_of_same hsame), ⟨s'.nextId, t.loc⟩, ?_⟩
    rw [hmeets.stmts_eq]
  refine hbegun.trans fun s' stmts' hp hst => ?_
  obtain ⟨node', rfl⟩ := hp
  refine (retold_statements hs (by simp) ht noElse_symbol hst).trans fun s'' stmts'' hp hst' => ?_
  obtain ⟨new, rfl, hnew⟩ := hp
  obtain ⟨stmts', hstowed⟩ := hr (.block node' (new ++ []).reverse)
  refine hst'.step hb fun s₁ t hsame hmeets => ⟨s₁.nextId, s₁.warned, stmts', ?_, _, hstowed, ?_⟩
  · rw [bodyToken_closeBrace hmeets.stmts_eq (symbol_of_same hsame)]
    simp only [closeBlock, popStmt, hmeets.stmts_eq, List.tail_cons, finishStmt, hstowed.bind]
  · simpa [Stmt.Alike, Relabel.stmt] using hnew

theorem bodyToken_begun {k : Keyword} {new : PendingStmt} (hs : s.stmts = top :: rest) (ho : top.isOpen = true)
    (hk : t.keyword? s.gameMode = some k) (hn : PendingStmt.begun? ⟨s.nextId, t.loc⟩ k = some new) :
    s.bodyToken t = { s with nextId := s.nextId + 1, stmts := new :: s.stmts } := by
  rw [bodyToken_open hs ho, startStmt_keyword hk, startKeyword?_begun hn, Option.getD_some]

theorem Session.Standing.begun {k : Keyword} (new : Node → PendingStmt) (hb : b.AtRest) (hk : k.availability = .both)
    (hn : ∀ node, PendingStmt.begun? node k = some (new node)) (hr : Receptive stmts)
    (h : b.Standing s stmts (keywordPiece true k :: ps)) :
    b.Gets s ps fun stmts' => ∃ node, stmts' = new node :: stmts := by
  obtain ⟨top, rest, rfl, hopen⟩ := hr.top_open
  refine h.step hb fun s' t hsame hmeets => ?_
  have hkeyword : t.keyword? s'.gameMode = some k := keyword_of_same (Keyword.reservedIn_of_both _ hk) hsame
  refine ⟨_, s'.warned, _, bodyToken_begun hmeets.stmts_eq hopen hkeyword (hn _), ⟨s'.nextId, t.loc⟩, ?_⟩
  rw [hmeets.stmts_eq]

theorem exprDone_supplied {c : ExprContext} {e : Expr} {top' : PendingStmt} (hs : s.stmts = top :: rest)
    (hc : top.reads = some c) (hp : top.supplied? e = some top') (ht : t.isSymbol ')' = true) :
    s.exprDone c (.value e) t = { s with stmts := top' :: rest } := by
  obtain ⟨rfl, node, rfl | rfl | rfl⟩ | ⟨node, clause, first, condition, rfl, rfl⟩ | ⟨rfl, node, key, value, rfl⟩ |
    ⟨rfl, node, keyword, rfl⟩ | ⟨rfl, loc, rfl⟩ := PendingStmt.reads_cases hc <;> cases hp <;>
    simp [exprDone, conditionDone, collectionDone, required, expect, ht, hs, replaceStmt]

theorem Session.Standing.header {k : Keyword} (new mid : Node → PendingStmt) (headed : Node → Expr → PendingStmt) {e : Expr}
    (hb : b.AtRest) (hk : k.availability = .both) (hn : ∀ node, PendingStmt.begun? node k = some (new node))
    (ho : ∀ node, (new node).opened? = some (mid node, some .condition)) (hm : ∀ node, (mid node).reads = some .condition)
    (hp : ∀ node e, (mid node).supplied? e = some (headed node e)) (he : e.Told b.config .condition)
    (hr : Receptive stmts) (h : b.Standing s stmts (headerPieces k e ++ ps)) :
    b.Gets s ps fun stmts' => ∃ node e', stmts' = headed node e' :: stmts ∧ e'.Alike e := by
  simp only [headerPieces, List.append_assoc, List.cons_append, List.nil_append] at h
  refine (h.begun new hb hk hn hr).trans fun s' stmts' hp' hst => ?_
  obtain ⟨node, rfl⟩ := hp'
  refine hst.stepValue (P := fun stmts' => stmts' = mid node :: stmts) hb he (by decide) (ending_symbol (by simp)) ?_ ?_
  · intro s₁ t hsame _ hs hx
    exact ⟨s₁.nextId, _, bodyToken_opened hs hx (ho node) (symbol_of_same hsame), rfl⟩
  · intro s₁ e' t hs ht ha _ _
    exact ⟨s₁.nextId, s₁.warned, _, exprDone_supplied hs (hm node) (hp node e') ht, node, e', rfl, ha⟩

theorem Session.Standing.ifHeader {condition : Expr} (hb : b.AtRest) (he : condition.Told b.config .condition)
    (hr : Receptive stmts) (h : b.Standing s stmts (headerPieces .ifKw condition ++ ps)) :
    b.Gets s ps fun stmts' => ∃ node e', stmts' = .ifStmt node (.thenBranch e') :: stmts ∧ e'.Alike condition :=
  h.header (.ifStmt · .start) (.ifStmt · .condition) (fun node e => .ifStmt node (.thenBranch e)) hb rfl (fun _ => rfl)
    (fun _ => rfl) (fun _ => rfl) (fun _ _ => rfl) he hr

theorem Session.Standing.branch {e' : Expr} {stmt : Stmt}
    (hst : b.Standing s (.ifStmt node (.thenBranch e') :: stmts) (stmt.pieces ++ ps))
    (h : stmt.Retold b targets) (ht : (Session.targets stmts).map FlowTarget.kind = targets.map FlowTarget.kind)
    (hn : stmt.isOpen = true → NoElse b.gameMode ps) :
    b.Gets s ps fun stmts' => ∃ stmt', stmts' = .ifStmt node (.awaitElse e' stmt') :: stmts ∧ stmt'.Alike stmt := by
  refine (h.gets .thenBranch ?_ hn hst).trans fun s' stmts' hp hst' => hst'.gets ?_
  · simpa [PendingStmt.flowTarget?] using ht
  · obtain ⟨stmt', hstowed, ha⟩ := hp
    exact ⟨stmt', hstowed.inThen, ha⟩

theorem Shown.not_trivia {apart : Bool} {ts : List Token} {qs : List Piece} (h : Shown apart ts qs) :
    ∀ p ∈ qs.head?, p.2.isTrivia = false := by
  induction h with
  | nil => simp
  | trivia _ _ ih => exact ih
  | token _ hu => simpa using hu

theorem Session.Standing.noElse {condition : Expr} {stmt : Stmt} (hb : b.AtRest) (hr : Receptive stmts)
    (hn : NoElse b.gameMode ps) (h : b.Standing s (.ifStmt node (.awaitElse condition stmt) :: stmts) ps) :
    b.Gets s ps (Stowed stmts (.ifThen node condition stmt)) := by
  obtain ⟨u, qs, rfl, hu⟩ := hn
  obtain ⟨t, s₁, hsame, hmeets, hreach⟩ := h.meets hb
  obtain ⟨stmts', hstowed⟩ := hr (.ifThen node condition stmt)
  have hkeyword : t.isKeyword .elseKw s₁.gameMode = false := by
    rw [Token.isKeyword, hsame.keyword?, hmeets.gameMode_eq]
    simpa using hu
  have hdone : s₁.bodyToken t = { s₁ with stream := s₁.stream.defer, stmts := stmts' } := by
    simp only [bodyToken, hmeets.stmts_eq, awaitElse, hkeyword, Bool.false_eq_true, if_false, popStmt, List.tail_cons,
      finishStmt, hstowed.bind, Session.defer]
  rw [hdone] at hreach
  obtain ⟨_, hshown⟩ := h.shows
  have htrivia : u.isTrivia = false := hshown.not_trivia (true, u) (by simp)
  refine ⟨_, stmts', hreach, ⟨?_, hmeets.delivers.closed.defer, hmeets.delivers.defer hsame htrivia⟩, hstowed⟩
  rw [hmeets.same]

theorem retold_ifThen {condition : Expr} {thenBranch : Stmt} (hb : b.AtRest) (he : condition.Told b.config .condition)
    (h : thenBranch.Retold b targets) : (Stmt.ifThen node condition thenBranch).Retold b targets := by
  refine ⟨noElse_keyword (Keyword.reservedIn_of_both _ rfl) (by decide), fun s stmts ps hr ht hn hst => ?_⟩
  rw [Stmt.pieces, List.append_assoc] at hst
  refine (hst.ifHeader hb he hr).trans fun s₁ stmts₁ hp hst₁ => ?_
  obtain ⟨node', e', rfl, ha⟩ := hp
  refine (hst₁.branch h ht fun _ => hn rfl).trans fun s₂ stmts₂ hp hst₂ => ?_
  obtain ⟨stmt', rfl, hs⟩ := hp
  refine (hst₂.noElse hb hr (hn rfl)).trans fun s₃ stmts₃ hp hst₃ => hst₃.gets ⟨_, hp, ?_⟩
  simp [Stmt.Alike, Relabel.stmt, ha.eq, hs.eq]

theorem Stmt.Retold.inBody {stmt : Stmt} {top : PendingStmt} (h : stmt.Retold b targets) {whole : Stmt → Stmt}
    (hw : ∀ stmt, top.complete? stmt = some (whole stmt)) (hr : Receptive stmts)
    (ht : (Session.targets (top :: stmts)).map FlowTarget.kind = targets.map FlowTarget.kind)
    (hn : stmt.isOpen = true → NoElse b.gameMode ps) (hst : b.Standing s (top :: stmts) (stmt.pieces ++ ps)) :
    b.Gets s ps fun stmts' => ∃ stmt', Stowed stmts (whole stmt') stmts' ∧ stmt'.Alike stmt := by
  refine (h.gets (hr.above fun stmt => ⟨_, hw stmt⟩) ht hn hst).trans fun s' stmts' hp hst' => hst'.gets ?_
  obtain ⟨stmt', hstowed, ha⟩ := hp
  exact ⟨stmt', hstowed.inner (hw stmt'), ha⟩

theorem retold_ifElse {condition : Expr} {thenBranch elseBranch : Stmt} (hb : b.AtRest)
    (he : condition.Told b.config .condition) (h : thenBranch.Retold b targets) (ho : thenBranch.isOpen = false)
    (h' : elseBranch.Retold b targets) : (Stmt.ifElse node condition thenBranch elseBranch).Retold b targets := by
  refine ⟨noElse_keyword (Keyword.reservedIn_of_both _ rfl) (by decide), fun s stmts ps hr ht hn hst => ?_⟩
  simp only [Stmt.pieces, List.append_assoc, List.cons_append] at hst
  refine (hst.ifHeader hb he hr).trans fun s₁ stmts₁ hp hst₁ => ?_
  obtain ⟨node', e', rfl, ha⟩ := hp
  -- The first branch is not open, so the `else` behind it is none of its own.
  refine (hst₁.branch h ht (by simp [ho])).trans fun s₂ stmts₂ hp hst₂ => ?_
  obtain ⟨stmt', rfl, hs⟩ := hp
  have helse : b.Gets s₂ (elseBranch.pieces ++ ps) fun stmts' => stmts' = .ifStmt node' (.elseBranch e' stmt') :: stmts := by
    refine hst₂.step hb fun s' t hsame hmeets => ⟨s'.nextId, s'.warned, _, ?_, rfl⟩
    have hkeyword : t.isKeyword .elseKw s'.gameMode = true := by
      rw [Token.isKeyword, keyword_of_same (Keyword.reservedIn_of_both _ rfl) hsame]
      rfl
    simp only [bodyToken, hmeets.stmts_eq, awaitElse, hkeyword, if_true, replaceStmt, List.tail_cons]
  refine helse.trans fun s₃ stmts₃ hp hst₃ => ?_
  subst hp
  refine (h'.inBody (fun _ => rfl) hr ?_ hn hst₃).trans fun s₄ stmts₄ hp hst₄ => hst₄.gets ?_
  · simpa [PendingStmt.flowTarget?] using ht
  · obtain ⟨stmt'', hstowed, hs'⟩ := hp
    exact ⟨_, hstowed, by simp [Stmt.Alike, Relabel.stmt, ha.eq, hs.eq, hs'.eq]⟩

theorem retold_whileLoop {condition : Expr} {body : Stmt} (hb : b.AtRest) (he : condition.Told b.config .condition)
    (h : body.Retold b (⟨.loop, node.id⟩ :: targets)) : (Stmt.whileLoop node condition body).Retold b targets := by
  refine ⟨noElse_keyword (Keyword.reservedIn_of_both _ rfl) (by decide), fun s stmts ps hr ht hn hst => ?_⟩
  rw [Stmt.pieces, List.append_assoc] at hst
  refine (hst.header (.whileLoop · .start) (.whileLoop · .condition) (fun node e => .whileLoop node (.body e)) hb rfl
    (fun _ => rfl) (fun _ => rfl) (fun _ => rfl) (fun _ _ => rfl) he hr).trans fun s₁ stmts₁ hp hst₁ => ?_
  obtain ⟨node', e', rfl, ha⟩ := hp
  refine (h.inBody (fun _ => rfl) hr ?_ hn hst₁).trans fun s₂ stmts₂ hp hst₂ => hst₂.gets ?_
  · simpa [PendingStmt.flowTarget?] using ht
  · obtain ⟨body', hstowed, hs⟩ := hp
    exact ⟨_, hstowed, by simp [Stmt.Alike, Relabel.stmt, ha.eq, hs.eq]⟩

theorem exprDone_clause {clause : ForClause} {first condition : Option Expr} {completed : Completed} (hx : s.expr = none)
    (hs : s.stmts = .forLoop node (.clause clause first condition) :: rest)
    (ht : t.isSymbol (if clause = .step then ')' else ';') = true) :
    s.exprDone (.forClause clause) completed t = { s with
      stmts := .forLoop node (nextForPhase clause first condition completed.value?) :: rest,
      expr := clause.next?.map fun c => fresh (.forClause c) } := by
  cases clause <;> simp only [reduceCtorEq, if_true, if_false] at ht <;>
    simp [exprDone, forClauseDone, expect, ht, hs, replaceStmt, beginExpr, fresh, ForClause.next?, hx]

theorem Session.Standing.forHeader {first condition step : Option Expr} (hb : b.AtRest)
    (hf : ∀ e ∈ first, e.Told b.config (.forClause .first)) (hc : ∀ e ∈ condition, e.Told b.config (.forClause .condition))
    (hp : ∀ e ∈ step, e.Told b.config (.forClause .step)) (hr : Receptive stmts)
    (h : b.Standing s stmts (forPieces first condition step ++ ps)) :
    b.Gets s ps fun stmts' => ∃ node first' condition' step', stmts' = .forLoop node (.body first' condition' step') :: stmts ∧
      first'.map Relabel.blank.expr = first.map Relabel.blank.expr ∧
      condition'.map Relabel.blank.expr = condition.map Relabel.blank.expr ∧
      step'.map Relabel.blank.expr = step.map Relabel.blank.expr := by
  simp only [forPieces, List.append_assoc, List.cons_append, List.nil_append] at h
  refine (h.begun (.forLoop · .start) hb rfl (fun _ => rfl) hr).trans fun s₁ stmts₁ hst hst₁ => ?_
  obtain ⟨node, rfl⟩ := hst
  obtain ⟨t, s₂, hsame, hm, hreach⟩ := hst₁.meets hb
  rw [bodyToken_opened hm.stmts_eq (hm.expr_eq.trans hb.expr) rfl (symbol_of_same hsame)] at hreach
  obtain ⟨s₃, first', t₁, ht₁, hm₁, -, ha₁, hreach₁⟩ := hm.clause s₂.nextId _ hb hf (.inl rfl)
  rw [exprDone_clause (hm₁.expr_eq.trans hb.expr) hm₁.stmts_eq ht₁] at hreach₁
  obtain ⟨s₄, condition', t₂, ht₂, hm₂, -, ha₂, hreach₂⟩ := hm₁.clause s₃.nextId _ hb hc (.inl rfl)
  rw [exprDone_clause (hm₂.expr_eq.trans hb.expr) hm₂.stmts_eq ht₂] at hreach₂
  obtain ⟨s₅, step', t₃, ht₃, hm₃, -, ha₃, hreach₃⟩ := hm₂.clause s₄.nextId _ hb hp (.inr rfl)
  rw [exprDone_clause (hm₃.expr_eq.trans hb.expr) hm₃.stmts_eq ht₃] at hreach₃
  have hlast : ({ s₅ with
      stmts := .forLoop node (.body first'.value? condition'.value? step'.value?) :: stmts, expr := none } : Session) =
      { s₅ with stmts := .forLoop node (.body first'.value? condition'.value? step'.value?) :: stmts } := by
    rw [hm₃.same]
    simp only [hb.expr]
  refine ⟨_, _, hreach.trans (hreach₁.trans (hreach₂.trans hreach₃)), ?_, node, first'.value?, condition'.value?, step'.value?,
    rfl, ha₁, ha₂, ha₃⟩
  exact hlast ▸ hm₃.standing

theorem retold_forLoop {first condition step : Option Expr} {body : Stmt} (hb : b.AtRest)
    (hf : ∀ e ∈ first, e.Told b.config (.forClause .first)) (hc : ∀ e ∈ condition, e.Told b.config (.forClause .condition))
    (hp : ∀ e ∈ step, e.Told b.config (.forClause .step)) (h : body.Retold b (⟨.loop, node.id⟩ :: targets)) :
    (Stmt.forLoop node first condition step body).Retold b targets := by
  refine ⟨noElse_keyword (Keyword.reservedIn_of_both _ rfl) (by decide), fun s stmts ps hr ht hn hst => ?_⟩
  rw [Stmt.pieces, List.append_assoc] at hst
  refine (hst.forHeader hb hf hc hp hr).trans fun s₁ stmts₁ hp hst₁ => ?_
  obtain ⟨node', first', condition', step', rfl, hf', hc', hp'⟩ := hp
  refine (h.inBody (fun _ => rfl) hr ?_ hn hst₁).trans fun s₂ stmts₂ hp hst₂ => hst₂.gets ?_
  · simpa [PendingStmt.flowTarget?] using ht
  · obtain ⟨body', hstowed, hs⟩ := hp
    exact ⟨_, hstowed, by simp [Stmt.Alike, Relabel.stmt, hf', hc', hp', hs.eq]⟩

theorem plainName_of_same {n : Ident} (hn : n.IsWord s.config.dialect) (h : t.Same (wordPiece true n.name).2) :
    s.plainName? t = some ⟨n.name, t.loc⟩ := by
  obtain ⟨w, hw, hp, -⟩ := hn
  have hplain := isPlain_of_text hp h.1 (h.2.trans hw.symm)
  have htext : t.text = n.name := h.2
  simp only [plainName?, hplain.kind, gameMode, hplain.keyword, htext]
  rfl

theorem plainName?_of_symbol {c : Char} (h : t.isSymbol c = true) : s.plainName? t = none := by
  have hk : t.kind ≠ .identifier := by
    intro hk
    simp [Token.isSymbol, Token.symbol?, hk] at h
  simp [plainName?, hk]

theorem plainName?_of_keyword {k : Keyword} (h : t.keyword? s.gameMode = some k) : s.plainName? t = none := by
  simp [plainName?, h]

theorem Session.Standing.iterator {names : IteratorNames} {add : Ident → IteratorNames} {n : Ident} {apart : Bool}
    (hb : b.AtRest) (hn : n.IsWord b.config.dialect) (hadd : ∀ name, names.add? name = some (add name))
    (h : b.Standing s (.foreachLoop node (.names names) :: stmts) (wordPiece apart n.name :: ps)) :
    b.Gets s ps fun stmts' => ∃ name, stmts' = .foreachLoop node (.names (add name)) :: stmts ∧ name.name = n.name := by
  refine h.step hb fun s' t hsame hmeets => ?_
  have hname : s'.plainName? t = some ⟨n.name, t.loc⟩ := plainName_of_same (hmeets.config_eq ▸ hn) hsame
  have hbody : s'.bodyToken t = s'.iteratorName node (add ⟨n.name, t.loc⟩) ⟨n.name, t.loc⟩ := by
    cases names with
    | none | oneMore =>
      rw [← Option.some.inj (hadd ⟨n.name, t.loc⟩)]
      simp only [bodyToken, headerToken?, hmeets.stmts_eq, iteratorToken, hname]
    | one | two => cases hadd ⟨n.name, t.loc⟩
  obtain ⟨warned, stmts', hw⟩ := iteratorName_warned (s := s') node (add ⟨n.name, t.loc⟩) ⟨n.name, t.loc⟩
  have hstmts : stmts' = .foreachLoop node (.names (add ⟨n.name, t.loc⟩)) :: stmts := by
    have := congrArg Session.stmts hw
    rw [iteratorName_stmts, hmeets.stmts_eq] at this
    exact this.symm
  exact ⟨s'.nextId, warned, stmts', hbody.trans hw, _, hstmts, rfl⟩

theorem Session.Standing.iterators {key : Option Ident} {value : Ident} (hb : b.AtRest)
    (hk : ∀ n ∈ key, n.IsWord b.config.dialect) (hv : value.IsWord b.config.dialect)
    (h : b.Standing s (.foreachLoop node (.names .none) :: stmts) (iteratorPieces key value ++ ps)) :
    b.Gets s ps fun stmts' => ∃ names key' value', stmts' = .foreachLoop node (.names names) :: stmts ∧
      names.whole? = some (key', value') ∧ key'.map Ident.name = key.map Ident.name ∧ value'.name = value.name := by
  cases key with
  | none =>
    refine (h.iterator hb hv (fun _ => rfl)).trans fun s' stmts' hp hst => hst.gets ?_
    obtain ⟨name, rfl, hname⟩ := hp
    exact ⟨_, none, name, rfl, rfl, rfl, hname⟩
  | some k =>
    refine (h.iterator hb (hk k rfl) (fun _ => rfl)).trans fun s₁ stmts₁ hp hst₁ => ?_
    obtain ⟨first, rfl, hfirst⟩ := hp
    have hcomma : b.Gets s₁ (wordPiece true value.name :: ps) fun stmts' =>
        stmts' = .foreachLoop node (.names (.oneMore first)) :: stmts := by
      refine hst₁.step hb fun s' t hsame hmeets => ⟨s'.nextId, s'.warned, _, ?_, rfl⟩
      have hsymbol : t.isSymbol ',' = true := symbol_of_same hsame
      simp only [bodyToken, headerToken?, hmeets.stmts_eq, iteratorToken, plainName?_of_symbol hsymbol, hsymbol, if_true,
        replaceStmt, List.tail_cons]
    refine hcomma.trans fun s₂ stmts₂ hp hst₂ => ?_
    subst hp
    refine (hst₂.iterator hb hv (fun _ => rfl)).trans fun s' stmts' hp hst => hst.gets ?_
    obtain ⟨name, rfl, hname⟩ := hp
    exact ⟨_, some first, name, rfl, rfl, congrArg some hfirst, hname⟩

theorem bodyToken_in {names : IteratorNames} {key : Option Ident} {value : Ident}
    (hs : s.stmts = .foreachLoop node (.names names) :: rest) (hn : names.whole? = some (key, value))
    (ht : t.keyword? s.gameMode = some .inKw) :
    s.bodyToken t = { s with
      stmts := .foreachLoop node (.collection key value) :: rest, expr := some (fresh .foreachCollection) } := by
  have hkeyword : t.isKeyword .inKw s.gameMode = true := by simp [Token.isKeyword, ht]
  have hcomma : t.isSymbol ',' = false := by simp [Token.isSymbol, Token.symbol?, Token.kind_of_keyword ht]
  cases names <;> cases hn <;>
    simp [bodyToken, headerToken?, hs, iteratorToken, plainName?_of_keyword ht, hkeyword, hcomma, beginCollection, replaceStmt,
      beginExpr, fresh]

theorem Session.Standing.foreachHeader {key : Option Ident} {value : Ident} {collection : Expr} (hb : b.AtRest)
    (hk : ∀ n ∈ key, n.IsWord b.config.dialect) (hv : value.IsWord b.config.dialect)
    (hc : collection.Told b.config .foreachCollection) (hr : Receptive stmts)
    (h : b.Standing s stmts (foreachPieces key value collection ++ ps)) :
    b.Gets s ps fun stmts' => ∃ node key' value' e', stmts' = .foreachLoop node (.body key' value' e') :: stmts ∧
      key'.map Ident.name = key.map Ident.name ∧ value'.name = value.name ∧ e'.Alike collection := by
  simp only [foreachPieces, List.append_assoc, List.cons_append, List.nil_append] at h
  refine (h.begun (.foreachLoop · .start) hb rfl (fun _ => rfl) hr).trans fun s₁ stmts₁ hst hst₁ => ?_
  obtain ⟨node, rfl⟩ := hst
  have hopen : b.Gets s₁ (iteratorPieces key value ++
      keywordPiece true .inKw :: (collection.pieces true ++ symbolPiece false ')' :: ps)) fun stmts' =>
        stmts' = .foreachLoop node (.names .none) :: stmts := by
    refine hst₁.step hb fun s' t hsame hmeets => ⟨s'.nextId, s'.warned, _, ?_, rfl⟩
    have hsymbol : t.isSymbol '(' = true := symbol_of_same hsame
    simp only [bodyToken, headerToken?, hmeets.stmts_eq, expect, hsymbol, if_true, openHeader, replaceStmt, List.tail_cons]
  refine hopen.trans fun s₂ stmts₂ hp hst₂ => ?_
  subst hp
  refine (hst₂.iterators hb hk hv).trans fun s₃ stmts₃ hp hst₃ => ?_
  obtain ⟨names, key', value', rfl, hwhole, hkey, hvalue⟩ := hp
  refine hst₃.stepValue (P := fun stmts' => stmts' = .foreachLoop node (.collection key' value') :: stmts) hb hc (by decide)
    (ending_symbol (by simp)) ?_ ?_
  · intro s' t hsame hmode hs hx
    refine ⟨s'.nextId, _, bodyToken_in hs hwhole ?_, rfl⟩
    exact keyword_of_same (Keyword.reservedIn_of_both _ rfl) hsame
  · intro s' e' t hs ht ha _ _
    exact ⟨s'.nextId, s'.warned, _, exprDone_supplied hs rfl rfl ht, node, key', value', e', rfl, hkey, hvalue, ha⟩

theorem retold_foreachLoop {key : Option Ident} {value : Ident} {collection : Expr} {body : Stmt} (hb : b.AtRest)
    (hk : ∀ n ∈ key, n.IsWord b.config.dialect) (hv : value.IsWord b.config.dialect)
    (hc : collection.Told b.config .foreachCollection) (h : body.Retold b (⟨.loop, node.id⟩ :: targets)) :
    (Stmt.foreachLoop node key value collection body).Retold b targets := by
  refine ⟨noElse_keyword (Keyword.reservedIn_of_both _ rfl) (by decide), fun s stmts ps hr ht hn hst => ?_⟩
  rw [Stmt.pieces, List.append_assoc] at hst
  refine (hst.foreachHeader hb hk hv hc hr).trans fun s₁ stmts₁ hp hst₁ => ?_
  obtain ⟨node', key', value', e', rfl, hkey, hvalue, ha⟩ := hp
  refine (h.inBody (fun _ => rfl) hr ?_ hn hst₁).trans fun s₂ stmts₂ hp hst₂ => hst₂.gets ?_
  · simpa [PendingStmt.flowTarget?] using ht
  · obtain ⟨body', hstowed, hs⟩ := hp
    refine ⟨_, hstowed, ?_⟩
    have hkeys : key'.map Relabel.blank.ident = key.map Relabel.blank.ident := by
      cases key <;> cases key' <;> simp_all
    simp [Stmt.Alike, Relabel.stmt, hkeys, hvalue, ha.eq, hs.eq]

end Kinds

end GameScript
