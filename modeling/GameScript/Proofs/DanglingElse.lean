import GameScript.Proofs.Nesting
import GameScript.Proofs.Stacking

/-!
An `else` belongs to the nearest `if` that can still take one. A finished `if` waits for the next token, and
one whose branch could take an `else` itself is sure to meet another token.
-/

namespace GameScript

open Session

/-- An `else` behind the statement would belong to it. -/
def Stmt.isOpen : Stmt → Bool
  | .ifThen .. => true
  | .ifElse _ _ _ branch => branch.isOpen
  | .whileLoop _ _ body | .forLoop _ _ _ _ body | .foreachLoop _ _ _ _ body => body.isOpen
  | _ => false

/-- The `else` of the statement, if it has one, could not belong to a statement in front of it. -/
def Stmt.Matched : Stmt → Prop
  | .ifElse _ _ thenBranch _ => thenBranch.isOpen = false
  | _ => True

namespace PendingStmt

def Matched (p : PendingStmt) : Prop :=
  ∀ node condition thenBranch, p = ifStmt node (.elseBranch condition thenBranch) → thenBranch.isOpen = false

/-- An `if` that waits for an `else` has no branch that would take it. -/
def Unopened (p : PendingStmt) : Prop :=
  ∀ node condition thenBranch, p = ifStmt node (.awaitElse condition thenBranch) → thenBranch.isOpen = false

theorem handsOn_matched : HandsOn (fun stmt => (View.stmt stmt).Stmts Stmt.Matched)
    (fun p => p.Matched ∧ p.Holds Stmt.Matched) := by
  refine .of_parts (by simp [Matched]) (by simp [Matched]) ?_
  intro p stmt whole h hw
  unfold complete? at hw
  split at hw <;> cases hw
  · exact h _ _ _ rfl
  · exact trivial
  · exact trivial
  · exact trivial

theorem handsOn_unopened : HandsOn (fun stmt => stmt.isOpen = false) Unopened where
  statement _ _ := by simp [Unopened]
  thenBranch _ hs := by
    rintro _ _ _ ⟨⟩
    exact hs
  complete {p _ _} _ hs hw := by
    unfold complete? at hw
    split at hw <;> cases hw <;> exact hs

end PendingStmt

variable {s s' : Session} {t : Token}

theorem Restacks.matched {stmts : List PendingStmt} (h : Restacks s t stmts)
    (hs : ∀ p ∈ s.stmts, p.Matched ∧ p.Holds Stmt.Matched)
    (hu : ∀ top ∈ s.stmts.head?, top.Unopened ∨ t.isKeyword .elseKw s.gameMode = false) :
    ∀ p ∈ stmts, p.Matched ∧ p.Holds Stmt.Matched := by
  have hholds : ∀ p ∈ s.stmts, p.Holds Stmt.Matched := fun p hp => (hs p hp).2
  refine h.forall hs (fun top rest h => ⟨?_, h.holds hholds⟩) fun below stmt h hbelow => ?_
  · rintro node condition thenBranch rfl
    cases h with
    | bare _ ht => cases ht
    | supply _ _ hp => cases PendingStmt.views_supplied hp
    | elseBranch hst ht =>
      obtain hu | hu := hu _ (by rw [hst]; rfl)
      · exact hu _ _ _ rfl
      · simp [ht] at hu
  · refine PendingStmt.handsOn_matched.bind s hbelow (h.stmts hholds ?_)
    cases h <;> exact trivial

theorem Restacks.unopened {stmts : List PendingStmt} (h : Restacks s t stmts)
    (hs : ∀ p ∈ s.stmts, ∀ node condition thenBranch, p ≠ .ifStmt node (.awaitElse condition thenBranch)) :
    ∀ p ∈ stmts, p.Unopened := by
  refine h.forall (fun p hp _ _ _ he => (hs p hp _ _ _ he).elim) (fun top rest h => ?_) fun below stmt h hbelow => ?_
  · rintro node condition thenBranch rfl
    cases h with
    | bare _ ht => cases ht
    | supply _ _ hp => cases PendingStmt.views_supplied hp
  · refine PendingStmt.handsOn_unopened.bind s hbelow ?_
    cases h with
    | ifThen hst => exact (hs _ (by rw [hst]; exact List.mem_cons_self) _ _ _ rfl).elim
    | _ => rfl

theorem Turn.awaitElse {node : Node} {condition : Expr} {thenBranch : Stmt} {rest : List PendingStmt}
    (h : Turn s t s') (hs : s.Shaped) (hst : s.stmts = .ifStmt node (.awaitElse condition thenBranch) :: rest) :
    s'.stmts = .ifStmt node (.elseBranch condition thenBranch) :: rest ∨
      t.isKeyword .elseKw s.gameMode = false ∧ s'.stream = s.stream.defer := by
  obtain ⟨header, hm, hr, he⟩ : ∃ header, s.mode = .body header ∧ s.recovery = none ∧ s.expr = none := by
    cases hs with
    | @body header _ _ hm hst' _ hr he =>
      obtain ⟨rfl, -⟩ := List.cons.inj (hst.symm.trans hst')
      exact ⟨header, hm, hr, Option.map_eq_none_iff.1 he⟩
    | statement _ hst' _ ho | bodyRecovery _ hst' _ ho =>
      obtain ⟨rfl, -⟩ := List.cons.inj (hst.symm.trans hst')
      cases ho
    | root _ hst' | rootRecovery _ hst' | expression _ hst' | closed _ hst' => simp [hst] at hst'
  have hat {top : PendingStmt} {below : List PendingStmt} (ha : s.AtStatement top below) : False := by
    obtain ⟨rfl, -⟩ := List.cons.inj (hst.symm.trans ha.stmts)
    cases ha.opened
  have hheader {top : PendingStmt} {below : List PendingStmt} (ha : s.AtHeader top below) :
      top = .ifStmt node (.awaitElse condition thenBranch) ∧ below = rest := by
    obtain ⟨rfl, rfl⟩ := List.cons.inj (hst.symm.trans ha.stmts)
    exact ⟨rfl, rfl⟩
  have hroot {phase : RootPhase} (ha : s.AtRoot phase) : False := by simpa [hm] using ha.mode
  have hread {x : ExprState} (hx : s.Reading t x) : False := by
    cases hx with
    | further _ hx => simp [he] at hx
    | statement ha => exact hat ha
    | whole _ _ hm' => simp [hm] at hm'
  -- Nothing but the two turns of an `if` that waits can be made.
  cases h with
  | elseBranch h =>
    obtain ⟨⟨⟩, rfl⟩ := hheader h
    exact .inl rfl
  | noElse h ht =>
    refine .inr ⟨ht, ?_⟩
    obtain ⟨_, _, _, _, hb⟩ := finishStmt_eq _ _
    rw [hb]
    rfl
  | skip hr' => simp [hr] at hr'
  | shift hx | truncate hx | halt hx | exprStmt hx | dropStmt hx | supply hx | clause hx | keywordCall hx
  | caseValue hx | dropHeader hx | constant hx | dropConstant hx | nextArg hx | closeArgs hx | whole hx
  | spoilWhole hx => exact (hread hx).elim
  | reject hx =>
    obtain ⟨x, hx⟩ | ⟨top, below, ha, hi⟩ | ⟨phase, ha, -⟩ := hx
    · exact (hread hx).elim
    · obtain ⟨rfl, -⟩ := hheader ha
      cases hi
    · exact (hroot ha).elim
  | openHeader h ho =>
    obtain ⟨rfl, -⟩ := hheader h
    cases ho
  | iterator h | nextIterator h | iterators h | openSwitch h | flow h | defaultLabel h => cases (hheader h).1
  | openBlock h | openStmt h | openCall h | openFlow h | openCase h | openDefault h | misplace h | straySemicolon h
  | emptyBody h | missBody h | closeBlock h | closeSwitch h | closeFunction h | unbalanced h => exact (hat h).elim
  | pass h | spoil h | rootSemicolon h | dots h | importScript h | declarative h | bareDirective h | directive h
  | openArgs h | openConstant h | globals h | openParams h | openBody h | declare h | scriptEnd h
  | functionEnd h => exact (hroot h).elim
  | noExpression _ _ hm' | expressionEnd _ _ hm' => simp [hm] at hm'

structure Session.Matched (s : Session) : Prop where
  stmts : ∀ p ∈ s.stmts, p.Matched ∧ p.Holds Stmt.Matched
  /-- The token in front of an `if` with an open branch has been looked at, and is put back. -/
  waits : ∀ top ∈ s.stmts.head?, top.Unopened ∨
    s.stream.read.1.isTrivia = false ∧ s.stream.read.1.isKeyword .elseKw s.gameMode = false
  functions : s.Defines fun stmt => (View.stmt stmt).Stmts Stmt.Matched

theorem Session.StackShaped.ne_awaitElse {stmts : List PendingStmt} (h : StackShaped stmts) :
    ∀ p ∈ stmts.tail, ∀ node condition thenBranch, p ≠ .ifStmt node (.awaitElse condition thenBranch) := by
  induction h with
  | bottom => simp
  | @cons top below rest h hs ih =>
    rw [List.tail_cons, List.forall_mem_cons]
    refine ⟨?_, ih⟩
    rintro node condition thenBranch rfl
    cases top with
    | block b =>
      obtain ⟨_, role, _⟩ := b
      cases role with
      | switchBody => obtain ⟨_, _, hs⟩ := hs; cases hs
      | functionBody | nested => cases hs
    | _ => cases PendingStmt.standsOn_open hs (by simp)

namespace Session.Matched

theorem turn (h : s.Matched) (hs : s.Sound) (hf : s.isFinished = false) (ht : s.stream.read.1.isTrivia = false)
    (hturn : Turn { s with stream := s.stream.read.2 } s.stream.read.1 s') : s'.Matched := by
  obtain ⟨hstmts, hwaits, hfunctions⟩ := h
  have hshaped := hs.read.shaped (halted_of_isFinished hf)
  have hconfig := hturn.frame.config
  refine ⟨hturn.restacks.matched hstmts fun top htop => (hwaits top htop).imp_right And.right, ?_, ?_⟩
  · by_cases hw : ∃ node condition thenBranch rest,
        s.stmts = .ifStmt node (.awaitElse condition thenBranch) :: rest
    · obtain ⟨node, condition, thenBranch, rest, hst⟩ := hw
      obtain hst' | ⟨hk, hstream⟩ := hturn.awaitElse hshaped hst
      · rw [hst']
        simp [PendingStmt.Unopened]
      · -- The token is put back, and it is no `else`.
        intro top _
        refine .inr ?_
        rw [hstream, gameMode, hconfig]
        exact ⟨ht, hk⟩
    · have hne : ∀ p ∈ s.stmts, ∀ node condition thenBranch,
          p ≠ .ifStmt node (.awaitElse condition thenBranch) := by
        cases hst : s.stmts with
        | nil => simp
        | cons top rest =>
          rw [List.forall_mem_cons]
          refine ⟨?_, (hshaped.stack hst).2.ne_awaitElse⟩
          rintro node condition thenBranch rfl
          exact hw ⟨node, condition, thenBranch, rest, hst⟩
      exact fun top htop => .inl (hturn.restacks.unopened hne top (List.mem_of_mem_head? htop))
  · refine (hturn.declares hshaped).defines ⟨hfunctions.script, hfunctions.output⟩ ?_
    exact fun p hp => (hstmts p hp).2

end Session.Matched

namespace Session

theorem matched_ofTokens (tokens : List Token) (config : ParserConfig) : (ofTokens tokens config).Matched :=
  ⟨by simp [ofTokens], by simp [ofTokens], by simp [ofTokens, Script.functions], by simp [ofTokens]⟩

theorem run_matched (tokens : List Token) (config : ParserConfig) : (ofTokens tokens config).run.Matched := by
  refine run_induction (P := Matched) (sound_ofTokens tokens config) (matched_ofTokens tokens config) ?_ ?_
  · rintro s - ⟨hstmts, hwaits, hfunctions⟩ ht
    refine ⟨hstmts, fun top htop => .inl ?_, hfunctions.script, hfunctions.output⟩
    exact (hwaits top htop).resolve_right fun h => by simp [ht] at h
  · exact fun s s' hs hf h ht hturn => h.turn hs hf ht hturn

end Session

/-- No `else` in a parsed graph stands behind a branch that could have taken it. -/
theorem parse_else {tokens : List Token} {config : ParserConfig} {g : Graph} {node : Node} {condition : Expr}
    {thenBranch elseBranch : Stmt} (h : (parse tokens config).graph = some g)
    (hs : View.stmt (.ifElse node condition thenBranch elseBranch) ∈ g.view.walk) : thenBranch.isOpen = false := by
  have hm := (run_matched tokens config).functions.output g (finish_graph h)
  exact View.stmts_graph hm _ hs _ rfl

theorem parse_else_twice :
    let call (id : Nat) (loc : Location) (name : String) : Stmt :=
      .expr ⟨id + 1, loc⟩ (.call ⟨id, loc⟩ none none ⟨⟨name, loc⟩, .unqualified⟩ [])
    let inner : Stmt := .ifElse ⟨4, ⟨1, 10, 9⟩⟩ (.var ⟨5, ⟨1, 13, 12⟩⟩ ⟨"b", ⟨1, 13, 12⟩⟩) (call 7 ⟨1, 15, 14⟩ "c")
      (call 10 ⟨1, 24, 23⟩ "d")
    let outer : Stmt := .ifElse ⟨2, ⟨1, 5, 4⟩⟩ (.var ⟨3, ⟨1, 8, 7⟩⟩ ⟨"a", ⟨1, 8, 7⟩⟩) inner (call 13 ⟨1, 33, 32⟩ "e")
    let f : FunctionDef := ⟨⟨0, .start⟩, ⟨"f", .start⟩, [], some ⟨⟨1, ⟨1, 4, 3⟩⟩, [outer]⟩, false, 0⟩
    (parse
      [⟨.identifier, "f", .start⟩, ⟨.symbol, "(", ⟨1, 2, 1⟩⟩, ⟨.symbol, ")", ⟨1, 3, 2⟩⟩, ⟨.symbol, "\x7b", ⟨1, 4, 3⟩⟩,
        ⟨.identifier, "if", ⟨1, 5, 4⟩⟩, ⟨.symbol, "(", ⟨1, 7, 6⟩⟩, ⟨.identifier, "a", ⟨1, 8, 7⟩⟩,
        ⟨.symbol, ")", ⟨1, 9, 8⟩⟩, ⟨.identifier, "if", ⟨1, 10, 9⟩⟩, ⟨.symbol, "(", ⟨1, 12, 11⟩⟩,
        ⟨.identifier, "b", ⟨1, 13, 12⟩⟩, ⟨.symbol, ")", ⟨1, 14, 13⟩⟩, ⟨.identifier, "c", ⟨1, 15, 14⟩⟩,
        ⟨.symbol, "(", ⟨1, 16, 15⟩⟩, ⟨.symbol, ")", ⟨1, 17, 16⟩⟩, ⟨.symbol, ";", ⟨1, 18, 17⟩⟩,
        ⟨.identifier, "else", ⟨1, 19, 18⟩⟩, ⟨.whitespace, " ", ⟨1, 23, 22⟩⟩, ⟨.identifier, "d", ⟨1, 24, 23⟩⟩,
        ⟨.symbol, "(", ⟨1, 25, 24⟩⟩, ⟨.symbol, ")", ⟨1, 26, 25⟩⟩, ⟨.symbol, ";", ⟨1, 27, 26⟩⟩,
        ⟨.identifier, "else", ⟨1, 28, 27⟩⟩, ⟨.whitespace, " ", ⟨1, 32, 31⟩⟩, ⟨.identifier, "e", ⟨1, 33, 32⟩⟩,
        ⟨.symbol, "(", ⟨1, 34, 33⟩⟩, ⟨.symbol, ")", ⟨1, 35, 34⟩⟩, ⟨.symbol, ";", ⟨1, 36, 35⟩⟩,
        ⟨.symbol, "\x7d", ⟨1, 37, 36⟩⟩] {}).graph = some (.script { declarations := [.function f] }) ∧
      View.stmt outer ∈ (Graph.script { declarations := [.function f] }).view.walk ∧ inner.isOpen = false := by
  intro call inner outer f
  have hscript : (Graph.script { declarations := [.function f] }).view.Path [_] (.function f) :=
    .child .root (by simp [Graph.view, View.children, Declaration.view])
  have hmem := View.mem_walk_iff_path.2
    ⟨_, hscript.child (c := .stmt outer) (by simp [f, View.children, FunctionDef.statements])⟩
  exact (and_iff_left_of_imp fun h => ⟨hmem, parse_else h hmem⟩).2 rfl

end GameScript
