import GameScript.Proofs.Bodies
import GameScript.Proofs.Stored

namespace GameScript

open Session

def Session.Yields (s : Session) (t : Token) (context : ExprContext) (e : Expr) : Prop :=
  ∃ x s', s.Reading t x ∧ x.context = context ∧ Ends s x s' (.value e)

/-- The token finishes a statement, and the unfinished ones around it are left. -/
inductive Finishes (s : Session) (t : Token) : List PendingStmt → Stmt → Prop
  | expr {node : Node} {e : Expr} (he : s.Yields t .statement e) (hf : e.hasEffect = true) :
      Finishes s t s.stmts (.expr node e)
  | keywordCall {node : Node} {keyword : CallKeyword} {argument : Option Expr} {rest : List PendingStmt}
      (hs : s.stmts = .keywordCall node keyword :: rest) (he : ∀ e ∈ argument, s.Yields t .keywordArg e) :
      Finishes s t rest (.keywordCall node keyword argument)
  | flow {node : Node} {kind : FlowKind} {target : FlowTarget} {rest : List PendingStmt}
      (hs : s.stmts = .flow node kind target :: rest) : Finishes s t rest (.flow node kind target)
  | ifThen {node : Node} {condition : Expr} {thenBranch : Stmt} {rest : List PendingStmt}
      (hs : s.stmts = .ifStmt node (.awaitElse condition thenBranch) :: rest) :
      Finishes s t rest (.ifThen node condition thenBranch)
  | empty {node : Node} : Finishes s t s.stmts (.block node [])
  | block {node : Node} {statements : List Stmt} {rest : List PendingStmt}
      (hs : s.stmts = .block ⟨node, .nested, statements⟩ :: rest) :
      Finishes s t rest (.block node statements.reverse)
  | switch {node bodyNode : Node} {subject : Expr} {labels : SwitchLabels} {statements : List Stmt}
      {rest : List PendingStmt} (hs : s.stmts =
        .block ⟨bodyNode, .switchBody labels, statements⟩ :: .switch node (.body subject) :: rest) :
      Finishes s t rest
        (.switch node subject bodyNode statements.reverse (closeGroups statements.length labels.groups))

inductive Changes (s : Session) (t : Token) : PendingStmt → List PendingStmt → Prop
  | bare {top : PendingStmt} {rest : List PendingStmt} (hs : rest <:+ s.stmts) (ht : top.views = []) :
      Changes s t top rest
  | supply {top top' : PendingStmt} {rest : List PendingStmt} {context : ExprContext} {e : Expr}
      (hs : s.stmts = top :: rest) (hc : top.reads = some context) (hp : top.supplied? e = some top')
      (he : s.Yields t context e ∨ ∃ node value, e = .literal node value) : Changes s t top' rest
  | clause {node : Node} {clause : ForClause} {first condition e : Option Expr} {rest : List PendingStmt}
      (hs : s.stmts = .forLoop node (.clause clause first condition) :: rest)
      (he : ∀ e' ∈ e, s.Yields t (.forClause clause) e') :
      Changes s t (.forLoop node (nextForPhase clause first condition e)) rest
  | label {node : Node} {labels : SwitchLabels} {statements : List Stmt} {rest : List PendingStmt}
      {label : CaseLabel} (value : Option Value) (loc : Location)
      (hs : .block ⟨node, .switchBody labels, statements⟩ :: rest <:+ s.stmts)
      (he : ∀ e ∈ label.expr?, ∃ lookup e', s.Yields t .caseLabel e' ∧ e = Fold.noteRead lookup e') :
      Changes s t (.block ⟨node, .switchBody (labels.add statements.length label value loc), statements⟩) rest
  | elseBranch {node : Node} {condition : Expr} {thenBranch : Stmt} {rest : List PendingStmt}
      (hs : s.stmts = .ifStmt node (.awaitElse condition thenBranch) :: rest)
      (ht : t.isKeyword .elseKw s.gameMode = true) :
      Changes s t (.ifStmt node (.elseBranch condition thenBranch)) rest

inductive Restacks (s : Session) (t : Token) : List PendingStmt → Prop
  | drop {rest : List PendingStmt} (h : rest <:+ s.stmts) : Restacks s t rest
  | change {top : PendingStmt} {rest : List PendingStmt} (h : Changes s t top rest) : Restacks s t (top :: rest)
  | finish {below : List PendingStmt} {stmt : Stmt} (h : Finishes s t below stmt) :
      Restacks s t (s.bind below stmt).stmts

namespace Session

theorem bind_stmts (s s' : Session) (stmts : List PendingStmt) (stmt : Stmt) :
    (s.bind stmts stmt).stmts = (s'.bind stmts stmt).stmts := by
  -- Where the entry on top gets a body, it is finished itself, and the rest of the stack is bound.
  induction stmts generalizing stmt with
  | nil => rfl
  | cons top rest ih =>
    unfold bind
    split
    · simp only [addToBlock]
      split
      · split
        · simp only [report_stmts]
        · rfl
      · rfl
    · rfl
    · split
      · split
        · exact ih _
        · rfl
      · rfl

theorem addLabel_restacks {s b : Session} {t : Token} {label : CaseLabel} {value : Option Value} {loc : Location}
    (h : b.stmts <:+ s.stmts)
    (he : ∀ e ∈ label.expr?, ∃ lookup e', s.Yields t .caseLabel e' ∧ e = Fold.noteRead lookup e') :
    Restacks s t (b.addLabel label value loc).stmts := by
  unfold addLabel
  split
  · next node labels statements rest hs =>
    simp only
    split
    · rw [report_stmts]
      exact .drop h
    · exact .change (.label value loc (hs ▸ h) he)
  · exact .drop h

theorem caseValue_restacks {s b : Session} {t : Token} {e : Expr} {loc : Location} (h : b.stmts <:+ s.stmts)
    (he : s.Yields t .caseLabel e) : Restacks s t (b.caseValue e loc).stmts := by
  have hnoted : ∀ e' ∈ (CaseLabel.value (Fold.noteRead b.constants.lookup? e)).expr?,
      ∃ lookup e'', s.Yields t .caseLabel e'' ∧ e' = Fold.noteRead lookup e'' := by
    rintro _ ⟨⟩
    exact ⟨_, _, he, rfl⟩
  unfold caseValue
  simp only
  split
  · exact addLabel_restacks h hnoted
  · exact addLabel_restacks (by rwa [report_stmts]) hnoted

theorem addConstant_stmts (s : Session) (loc : Location) (name : Ident) (value : Expr) :
    (s.addConstant loc name value).stmts = s.stmts := by
  obtain ⟨_, _, _, _, _, _, he⟩ := s.addConstant_eq loc name value
  rw [he]

theorem defineFunction_stmts (s : Session) (f : FunctionDef) : (s.defineFunction f).stmts = s.stmts := by
  obtain ⟨_, _, _, _, _, he⟩ := s.defineFunction_eq f
  rw [he]

end Session

theorem Turn.restacks {s s' : Session} {t : Token} (h : Turn s t s') : Restacks s t s'.stmts := by
  -- Most turns leave the stack, pop it, or push an entry that holds nothing.
  have hkeep : Restacks s t s.stmts := .drop List.suffix_rfl
  have hpop {top : PendingStmt} {rest : List PendingStmt} (hst : s.stmts = top :: rest) : rest <:+ s.stmts := by
    rw [hst]
    exact List.suffix_cons top rest
  have hpush {new : PendingStmt} (hn : new.views = []) : Restacks s t (new :: s.stmts) :=
    .change (.bare List.suffix_rfl hn)
  have hfinish {b : Session} {below : List PendingStmt} {stmt : Stmt} (hf : Finishes s t below stmt)
      (hb : b.stmts = below) : Restacks s t (b.finishStmt stmt).stmts := by
    rw [finishStmt, hb, bind_stmts b s]
    exact .finish hf
  cases h with
  | skip =>
    obtain ⟨_, _, -, he⟩ := s.recoverToken_eq _ t
    rw [he]
    exact hkeep
  | truncate _ _ hf | halt _ _ _ hf | dropStmt _ _ _ _ hf | dropConstant _ _ _ _ hf | spoilWhole _ _ _ _ _ _ hf
  | unbalanced _ _ hf | spoil _ _ hf | noExpression _ _ _ hf =>
    obtain ⟨⟨_, _, _, rfl⟩, -⟩ := hf
    exact hkeep
  | reject _ _ _ hf =>
    obtain ⟨⟨_, _, _, rfl⟩, -⟩ := hf
    exact .drop (resync_stmts _ t)
  | exprStmt hx hc _ he hf =>
    have hyield : s.Yields t .statement _ := ⟨_, _, hx, hc, he⟩
    obtain ⟨_, _, _, _, _, -, -, rfl⟩ := he.same
    exact hfinish (.expr hyield hf) rfl
  | @supply _ _ _ _ _ rest hx hst hc _ he hp =>
    refine .change (.supply hst hc hp ?_)
    cases he with
    | given he => exact .inl ⟨_, _, hx, rfl, he⟩
    | missing => exact .inr ⟨_, _, rfl⟩
  | @clause _ _ completed _ _ _ _ _ hx hst hc he =>
    refine .change (.clause hst ?_)
    cases completed with
    | value e =>
      rintro _ ⟨⟩
      exact ⟨_, _, hx, hc, he⟩
    | _ => simp [Completed.value?]
  | @keywordCall _ _ completed _ _ _ hx hst hc he =>
    refine hfinish (.keywordCall hst ?_) rfl
    cases completed with
    | value e =>
      rintro _ ⟨⟩
      exact ⟨_, _, hx, hc, he⟩
    | _ => simp [Completed.value?]
  | caseValue hx hst hc he => exact caseValue_restacks (hpop hst) ⟨_, _, hx, hc, he⟩
  | dropHeader _ hst _ _ _ _ hf =>
    obtain ⟨⟨_, _, _, rfl⟩, -⟩ := hf
    exact .drop (hpop hst)
  | constant _ _ he =>
    obtain ⟨_, _, _, _, _, -, -, rfl⟩ := he.same
    rw [addConstant_stmts]
    exact hkeep
  | nextArg _ _ he | closeArgs _ _ he | whole _ _ _ he =>
    obtain ⟨_, _, _, _, _, -, -, rfl⟩ := he.same
    exact hkeep
  | openHeader h ho => exact .change (.bare (hpop h.stmts) (PendingStmt.views_opened ho))
  | iterator h =>
    rw [iteratorName_stmts, h.stmts]
    exact .change (.bare (hpop h.stmts) rfl)
  | nextIterator h | iterators h => exact .change (.bare (hpop h.stmts) rfl)
  | openSwitch | openBlock | openCall | openFlow | openCase | openDefault | openBody => exact hpush rfl
  | openStmt _ _ hn => exact hpush (PendingStmt.views_begun hn)
  | flow h => exact hfinish (.flow h.stmts) rfl
  | defaultLabel h => exact addLabel_restacks (hpop h.stmts) (by simp [CaseLabel.expr?])
  | elseBranch h ht => exact .change (.elseBranch h.stmts ht)
  | noElse h => exact hfinish (b := { s with stmts := _ }) (.ifThen h.stmts) rfl
  | misplace _ hf =>
    obtain ⟨⟨_, _, _, rfl⟩, -⟩ := hf
    exact .drop (enterRecovery_stmts _)
  | straySemicolon | rootSemicolon =>
    rw [report_stmts]
    exact hkeep
  | emptyBody => exact hfinish .empty (by simp)
  | missBody _ _ _ hf =>
    obtain ⟨⟨_, _, _, rfl⟩, -⟩ := hf
    exact hfinish (b := { s with nextId := s.nextId + 1, warned := _, failed := _, halted := _ }) .empty rfl
  | closeBlock h => exact hfinish (.block h.stmts) rfl
  | @closeSwitch _ labels statements switch _ rest h =>
    obtain ⟨_, _, _, hn⟩ := noteSwitch_eq { s with stmts := rest } switch labels statements t
    exact hfinish (.switch h.stmts) (by rw [hn])
  | closeFunction =>
    rw [defineFunction_stmts]
    exact .drop List.nil_suffix
  | declare =>
    rw [defineFunction_stmts]
    exact hkeep
  | shift | importScript | declarative | bareDirective | directive | openArgs | openConstant | globals | openParams
  | pass | dots => exact hkeep
  | scriptEnd _ _ hf =>
    obtain ⟨-, rfl⟩ | ⟨⟨_, _, _, rfl⟩, -⟩ := hf <;> exact hkeep
  | functionEnd _ _ hf =>
    obtain ⟨-, rfl, -⟩ | ⟨⟨_, _, _, rfl⟩, -⟩ := hf <;> exact hkeep
  | expressionEnd _ _ _ hf =>
    obtain ⟨rfl, -⟩ | ⟨⟨_, _, _, rfl⟩, -⟩ := hf <;> exact hkeep

namespace View

def Stmts (P : Stmt → Prop) (v : View) : Prop :=
  v.Everywhere fun u => ∀ s, u = .stmt s → P s

variable {P : Stmt → Prop}

theorem stmts_iff_children {v : View} (hv : ∀ s, v ≠ .stmt s) : v.Stmts P ↔ ∀ c ∈ v.children, c.Stmts P := by
  unfold Stmts
  rw [everywhere_iff]
  exact and_iff_right fun s hs => (hv s hs).elim

@[simp] theorem stmts_expr (e : Expr) : (View.expr e).Stmts P :=
  everywhere_of_expr (by simp) e

@[simp] theorem stmts_stmt {s : Stmt} : (View.stmt s).Stmts P ↔ P s ∧ ∀ c ∈ s.children, c.Stmts P := by
  unfold Stmts
  rw [everywhere_stmt]
  simp

@[simp] theorem stmts_param (p : Param) : (View.param p).Stmts P := by
  rw [stmts_iff_children (by simp)]
  simp [children]

@[simp] theorem stmts_directive (d : Directive) : (View.directive d).Stmts P := by
  rw [stmts_iff_children (by simp)]
  simp [children]

@[simp] theorem stmts_constant (c : ConstantDecl) : (View.constant c).Stmts P := by
  rw [stmts_iff_children (by simp)]
  simp [children]

theorem stmts_function {f : FunctionDef} :
    (View.function f).Stmts P ↔ ∀ s ∈ f.statements, (View.stmt s).Stmts P := by
  rw [stmts_iff_children (by simp)]
  simp only [children, List.mem_append, List.mem_map]
  constructor
  · exact fun h s hs => h _ (.inr ⟨s, hs, rfl⟩)
  · rintro h _ (⟨p, -, rfl⟩ | ⟨s, hs, rfl⟩)
    · exact stmts_param p
    · exact h s hs

theorem stmts_graph {g : Graph} (h : ∀ f ∈ g.functions, ∀ s ∈ f.statements, (View.stmt s).Stmts P) :
    g.view.Stmts P := by
  cases g with
  | expression e => exact stmts_expr e
  | function f => exact stmts_function.2 (h f (List.mem_singleton_self f))
  | script s =>
    rw [Graph.view, stmts_iff_children (by simp)]
    simp only [children, List.mem_append, List.mem_map]
    rintro _ ((⟨d, -, rfl⟩ | ⟨d, hd, rfl⟩) | ⟨c, -, rfl⟩)
    · exact stmts_directive d
    · cases d with
      | function f => exact stmts_function.2 (h f (List.mem_filterMap.2 ⟨_, hd, rfl⟩))
      | directive d => exact stmts_directive d
    · exact stmts_constant c

end View

def PendingStmt.Holds (P : Stmt → Prop) (p : PendingStmt) : Prop :=
  ∀ stmt, View.stmt stmt ∈ p.views → (View.stmt stmt).Stmts P

section Invariants

variable {s : Session} {t : Token} {P : Stmt → Prop} {T : PendingStmt → Prop}

theorem PendingStmt.Holds.of_views {p : PendingStmt} (h : p.views = []) : p.Holds P := by
  simp [PendingStmt.Holds, h]

theorem Changes.suffix {top : PendingStmt} {rest : List PendingStmt} (h : Changes s t top rest) :
    rest <:+ s.stmts := by
  cases h with
  | bare hs => exact hs
  | supply hs | clause hs | elseBranch hs =>
    rw [hs]
    exact List.suffix_cons _ _
  | label _ _ hs => exact (List.suffix_cons _ _).trans hs

theorem Changes.holds {top : PendingStmt} {rest : List PendingStmt} (h : Changes s t top rest)
    (hs : ∀ p ∈ s.stmts, p.Holds P) : top.Holds P := by
  have hold {below : PendingStmt} {rest : List PendingStmt} (hst : s.stmts = below :: rest) : below.Holds P :=
    hs below (by rw [hst]; exact List.mem_cons_self)
  cases h with
  | bare _ ht => exact .of_views ht
  | supply _ _ hp => simp [PendingStmt.Holds, PendingStmt.views_supplied hp]
  | @clause _ clause => cases clause <;> simp [PendingStmt.Holds, nextForPhase, PendingStmt.views]
  | @label node labels statements rest _ _ _ hst =>
    have hblock : PendingStmt.Holds P (.block ⟨node, .switchBody labels, statements⟩) :=
      hs _ (hst.subset List.mem_cons_self)
    simpa [PendingStmt.Holds, PendingStmt.views] using hblock
  | elseBranch hst =>
    have hbranch := hold hst
    exact hbranch

theorem Finishes.suffix {below : List PendingStmt} {stmt : Stmt} (h : Finishes s t below stmt) :
    below <:+ s.stmts := by
  cases h with
  | expr | empty => exact List.suffix_rfl
  | keywordCall hs | flow hs | ifThen hs | block hs =>
    rw [hs]
    exact List.suffix_cons _ _
  | switch hs =>
    rw [hs]
    exact (List.suffix_cons _ _).trans (List.suffix_cons _ _)

theorem Finishes.stmts {below : List PendingStmt} {stmt : Stmt} (h : Finishes s t below stmt)
    (hs : ∀ p ∈ s.stmts, p.Holds P) (hp : P stmt) : (View.stmt stmt).Stmts P := by
  have hold {top : PendingStmt} {rest : List PendingStmt} (hst : s.stmts = top :: rest) : top.Holds P :=
    hs top (by rw [hst]; exact List.mem_cons_self)
  refine View.stmts_stmt.2 ⟨hp, ?_⟩
  cases h with
  | expr | keywordCall | flow | empty => simp [Stmt.children]
  | ifThen hst => simpa [PendingStmt.Holds, PendingStmt.views, Stmt.children] using hold hst
  | block hst | switch hst =>
    have hbody := hold hst
    simp only [PendingStmt.Holds, PendingStmt.views, Stmt.children] at hbody ⊢
    grind [View.stmts_expr]

theorem Restacks.forall {stmts : List PendingStmt} (h : Restacks s t stmts) (hs : ∀ p ∈ s.stmts, T p)
    (hc : ∀ top rest, Changes s t top rest → T top)
    (hf : ∀ below stmt, Finishes s t below stmt → (∀ p ∈ below, T p) → ∀ p ∈ (s.bind below stmt).stmts, T p) :
    ∀ p ∈ stmts, T p := by
  cases h with
  | drop h => exact fun p hp => hs p (h.subset hp)
  | change h => exact List.forall_mem_cons.2 ⟨hc _ _ h, fun p hp => hs p (h.suffix.subset hp)⟩
  | finish h => exact hf _ _ h fun p hp => hs p (h.suffix.subset hp)

structure HandsOn (P : Stmt → Prop) (T : PendingStmt → Prop) : Prop where
  statement : ∀ {b : PendingBlock} {stmt : Stmt}, T (.block b) → P stmt →
    T (.block { b with statements := stmt :: b.statements })
  thenBranch : ∀ {node : Node} {condition : Expr} {stmt : Stmt}, T (.ifStmt node (.thenBranch condition)) →
    P stmt → T (.ifStmt node (.awaitElse condition stmt))
  complete : ∀ {p : PendingStmt} {stmt whole : Stmt}, T p → P stmt → p.complete? stmt = some whole → P whole

theorem HandsOn.bind (h : HandsOn P T) (s : Session)
    {stmts : List PendingStmt} {stmt : Stmt} (ht : ∀ p ∈ stmts, T p) (hs : P stmt) :
    ∀ p ∈ (s.bind stmts stmt).stmts, T p := by
  induction stmts generalizing stmt with
  | nil => simp [Session.bind]
  | cons top rest ih =>
    obtain ⟨htop, hrest⟩ := List.forall_mem_cons.1 ht
    unfold Session.bind
    split
    · simp only [addToBlock]
      split
      · split
        · rw [report_stmts]
          exact ht
        · exact List.forall_mem_cons.2 ⟨h.statement htop hs, hrest⟩
      · exact List.forall_mem_cons.2 ⟨h.statement htop hs, hrest⟩
    · exact List.forall_mem_cons.2 ⟨h.thenBranch htop hs, hrest⟩
    · split
      · split
        · next hw => exact ih hrest (h.complete htop hs hw)
        · exact hrest
      · exact ht

theorem HandsOn.of_parts (hb : ∀ b statements, T (.block b) → T (.block { b with statements := statements }))
    (ht : ∀ node condition stmt, T (.ifStmt node (.thenBranch condition)) →
      T (.ifStmt node (.awaitElse condition stmt)))
    (hw : ∀ p stmt whole, T p → p.complete? stmt = some whole → P whole) :
    HandsOn (fun stmt => (View.stmt stmt).Stmts P) (fun p => T p ∧ p.Holds P) where
  statement {b stmt} h hs := by
    refine ⟨hb b _ h.1, ?_⟩
    obtain ⟨node, role, statements⟩ := b
    have hold := h.2
    cases role <;> simp only [PendingStmt.Holds, PendingStmt.views] at hold ⊢ <;> grind
  thenBranch {node condition stmt} h hs := by
    refine ⟨ht node condition stmt h.1, ?_⟩
    simpa [PendingStmt.Holds, PendingStmt.views] using hs
  complete {p stmt whole} h hs hc := by
    refine View.stmts_stmt.2 ⟨hw p stmt whole h.1 hc, ?_⟩
    have hold := h.2
    unfold PendingStmt.complete? at hc
    split at hc <;> cases hc <;> simp only [PendingStmt.Holds, PendingStmt.views, Stmt.children] at hold ⊢ <;>
      grind [View.stmts_expr]

end Invariants

structure Session.Defines (P : Stmt → Prop) (s : Session) : Prop where
  script : ∀ f ∈ s.script.functions, ∀ stmt ∈ f.statements, P stmt
  output : ∀ g ∈ s.output, ∀ f ∈ g.functions, ∀ stmt ∈ f.statements, P stmt

theorem Declares.defines {P : Stmt → Prop} {s s' : Session} (h : Declares s s') (hs : s.Defines P)
    (hst : ∀ p ∈ s.stmts, ∀ stmt, View.stmt stmt ∈ p.views → P stmt) : s'.Defines P := by
  cases h.adds with
  | nothing _ hf _ ho =>
    refine ⟨hf ▸ hs.script, ?_⟩
    obtain ho | ⟨e, ho⟩ := ho <;> rw [ho]
    · exact hs.output
    · rintro _ ⟨⟩
      simp [Graph.functions]
  | constant _ _ _ _ _ _ hf _ ho => exact ⟨hf ▸ hs.script, ho ▸ hs.output⟩
  | @function header body _ hb _ _ _ _ hf =>
    have hnew : ∀ stmt ∈ (header.define body).statements, P stmt := by
      cases body with
      | none => simp [FunctionDef.statements, FunctionHeader.define]
      | some b =>
        rw [hb b rfl] at hst
        simpa [PendingStmt.views, FunctionDef.statements, FunctionHeader.define] using hst
    obtain ⟨-, hf, ho⟩ | ⟨hf, ho⟩ := hf
    · refine ⟨hf ▸ hs.script, ?_⟩
      rw [ho]
      rintro _ ⟨⟩
      simpa [Graph.functions] using hnew
    · refine ⟨?_, ho ▸ hs.output⟩
      rw [hf]
      simp only [List.mem_append, List.mem_singleton]
      rintro f (hold | rfl)
      · exact hs.script f hold
      · exact hnew
  | finish _ hscript _ _ ho =>
    refine ⟨by simp [hscript, Script.functions], ?_⟩
    rw [ho]
    rintro _ ⟨⟩
    exact hs.script

end GameScript
