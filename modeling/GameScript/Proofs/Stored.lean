import GameScript.Proofs.Everywhere
import GameScript.Proofs.Frame

namespace GameScript

namespace View

def Exprs (F : Expr → Prop) (v : View) : Prop :=
  v.Everywhere fun u => ∀ e, u = .expr e → F e

variable {F : Expr → Prop}

theorem exprs_iff_children {v : View} (hv : ∀ e, v ≠ .expr e) :
    v.Exprs F ↔ ∀ c ∈ v.children, c.Exprs F := by
  unfold Exprs
  rw [everywhere_iff]
  exact and_iff_right fun e he => (hv e he).elim

theorem exprs_expr (hered : ∀ e, F e → ∀ c ∈ e.children, F c) {e : Expr} :
    (View.expr e).Exprs F ↔ F e := by
  refine ⟨fun h => h _ (by rw [walk_eq]; simp) e rfl, fun h => ?_⟩
  suffices hw : ∀ n, ∀ e : Expr, sizeOf e = n → F e → (View.expr e).Exprs F from hw _ e rfl h
  intro n
  induction n using Nat.strongRecOn with
  | ind n ih =>
    rintro e rfl h
    unfold Exprs
    rw [everywhere_expr]
    refine ⟨by rintro _ ⟨⟩; exact h, fun c hc => ?_⟩
    exact ih _ (sizeOf_expr_child hc) c rfl (hered e h c hc)

@[simp] theorem exprs_stmt {s : Stmt} : (View.stmt s).Exprs F ↔ ∀ c ∈ s.children, c.Exprs F :=
  exprs_iff_children (by simp)

@[simp] theorem exprs_param {p : Param} : (View.param p).Exprs F := by
  rw [exprs_iff_children (by simp)]
  simp [children]

theorem exprs_function {f : FunctionDef} :
    (View.function f).Exprs F ↔ ∀ s ∈ f.statements, (View.stmt s).Exprs F := by
  rw [exprs_iff_children (by simp)]
  simp only [children, List.mem_append, List.mem_map]
  constructor
  · exact fun h s hs => h _ (.inr ⟨s, hs, rfl⟩)
  · rintro h _ (⟨p, -, rfl⟩ | ⟨s, hs, rfl⟩)
    · exact exprs_param
    · exact h s hs

@[simp] theorem exprs_directive {d : Directive} :
    (View.directive d).Exprs F ↔ ∀ e ∈ d.kind.args, (View.expr e).Exprs F := by
  rw [exprs_iff_children (by simp)]
  simp [children]

@[simp] theorem exprs_constant {c : ConstantDecl} :
    (View.constant c).Exprs F ↔ (View.expr c.value).Exprs F := by
  rw [exprs_iff_children (by simp)]
  simp [children]

theorem exprs_script {s : Script} :
    (View.script s).Exprs F ↔ ∀ c ∈ (View.script s).children, c.Exprs F :=
  exprs_iff_children (by simp)

theorem exprs_script_of {s s' : Script} (hc : (View.script s').children = (View.script s).children)
    (h : (View.script s).Exprs F) : (View.script s').Exprs F := by
  rw [exprs_script] at h ⊢
  rwa [hc]

end View

def PendingStmt.views : PendingStmt → List View
  | block ⟨_, .switchBody labels, statements⟩ =>
    (caseValues labels.groups).map .expr ++ statements.map .stmt
  | block ⟨_, _, statements⟩ => statements.map .stmt
  | ifStmt _ (.thenBranch condition) => [.expr condition]
  | ifStmt _ (.awaitElse condition thenBranch) | ifStmt _ (.elseBranch condition thenBranch) =>
    [.expr condition, .stmt thenBranch]
  | whileLoop _ (.body e) | switch _ (.body e) => [.expr e]
  | forLoop _ (.clause _ first condition) => (first.toList ++ condition.toList).map .expr
  | forLoop _ (.body first condition step) =>
    (first.toList ++ condition.toList ++ step.toList).map .expr
  | foreachLoop _ (.body _ _ collection) => [.expr collection]
  | _ => []

def Mode.views : Mode → List View
  | root (.directiveArgs _ _ args) | root (.directiveEnd _ _ args) => args.map .expr
  | _ => []

structure Session.Stores (F : Expr → Prop) (s : Session) : Prop where
  stmts : ∀ p ∈ s.stmts, ∀ v ∈ p.views, v.Exprs F
  mode : ∀ v ∈ s.mode.views, v.Exprs F
  script : (View.script s.script).Exprs F
  output : ∀ g ∈ s.output, g.view.Exprs F

namespace Session

variable {F : Expr → Prop}

theorem bind_stores {s : Session} {stmts : List PendingStmt} {stmt : Stmt}
    (h : ∀ p ∈ stmts, ∀ v ∈ p.views, v.Exprs F) (hs : (View.stmt stmt).Exprs F) :
    ∀ p ∈ (s.bind stmts stmt).stmts, ∀ v ∈ p.views, v.Exprs F := by
  induction stmts generalizing stmt with
  | nil => simp [bind]
  | cons top rest ih =>
    obtain ⟨htop, hrest⟩ := List.forall_mem_cons.1 h
    have hkeep (top' : PendingStmt) (ht : ∀ v ∈ top'.views, v.Exprs F) :
        ∀ p ∈ top' :: rest, ∀ v ∈ p.views, v.Exprs F :=
      List.forall_mem_cons.2 ⟨ht, hrest⟩
    unfold bind
    cases top with
    | block b =>
      obtain ⟨node, role, statements⟩ := b
      have hadd : ∀ v ∈ (PendingStmt.block ⟨node, role, stmt :: statements⟩).views, v.Exprs F := by
        cases role <;> simp only [PendingStmt.views] at htop ⊢ <;> grind
      simp only [addToBlock]
      split
      · split
        · rw [report_stmts]
          exact h
        · exact hkeep _ hadd
      · exact hkeep _ hadd
    | ifStmt node phase =>
      cases phase with
      | thenBranch condition => exact hkeep _ (by simpa [PendingStmt.views, hs] using htop)
      | elseBranch condition thenBranch =>
        exact ih hrest (by simpa [Stmt.children, PendingStmt.views, hs] using htop)
      | _ => exact h
    | whileLoop node phase =>
      cases phase with
      | body e => exact ih hrest (by simpa [Stmt.children, PendingStmt.views, hs] using htop)
      | _ => exact h
    | forLoop node phase =>
      cases phase with
      | body first condition step =>
        refine ih hrest ?_
        simp only [View.exprs_stmt, Stmt.children, PendingStmt.views] at htop ⊢
        grind
      | _ => exact h
    | foreachLoop node phase =>
      cases phase with
      | body key value collection =>
        exact ih hrest (by simpa [Stmt.children, PendingStmt.views, hs] using htop)
      | _ => exact h
    | _ => exact h

theorem finishStmt_stores {s : Session} {stmt : Stmt} (h : s.Stores F) (hs : (View.stmt stmt).Exprs F) :
    (s.finishStmt stmt).Stores F := by
  have hstmts := bind_stores (s := s) h.stmts hs
  obtain ⟨_, _, _, _, hb⟩ := s.finishStmt_eq stmt
  rw [← finishStmt, hb] at hstmts
  rw [hb]
  exact ⟨hstmts, h.mode, h.script, h.output⟩

theorem mem_caseValues_add {labels : SwitchLabels} {place : Nat} {label : CaseLabel}
    {value : Option Value} {loc : Location} {e : Expr}
    (h : e ∈ caseValues (labels.add place label value loc).groups) :
    e ∈ caseValues labels.groups ∨ label.expr? = some e := by
  unfold SwitchLabels.add at h
  simp only at h
  split at h
  · next c earlier hc =>
    rw [hc]
    split at h <;> simp only [caseValues, List.flatMap_cons, List.filterMap_append, List.mem_append] at h ⊢ <;>
      grind
  · exact .inr (by simpa [caseValues] using h)

theorem mem_caseValues_closeGroups {stop : Nat} {groups : List Case} {e : Expr}
    (h : e ∈ caseValues (closeGroups stop groups)) : e ∈ caseValues groups := by
  induction groups generalizing stop with
  | nil => exact h
  | cons c earlier ih =>
    simp only [closeGroups, caseValues, List.flatMap_append, List.mem_append, List.flatMap_cons] at h ⊢
    obtain h | h := h
    · exact .inr (ih h)
    · exact .inl (by simpa using h)

theorem addLabel_stores {s : Session} {label : CaseLabel} {value : Option Value} {loc : Location}
    (h : s.Stores F) (hl : ∀ e, label.expr? = some e → (View.expr e).Exprs F) :
    (s.addLabel label value loc).Stores F := by
  have hstmts : ∀ p ∈ (s.addLabel label value loc).stmts, ∀ v ∈ p.views, v.Exprs F := by
    unfold addLabel
    split
    · next node labels statements rest hs =>
      simp only
      split
      · rw [report_stmts]
        exact h.stmts
      · have hst := h.stmts
        rw [hs] at hst
        obtain ⟨htop, hrest⟩ := List.forall_mem_cons.1 hst
        refine List.forall_mem_cons.2 ⟨?_, hrest⟩
        simp only [PendingStmt.views, List.mem_append, List.mem_map] at htop ⊢
        rintro v (⟨e, he, rfl⟩ | hv)
        · obtain he | he := mem_caseValues_add he
          · exact htop _ (.inl ⟨e, he, rfl⟩)
          · exact hl e he
        · exact htop v (.inr hv)
    · exact h.stmts
  obtain ⟨_, _, _, _, hb⟩ := s.addLabel_eq label value loc
  rw [hb] at hstmts ⊢
  exact ⟨hstmts, h.mode, h.script, h.output⟩

theorem Stores.report {s : Session} (h : s.Stores F) (p : Problem) (loc : Location) :
    (s.report p loc).Stores F := by
  rw [report_eq]
  exact ⟨h.stmts, h.mode, h.script, h.output⟩

theorem caseValue_stores {s : Session} {e : Expr} {loc : Location} (h : s.Stores F)
    (he : ∀ lookup, (View.expr (Fold.noteRead lookup e)).Exprs F) : (s.caseValue e loc).Stores F := by
  unfold caseValue
  simp only
  split
  · exact addLabel_stores h (by rintro _ ⟨⟩; exact he _)
  · exact addLabel_stores (h.report _ _) (by rintro _ ⟨⟩; exact he _)

theorem iteratorName_stores {s : Session} {top : PendingStmt} {rest : List PendingStmt} {node : Node}
    {names : IteratorNames} {name : Ident} (h : s.Stores F) (hs : s.stmts = top :: rest) :
    (s.iteratorName node names name).Stores F := by
  have hreplace {b : Session} (hb : b.Stores F) (hst : b.stmts = top :: rest) :
      (b.replaceStmt (.foreachLoop node (.names names))).Stores F := by
    obtain ⟨-, hrest⟩ := List.forall_mem_cons.1 (hst ▸ hb.stmts)
    refine ⟨?_, hb.mode, hb.script, hb.output⟩
    simp only [replaceStmt, hst, List.tail_cons, List.forall_mem_cons]
    exact ⟨by simp [PendingStmt.views], hrest⟩
  unfold iteratorName
  simp only
  split
  · exact hreplace (h.report _ _) (by simpa using hs)
  · exact hreplace h hs

theorem Stores.withScript {s : Session} {script : Script} (h : s.Stores F)
    (hs : (View.script script).Exprs F) : { s with script := script }.Stores F :=
  ⟨h.stmts, h.mode, hs, h.output⟩

theorem exprs_addDeclaration {script : Script} {d : Declaration} (h : (View.script script).Exprs F)
    (hd : d.view.Exprs F) :
    (View.script { script with declarations := script.declarations ++ [d] }).Exprs F := by
  rw [View.exprs_script] at h ⊢
  simp only [View.children, List.map_append, List.mem_append] at h ⊢
  grind

theorem exprs_addImport {script : Script} {d : Directive} (h : (View.script script).Exprs F)
    (hd : (View.directive d).Exprs F) :
    (View.script { script with imports := script.imports ++ [d] }).Exprs F := by
  rw [View.exprs_script] at h ⊢
  simp only [View.children, List.map_append, List.mem_append] at h ⊢
  grind

theorem exprs_addConstant {script : Script} {c : ConstantDecl} (h : (View.script script).Exprs F)
    (hc : (View.constant c).Exprs F) :
    (View.script { script with constants := script.constants ++ [c] }).Exprs F := by
  rw [View.exprs_script] at h ⊢
  simp only [View.children, List.map_append, List.mem_append] at h ⊢
  grind

theorem addConstant_stores {s : Session} {loc : Location} {name : Ident} {value : Expr} (h : s.Stores F)
    (he : ∀ lookup, (View.expr (Fold.noteRead lookup value)).Exprs F) :
    (s.addConstant loc name value).Stores F := by
  have hadd {b : Session} (hb : b.Stores F) (node : Node) (folded : Option Value) :
      Session.Stores F { b with
        nextId := b.nextId + 1,
        script := { b.script with constants := b.script.constants ++
          [⟨node, name, Fold.noteRead s.constants.lookup? value, folded⟩] } } :=
    ⟨hb.stmts, hb.mode, exprs_addConstant hb.script (by simpa using he _), hb.output⟩
  have hdefine (constants : Constants) : Session.Stores F { s with constants := constants } :=
    ⟨h.stmts, h.mode, h.script, h.output⟩
  unfold addConstant
  split
  · exact h.report _ _
  · simp only
    split
    · exact hadd (hdefine _) _ _
    · exact hadd (h.report _ _) _ _

theorem defineFunction_stores {s : Session} {f : FunctionDef} (h : s.Stores F)
    (hf : (View.function f).Exprs F) : (s.defineFunction f).Stores F := by
  unfold defineFunction
  split
  · exact ⟨h.stmts, h.mode, h.script, by rintro _ ⟨⟩; exact hf⟩
  split
  · exact h.report _ _
  · exact h.withScript (exprs_addDeclaration h.script hf)

theorem enterRecovery_stores {s : Session} (h : s.Stores F) : s.enterRecovery.Stores F := by
  unfold enterRecovery
  simp only [clearExpr]
  split
  · exact ⟨fun p hp => h.stmts p ((List.dropWhile_suffix _).subset hp), h.mode, h.script, h.output⟩
  · exact ⟨h.stmts, by simp [Mode.views], h.script, h.output⟩
  · exact ⟨h.stmts, by simp [Mode.views], h.script, h.output⟩
  · exact ⟨h.stmts, by simp [Mode.views], h.script, h.output⟩
  · exact ⟨h.stmts, h.mode, h.script, h.output⟩

theorem recoverToken_stores {s : Session} {r : Recovery} {t : Token} (h : s.Stores F) :
    (s.recoverToken r t).Stores F := by
  obtain ⟨_, _, -, he⟩ := s.recoverToken_eq r t
  rw [he]
  exact ⟨h.stmts, h.mode, h.script, h.output⟩

theorem resync_stores {s : Session} {t : Token} (h : s.Stores F) : (s.resync t).Stores F := by
  unfold resync
  simp only
  split
  · exact recoverToken_stores (enterRecovery_stores h)
  · exact enterRecovery_stores h

end Session

/-- A property of finished expressions, and what it takes of unfinished ones and of the tokens. -/
structure Inherited (config : ParserConfig) (F : Expr → Prop) (E : ExprState → Prop)
    (T : Token → Prop := fun _ => True) : Prop where
  children : ∀ e, F e → ∀ c ∈ e.children, F c
  placeholder : ∀ node, F (.literal node ⟨.undefined, "undefined", false⟩)
  noteRead : ∀ lookup e, F e → F (Fold.noteRead lookup e)
  fresh : ∀ context, E (Session.fresh context)
  shift : ∀ {id id' x y ts}, E x → (∀ t ∈ ts, T t) → Shift config id x ts id' y → E { y with started := true }
  truncate : ∀ {id id' x y}, E x → Truncates id x id' y → E { y with started := true }
  fold : ∀ {id id' x y e}, E x → Folds PendingExpr.isOperator id x id' y → y.stack = [] →
    y.slot = some e → F e

namespace Inherited

variable {config : ParserConfig} {F : Expr → Prop} {E : ExprState → Prop} {T : Token → Prop}
  {s s' : Session} {t : Token}

theorem reading (hF : Inherited config F E T) (hE : ∀ x ∈ s.expr, E x) {x : ExprState} (h : s.Reading t x) : E x := by
  cases h with
  | further _ hx => exact hE x hx
  | statement | whole => exact hF.fresh _

theorem ends (hF : Inherited config F E T) {x : ExprState} {e : Expr} (hx : E x) (h : Ends s x s' (.value e)) :
    (View.expr e).Exprs F := by
  obtain ⟨_, hf, hy, he⟩ := h
  rw [View.exprs_expr hF.children]
  exact hF.fold hx hf hy he

theorem supplies (hF : Inherited config F E T) {x : ExprState} {e : Expr} (hx : E x) (h : Supplies s x s' e) :
    (View.expr e).Exprs F := by
  cases h with
  | given h => exact hF.ends hx h
  | missing => exact (View.exprs_expr hF.children).2 (hF.placeholder _)

theorem completed (hF : Inherited config F E T) {x : ExprState} {completed : Completed} (hx : E x)
    (h : Ends s x s' completed) : ∀ e ∈ completed.value?, (View.expr e).Exprs F := by
  cases completed with
  | value e =>
    rintro _ ⟨⟩
    exact hF.ends hx h
  | _ => simp [Completed.value?]

theorem noted (hF : Inherited config F E T) {e : Expr} (h : (View.expr e).Exprs F)
    (lookup : String → Option Value) : (View.expr (Fold.noteRead lookup e)).Exprs F := by
  rw [View.exprs_expr hF.children] at h ⊢
  exact hF.noteRead lookup e h

end Inherited

theorem PendingStmt.views_supplied {top top' : PendingStmt} {e : Expr} (h : top.supplied? e = some top') :
    top'.views = [.expr e] := by
  unfold supplied? at h
  split at h <;> cases h <;> rfl

theorem PendingStmt.views_opened {top top' : PendingStmt} {context : Option ExprContext}
    (h : top.opened? = some (top', context)) : top'.views = [] := by
  unfold opened? at h
  split at h <;> cases h <;> rfl

theorem PendingStmt.views_begun {node : Node} {k : Keyword} {new : PendingStmt}
    (h : begun? node k = some new) : new.views = [] := by
  unfold begun? at h
  split at h <;> cases h <;> rfl

theorem Mode.views_of_isBare {phase : RootPhase} (h : phase.isBare = true) : (Mode.root phase).views = [] := by
  cases phase with
  | directiveArgs | directiveEnd | constValue => cases h
  | _ => rfl

namespace Session.Stores

variable {F : Expr → Prop} {s : Session}

theorem fails {b b' : Session} (h : Fails b b') (hb : b.Stores F) : b'.Stores F := by
  obtain ⟨⟨_, _, _, rfl⟩, -⟩ := h
  exact ⟨hb.stmts, hb.mode, hb.script, hb.output⟩

theorem withStmts (h : s.Stores F) {stmts : List PendingStmt} (hs : ∀ p ∈ stmts, ∀ v ∈ p.views, v.Exprs F) :
    Session.Stores F { s with stmts := stmts } :=
  ⟨hs, h.mode, h.script, h.output⟩

theorem pop (h : s.Stores F) {top : PendingStmt} {rest : List PendingStmt} (hs : s.stmts = top :: rest) :
    (∀ v ∈ top.views, v.Exprs F) ∧ ∀ p ∈ rest, ∀ v ∈ p.views, v.Exprs F :=
  List.forall_mem_cons.1 (hs ▸ h.stmts)

theorem inRoot (h : s.Stores F) {phase : RootPhase} (hp : phase.isBare = true) :
    (s.inRoot phase).Stores F :=
  ⟨h.stmts, by simp [Session.inRoot, Mode.views_of_isBare hp], h.script, h.output⟩

theorem addDirective (h : s.Stores F) {loc : Location} {kind : DirectiveKind}
    (hk : ∀ e ∈ kind.args, (View.expr e).Exprs F) : (s.addDirective loc kind).Stores F :=
  ⟨h.stmts, h.mode, exprs_addDeclaration h.script (by simpa [Declaration.view] using hk), h.output⟩

theorem bindEmptyBody (h : s.Stores F) (loc : Location) : (s.bindEmptyBody loc).Stores F :=
  finishStmt_stores (s := { s with nextId := s.nextId + 1 }) ⟨h.stmts, h.mode, h.script, h.output⟩
    (by simp [Stmt.children])

theorem ends {s' : Session} {x : ExprState} {completed : Completed} (h : s.Stores F)
    (he : Ends s x s' completed) : s'.Stores F := by
  obtain ⟨_, _, _, _, _, -, -, rfl⟩ := he.same
  exact ⟨h.stmts, h.mode, h.script, h.output⟩

theorem noteSwitch (h : s.Stores F) (switch : Node) (labels : SwitchLabels) (statements : List Stmt)
    (t : Token) : (s.noteSwitch switch labels statements t).Stores F := by
  obtain ⟨_, _, _, hn⟩ := noteSwitch_eq s switch labels statements t
  rw [hn]
  exact ⟨h.stmts, h.mode, h.script, h.output⟩

end Session.Stores

theorem Turn.stores {F : Expr → Prop} {E : ExprState → Prop} {T : Token → Prop} {s s' : Session} {t : Token}
    (h : Turn s t s') (hF : Inherited s.config F E T) (hs : s.Stores F) (hE : ∀ x ∈ s.expr, E x) : s'.Stores F := by
  have hread {x : ExprState} (hx : s.Reading t x) := hF.reading hE hx
  have hbase : ∀ {stream id expr}, Session.Stores F { s with stream := stream, nextId := id, expr := expr } :=
    ⟨hs.stmts, hs.mode, hs.script, hs.output⟩
  -- Only the end of an expression brings in something new; elsewhere the parts change hands.
  cases h with
  | skip => exact Session.recoverToken_stores hs
  | shift => exact ⟨hs.stmts, hs.mode, hs.script, hs.output⟩
  | truncate _ _ hf =>
    have := Session.Stores.fails hf ⟨hs.stmts, hs.mode, hs.script, hs.output⟩
    exact ⟨this.stmts, this.mode, this.script, this.output⟩
  | halt _ _ _ hf | dropStmt _ _ _ _ hf => exact .fails hf hbase
  | reject _ _ _ hf => exact Session.resync_stores (.fails hf hbase)
  | exprStmt hx _ _ he =>
    have hk := hs.ends he
    have hv := hF.ends (hread hx) he
    exact Session.finishStmt_stores ⟨hk.stmts, hk.mode, hk.script, hk.output⟩ (by simpa [Stmt.children])
  | supply hx hst _ _ he hp =>
    have hv := hF.supplies (hread hx) he
    obtain ⟨-, hrest⟩ := hs.pop hst
    obtain ⟨_, _, _, _, _, -, -, rfl⟩ := he.same
    refine ⟨List.forall_mem_cons.2 ⟨?_, hrest⟩, hs.mode, hs.script, hs.output⟩
    rw [PendingStmt.views_supplied hp]
    simpa using hv
  | @clause _ _ completed node clause first condition _ hx hst _ he =>
    have hv := hF.completed (hread hx) he
    obtain ⟨htop, hrest⟩ := hs.pop hst
    have hk := hs.ends he
    refine ⟨List.forall_mem_cons.2 ⟨?_, hrest⟩, hk.mode, hk.script, hk.output⟩
    cases clause <;> simp only [Session.nextForPhase, PendingStmt.views] at htop ⊢ <;> grind
  | keywordCall hx hst _ he =>
    have hv := hF.completed (hread hx) he
    obtain ⟨-, hrest⟩ := hs.pop hst
    exact Session.finishStmt_stores ((hs.ends he).withStmts hrest) (by simpa [Stmt.children] using hv)
  | caseValue hx hst _ he =>
    have hv := hF.ends (hread hx) he
    obtain ⟨-, hrest⟩ := hs.pop hst
    exact Session.caseValue_stores ((hs.ends he).withStmts hrest) fun lookup => hF.noted hv lookup
  | dropHeader _ hst _ _ _ _ hf =>
    exact .fails hf ⟨(hs.pop hst).2, hs.mode, hs.script, hs.output⟩
  | constant hx _ he =>
    have hv := hF.ends (hread hx) he
    exact Session.addConstant_stores ((hs.ends he).inRoot rfl) fun lookup => hF.noted hv lookup
  | dropConstant _ _ _ _ hf => exact .fails hf ⟨hs.stmts, by simp [Mode.views], hs.script, hs.output⟩
  | nextArg hx hm he =>
    have hv := hF.ends (hread hx) he
    have hk := hs.ends he
    have hargs := hs.mode
    refine ⟨hk.stmts, ?_, hk.script, hk.output⟩
    simp only [hm, Mode.views, Session.inRoot, Session.beginExpr] at hargs ⊢
    grind
  | closeArgs hx hm he =>
    have hv := hF.completed (hread hx) he
    have hk := hs.ends he
    have hargs := hs.mode
    refine ⟨hk.stmts, ?_, hk.script, hk.output⟩
    simp only [hm, Mode.views, Session.inRoot] at hargs ⊢
    grind
  | whole hx _ _ he ht =>
    have hv := hF.ends (hread hx) he
    have hk := hs.ends he
    refine ⟨hk.stmts, ?_, hk.script, by rintro _ ⟨⟩; exact hv⟩
    split <;> simp [Mode.views]
  | @spoilWhole _ _ completed _ _ hx _ _ he _ _ hf =>
    obtain ⟨_, he, -⟩ := he
    have hv := hF.completed (hread hx) he
    have hk := Session.Stores.fails hf hbase
    obtain ⟨⟨_, _, _, rfl⟩, -⟩ := hf
    refine ⟨hk.stmts, ?_, hk.script, ?_⟩
    · simp only
      split <;> simp [Mode.views]
    · rintro g hg
      obtain hg | ⟨-, hg⟩ := Option.or_eq_some_iff.1 hg
      · obtain ⟨e, he, rfl⟩ := Option.map_eq_some_iff.1 hg
        exact hv e he
      · exact hs.output g hg
  | openHeader h ho =>
    obtain ⟨-, hrest⟩ := hs.pop h.stmts
    refine ⟨List.forall_mem_cons.2 ⟨?_, hrest⟩, hs.mode, hs.script, hs.output⟩
    simp [PendingStmt.views_opened ho]
  | @iterator _ _ _ name _ h =>
    obtain ⟨-, hrest⟩ := hs.pop h.stmts
    exact Session.iteratorName_stores hs h.stmts
  | nextIterator h =>
    obtain ⟨-, hrest⟩ := hs.pop h.stmts
    exact hs.withStmts (List.forall_mem_cons.2 ⟨by simp [PendingStmt.views], hrest⟩)
  | iterators h =>
    obtain ⟨-, hrest⟩ := hs.pop h.stmts
    exact ⟨List.forall_mem_cons.2 ⟨by simp [PendingStmt.views], hrest⟩, hs.mode, hs.script, hs.output⟩
  | openSwitch | openBlock | openFlow | openCall | openCase | openDefault =>
    exact ⟨List.forall_mem_cons.2 ⟨by simp [PendingStmt.views, caseValues], hs.stmts⟩, hs.mode, hs.script,
      hs.output⟩
  | openStmt _ _ hn =>
    exact ⟨List.forall_mem_cons.2 ⟨by simp [PendingStmt.views_begun hn], hs.stmts⟩, hs.mode, hs.script,
      hs.output⟩
  | flow h =>
    obtain ⟨-, hrest⟩ := hs.pop h.stmts
    exact Session.finishStmt_stores (hs.withStmts hrest) (by simp [Stmt.children])
  | defaultLabel h =>
    obtain ⟨-, hrest⟩ := hs.pop h.stmts
    exact Session.addLabel_stores (hs.withStmts hrest) (by simp [CaseLabel.expr?])
  | elseBranch h =>
    obtain ⟨htop, hrest⟩ := hs.pop h.stmts
    exact hs.withStmts (List.forall_mem_cons.2 ⟨htop, hrest⟩)
  | @noElse node condition thenBranch _ h =>
    obtain ⟨htop, hrest⟩ := hs.pop h.stmts
    have hv : (View.stmt (.ifThen node condition thenBranch)).Exprs F := View.exprs_stmt.2 htop
    have := Session.finishStmt_stores (hs.withStmts hrest) hv
    exact ⟨this.stmts, this.mode, this.script, this.output⟩
  | misplace _ hf => exact Session.enterRecovery_stores (.fails hf hs)
  | straySemicolon | rootSemicolon => exact hs.report _ _
  | emptyBody => exact (hs.report _ _).bindEmptyBody _
  | missBody _ _ _ hf =>
    have := (Session.Stores.fails hf hs).bindEmptyBody t.loc
    exact ⟨this.stmts, this.mode, this.script, this.output⟩
  | closeBlock h =>
    obtain ⟨htop, hrest⟩ := hs.pop h.stmts
    refine Session.finishStmt_stores (hs.withStmts hrest) ?_
    simpa [Stmt.children, PendingStmt.views] using htop
  | @closeSwitch _ labels statements _ _ _ h =>
    obtain ⟨htop, hrest⟩ := hs.pop h.stmts
    obtain ⟨hswitch, hrest⟩ := List.forall_mem_cons.1 hrest
    refine Session.finishStmt_stores ((hs.withStmts hrest).noteSwitch _ _ _ _) ?_
    have hcases (e : Expr) := @Session.mem_caseValues_closeGroups statements.length labels.groups e
    simp only [View.exprs_stmt, Stmt.children, PendingStmt.views] at htop hswitch ⊢
    grind
  | closeFunction h =>
    obtain ⟨htop, -⟩ := hs.pop h.stmts
    refine Session.defineFunction_stores ⟨by simp, by simp [Mode.views], hs.script, hs.output⟩ ?_
    rw [View.exprs_function]
    simpa [FunctionDef.statements, FunctionHeader.define, PendingStmt.views] using htop
  | unbalanced _ _ hf => exact .fails hf hs
  | pass _ hp => exact hs.inRoot hp.isBare
  | spoil _ _ hf hp =>
    exact (Session.Stores.fails hf ⟨hs.stmts, hs.mode, hs.script, hs.output⟩).inRoot hp
  | dots => exact ⟨hs.stmts, by simp [Mode.views], hs.script, hs.output⟩
  | importScript =>
    refine ⟨hs.stmts, (hs.inRoot rfl).mode, Session.exprs_addImport hs.script ?_, hs.output⟩
    simp [DirectiveKind.args]
  | declarative =>
    have hd : Session.Stores F
        { s with mode := .root .idle, script := { s.script with declarative := true } } :=
      ⟨hs.stmts, by simp [Mode.views], View.exprs_script_of (s := s.script) rfl hs.script, hs.output⟩
    exact hd.addDirective (by simp [DirectiveKind.args])
  | bareDirective => exact (hs.inRoot rfl).addDirective (by simp [DirectiveKind.args])
  | directive h =>
    have hargs := hs.mode
    rw [h.mode] at hargs
    exact (hs.inRoot rfl).addDirective (by simpa [DirectiveKind.args, Mode.views] using hargs)
  | openArgs | openConstant =>
    refine ⟨hs.stmts, ?_, hs.script, hs.output⟩
    simp [Mode.views, Session.beginExpr, Session.inRoot]
  | globals =>
    exact ⟨hs.stmts, by simp [Mode.views], View.exprs_script_of (s := s.script) rfl hs.script, hs.output⟩
  | openParams => exact ⟨hs.stmts, by simp [Mode.views], hs.script, hs.output⟩
  | openBody =>
    exact ⟨List.forall_mem_cons.2 ⟨by simp [PendingStmt.views], hs.stmts⟩, by simp [Mode.views], hs.script,
      hs.output⟩
  | declare =>
    refine Session.defineFunction_stores (hs.inRoot rfl) ?_
    rw [View.exprs_function]
    simp [FunctionDef.statements, FunctionHeader.define]
  | scriptEnd _ _ hf =>
    have hempty : (View.script {}).Exprs F := View.exprs_script.2 (by simp [View.children])
    obtain ⟨-, rfl⟩ | hf := hf
    · exact ⟨hs.stmts, by simp [Mode.views], hempty, by rintro _ ⟨⟩; exact hs.script⟩
    · have := Session.Stores.fails hf hs
      exact ⟨this.stmts, by simp [Mode.views], hempty, by rintro _ ⟨⟩; exact hs.script⟩
  | functionEnd _ _ hf =>
    obtain ⟨-, rfl, -⟩ | hf := hf
    · exact ⟨hs.stmts, by simp [Mode.views], hs.script, hs.output⟩
    · have := Session.Stores.fails hf hs
      exact ⟨this.stmts, by simp [Mode.views], this.script, this.output⟩
  | noExpression _ _ _ hf =>
    have := Session.Stores.fails hf hs
    exact ⟨this.stmts, by simp [Mode.views], this.script, this.output⟩
  | expressionEnd _ _ _ hf =>
    obtain ⟨rfl, -⟩ | hf := hf
    · exact ⟨hs.stmts, by simp [Mode.views], hs.script, hs.output⟩
    · have := Session.Stores.fails hf hs
      exact ⟨this.stmts, by simp [Mode.views], this.script, this.output⟩

theorem NextExpr.inherited {F : Expr → Prop} {E : ExprState → Prop} {T : Token → Prop} {s : Session} {t : Token}
    {expr : Option ExprState} (h : NextExpr s t expr) (hF : Inherited s.config F E T) (hE : ∀ x ∈ s.expr, E x)
    (hT : ∀ u ∈ s.stream.tokens.toList, T u) (ht : t ∈ s.stream.tokens.toList) : ∀ x ∈ expr, E x := by
  cases h with
  | none => simp
  | same => exact hE
  | fresh => rintro _ ⟨⟩; exact hF.fresh _
  | shift hx hs h =>
    rintro _ ⟨⟩
    exact hF.shift (hF.reading hE hx) (List.forall_mem_cons.2 ⟨hT t ht, fun u hu => hT u (hs.mem u hu)⟩) h
  | truncate hx h => rintro _ ⟨⟩; exact hF.truncate (hF.reading hE hx) h

namespace Session

theorem steps_stores {F : Expr → Prop} {E : ExprState → Prop} {T : Token → Prop} {config : ParserConfig}
    {tokens : List Token} (hF : Inherited config F E T) (hT : ∀ t ∈ (TokenStream.ofList tokens).tokens.toList, T t)
    (n : Nat) :
    (steps n (ofTokens tokens config)).Stores F ∧ ∀ x ∈ (steps n (ofTokens tokens config)).expr, E x := by
  have hstart : (ofTokens tokens config).Stores F := by
    refine ⟨by simp [ofTokens], ?_, View.exprs_script.2 (by simp [ofTokens, View.children]), by simp [ofTokens]⟩
    unfold ofTokens
    cases config.target <;> simp [Mode.views]
  suffices h : (steps n (ofTokens tokens config)).Stores F ∧ (∀ x ∈ (steps n (ofTokens tokens config)).expr, E x) ∧
      (steps n (ofTokens tokens config)).config = config ∧
      (steps n (ofTokens tokens config)).stream.tokens = (TokenStream.ofList tokens).tokens from ⟨h.1, h.2.1⟩
  refine steps_induction (P := fun s => s.Stores F ∧ (∀ x ∈ s.expr, E x) ∧ s.config = config ∧
      s.stream.tokens = (TokenStream.ofList tokens).tokens)
    (sound_ofTokens tokens config) ⟨hstart, by simp [ofTokens], rfl, rfl⟩ ?_ ?_ n
  · rintro s - ⟨h, hE, hc⟩ -
    exact ⟨⟨h.stmts, h.mode, h.script, h.output⟩, hE, hc⟩
  · rintro s s' - - ⟨h, hE, rfl, htokens⟩ - hturn
    exact ⟨hturn.stores hF ⟨h.stmts, h.mode, h.script, h.output⟩ hE,
      hturn.frame.expr.inherited hF hE (htokens ▸ hT) (s.stream.tokenAt_mem _), hturn.frame.config,
      hturn.frame.tokens.trans htokens⟩

theorem run_stores {F : Expr → Prop} {E : ExprState → Prop} {T : Token → Prop} {config : ParserConfig}
    {tokens : List Token} (hF : Inherited config F E T) (hT : ∀ t ∈ (TokenStream.ofList tokens).tokens.toList, T t) :
    (ofTokens tokens config).run.Stores F :=
  (steps_stores hF hT _).1

end Session

/-- What holds of every finished expression holds of every expression in the graph of a parse. -/
theorem parse_exprs {F : Expr → Prop} {E : ExprState → Prop} {T : Token → Prop} {tokens : List Token}
    {config : ParserConfig} {g : Graph} (hF : Inherited config F E T)
    (hT : ∀ t ∈ (TokenStream.ofList tokens).tokens.toList, T t) (h : (parse tokens config).graph = some g) :
    g.view.Exprs F :=
  (Session.run_stores hF hT).output g (Session.finish_graph h)

end GameScript
