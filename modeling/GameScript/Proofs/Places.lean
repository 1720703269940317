import GameScript.Proofs.Nesting
import GameScript.Proofs.Stacking

namespace GameScript

open Session

def Stmt.places : Stmt → List (ExprContext × Expr)
  | .expr _ e => [(.statement, e)]
  | .keywordCall _ _ argument => argument.toList.map (.keywordArg, ·)
  | .flow .. | .block .. => []
  | .ifThen _ condition _ | .ifElse _ condition _ _ | .whileLoop _ condition _ => [(.condition, condition)]
  | .forLoop _ first condition step _ =>
    first.toList.map (.forClause .first, ·) ++ condition.toList.map (.forClause .condition, ·) ++
      step.toList.map (.forClause .step, ·)
  | .foreachLoop _ _ _ collection _ => [(.foreachCollection, collection)]
  | .switch _ subject _ _ cases => (.condition, subject) :: (caseValues cases).map (.caseLabel, ·)

def View.places : View → List (ExprContext × Expr)
  | stmt s => s.places
  | directive d => d.kind.args.map (.directiveArgs, ·)
  | constant c => [(.constValue, c.value)]
  | _ => []

def PendingStmt.places : PendingStmt → List (ExprContext × Expr)
  | block ⟨_, .switchBody labels, _⟩ => (caseValues labels.groups).map (.caseLabel, ·)
  | ifStmt _ (.thenBranch condition) | ifStmt _ (.awaitElse condition _) | ifStmt _ (.elseBranch condition _)
  | whileLoop _ (.body condition) | switch _ (.body condition) => [(.condition, condition)]
  | forLoop _ (.clause _ first condition) =>
    first.toList.map (.forClause .first, ·) ++ condition.toList.map (.forClause .condition, ·)
  | forLoop _ (.body first condition step) =>
    first.toList.map (.forClause .first, ·) ++ condition.toList.map (.forClause .condition, ·) ++
      step.toList.map (.forClause .step, ·)
  | foreachLoop _ (.body _ _ collection) => [(.foreachCollection, collection)]
  | _ => []

namespace PendingStmt

theorem places_of_views {p : PendingStmt} (h : p.views = []) : p.places = [] := by
  unfold places
  split
  · next labels statements =>
    obtain ⟨h, -⟩ := List.append_eq_nil_iff.1 h
    simpa using h
  · cases h
  · cases h
  · cases h
  · cases h
  · cases h
  · next first condition =>
    cases first <;> cases condition <;> first
      | rfl
      | cases h
  · next first condition step =>
    cases first <;> cases condition <;> cases step <;> first
      | rfl
      | cases h
  · cases h
  · rfl

theorem reads_ne_statement (p : PendingStmt) : p.reads ≠ some .statement := by
  unfold reads
  split <;> simp

theorem places_supplied {top top' : PendingStmt} {context : ExprContext} {e : Expr} (hc : top.reads = some context)
    (hp : top.supplied? e = some top') : top'.places = [(context, e)] := by
  unfold supplied? at hp
  split at hp <;> cases hp <;> cases hc <;> rfl

end PendingStmt

section Suited

variable (F : ExprContext → Expr → Prop)

/-- The expression has the property in its place, and it has an effect where it stands alone. -/
def Suited (p : ExprContext × Expr) : Prop :=
  F p.1 p.2 ∧ (p.1 = .statement → p.2.hasEffect = true)

def Stmt.Suited (s : Stmt) : Prop :=
  ∀ p ∈ s.places, GameScript.Suited F p

def PendingStmt.Suited (p : PendingStmt) : Prop :=
  ∀ q ∈ p.places, GameScript.Suited F q

def Script.Suited (s : Script) : Prop :=
  ∀ v ∈ (View.script s).children, ∀ p ∈ v.places, GameScript.Suited F p

def Graph.Suited : Graph → Prop
  | script s => s.Suited F
  | function _ => True
  | expression e => GameScript.Suited F (.topLevel, e)

end Suited

section Statements

variable {F : ExprContext → Expr → Prop} {s : Session} {t : Token}

theorem handsOn_suited : HandsOn (fun stmt => (View.stmt stmt).Stmts (Stmt.Suited F))
    (fun p => p.Suited F ∧ p.Holds (Stmt.Suited F)) := by
  refine .of_parts ?_ (fun _ _ _ h => h) ?_
  · rintro ⟨node, role, old⟩ statements h
    cases role <;> exact h
  · intro p stmt whole h hw
    unfold PendingStmt.complete? at hw
    split at hw <;> cases hw <;> exact h

theorem Changes.suited {top : PendingStmt} {rest : List PendingStmt} (h : Changes s t top rest)
    (hs : ∀ p ∈ s.stmts, p.Suited F) (hy : ∀ context e, s.Yields t context e → F context e)
    (hl : ∀ context node value, F context (.literal node value))
    (hn : ∀ context lookup e, F context e → F context (Fold.noteRead lookup e)) : top.Suited F := by
  have hold {below : PendingStmt} {rest : List PendingStmt} (hst : s.stmts = below :: rest) : below.Suited F :=
    hs below (by rw [hst]; exact List.mem_cons_self)
  cases h with
  | bare _ ht => simp [PendingStmt.Suited, PendingStmt.places_of_views ht]
  | @supply below top' rest context e _ hc hp he =>
    have hf : F context e := by
      obtain he | ⟨node, value, rfl⟩ := he
      · exact hy context e he
      · exact hl context node value
    rw [PendingStmt.Suited, PendingStmt.places_supplied hc hp, List.forall_mem_singleton]
    exact ⟨hf, fun h => absurd (h ▸ hc) (PendingStmt.reads_ne_statement below)⟩
  | @clause node clause first condition e _ hst he =>
    have hheader := hold hst
    have hnew : ∀ e' ∈ e, Suited F (.forClause clause, e') := fun e' h => ⟨hy _ e' (he e' h), by simp⟩
    cases clause <;> simp only [PendingStmt.Suited, PendingStmt.places, nextForPhase] at hheader ⊢ <;> grind
  | @label node labels statements rest label value loc hst he =>
    have hblock : PendingStmt.Suited F (.block ⟨node, .switchBody labels, statements⟩) :=
      hs _ (hst.subset List.mem_cons_self)
    rintro _ hq
    obtain ⟨e, hmem, rfl⟩ := List.mem_map.1 hq
    obtain hmem | hmem := mem_caseValues_add hmem
    · exact hblock _ (List.mem_map_of_mem hmem)
    · obtain ⟨lookup, e', hyield, rfl⟩ := he e hmem
      exact ⟨hn _ lookup e' (hy _ e' hyield), by simp⟩
  | elseBranch hst =>
    have hbranch := hold hst
    exact hbranch

theorem Finishes.suited {below : List PendingStmt} {stmt : Stmt} (h : Finishes s t below stmt)
    (hs : ∀ p ∈ s.stmts, p.Suited F) (hy : ∀ context e, s.Yields t context e → F context e) : stmt.Suited F := by
  have hpop {top : PendingStmt} {rest : List PendingStmt} (hst : s.stmts = top :: rest) :
      top.Suited F ∧ ∀ p ∈ rest, p.Suited F :=
    List.forall_mem_cons.1 (hst ▸ hs)
  cases h with
  | @expr node e he hf => exact List.forall_mem_singleton.2 ⟨hy _ e he, fun _ => hf⟩
  | @keywordCall node keyword argument rest _ he =>
    intro q hq
    obtain ⟨e, hmem, rfl⟩ := List.mem_map.1 hq
    exact ⟨hy _ e (he e (by simpa using hmem)), by simp⟩
  | flow | empty | block => simp [Stmt.Suited, Stmt.places]
  | ifThen hst =>
    have hbranch := (hpop hst).1
    exact hbranch
  | @switch node bodyNode subject labels statements rest hst =>
    obtain ⟨hbody, hrest⟩ := hpop hst
    have hsubject := (List.forall_mem_cons.1 hrest).1
    refine List.forall_mem_cons.2 ⟨hsubject _ List.mem_cons_self, fun q hq => ?_⟩
    obtain ⟨e, hmem, rfl⟩ := List.mem_map.1 hq
    exact hbody _ (List.mem_map_of_mem (mem_caseValues_closeGroups hmem))

end Statements

structure Session.Suited (F : ExprContext → Expr → Prop) (s : Session) : Prop where
  args : ∀ e, View.expr e ∈ s.mode.views → F .directiveArgs e
  script : s.script.Suited F
  output : ∀ g ∈ s.output, g.Suited F

section Declarations

variable {F : ExprContext → Expr → Prop} {s s' : Session} {t : Token}

theorem Script.Suited.empty : Script.Suited F {} := by
  simp [Script.Suited, View.children]

theorem Script.Suited.addDeclaration {script : Script} {d : Declaration} (h : script.Suited F)
    (hd : ∀ p ∈ d.view.places, GameScript.Suited F p) :
    Script.Suited F { script with declarations := script.declarations ++ [d] } := by
  simp only [Script.Suited, View.children, List.map_append, List.mem_append] at h ⊢
  grind

theorem Script.Suited.addImport {script : Script} {node : Node} {path : ModulePath} (h : script.Suited F) :
    Script.Suited F { script with imports := script.imports ++ [⟨node, .importScript path⟩] } := by
  have hd : ∀ p ∈ (View.directive ⟨node, .importScript path⟩).places, GameScript.Suited F p := by
    simp [View.places, DirectiveKind.args]
  simp only [Script.Suited, View.children, List.map_append, List.mem_append] at h ⊢
  grind

theorem Script.Suited.addConstant {script : Script} {c : ConstantDecl} (h : script.Suited F)
    (hc : F .constValue c.value) :
    Script.Suited F { script with constants := script.constants ++ [c] } := by
  have hd : ∀ p ∈ (View.constant c).places, GameScript.Suited F p := by
    simpa [View.places, GameScript.Suited] using hc
  simp only [Script.Suited, View.children, List.map_append, List.mem_append] at h ⊢
  grind

namespace Session.Suited

theorem keep (h : s.Suited F) (hm : s'.mode = s.mode ∨ s'.mode.views = []) (hs : s'.script = s.script)
    (ho : s'.output = s.output) : s'.Suited F := by
  refine ⟨?_, hs ▸ h.script, ho ▸ h.output⟩
  obtain hm | hm := hm <;> rw [hm]
  · exact h.args
  · simp

theorem addConstant (h : s.Suited F) {loc : Location} {name : Ident} {e : Expr}
    (he : ∀ lookup, F .constValue (Fold.noteRead lookup e)) : (s.addConstant loc name e).Suited F := by
  unfold Session.addConstant
  split
  · exact h.keep (.inl (by simp)) (by simp) (by simp)
  · simp only
    split
    · exact ⟨h.args, h.script.addConstant (he _), h.output⟩
    · refine ⟨?_, ?_, ?_⟩
      · simpa [withNode] using h.args
      · simpa [withNode] using h.script.addConstant (he _)
      · simpa [withNode] using h.output

theorem defineFunction (h : s.Suited F) (f : FunctionDef) : (s.defineFunction f).Suited F := by
  unfold Session.defineFunction
  split
  · exact ⟨h.args, h.script, by rintro _ ⟨⟩; trivial⟩
  split
  · exact h.keep (.inl (by simp)) (by simp) (by simp)
  · exact ⟨h.args, h.script.addDeclaration (by simp [Declaration.view, View.places]), h.output⟩

theorem addDirective (h : s.Suited F) (loc : Location) {kind : DirectiveKind}
    (hk : ∀ e ∈ kind.args, F .directiveArgs e) : (s.addDirective loc kind).Suited F := by
  refine ⟨h.args, h.script.addDeclaration ?_, h.output⟩
  simpa [Declaration.view, View.places, GameScript.Suited] using hk

end Session.Suited

theorem Mode.views_enterRecovery (s : Session) : s.enterRecovery.mode = s.mode ∨ s.enterRecovery.mode.views = [] := by
  unfold enterRecovery
  simp only [clearExpr]
  split <;> first
    | exact .inl rfl
    | exact .inr rfl

theorem Session.Suited.enterRecovery (h : s.Suited F) : s.enterRecovery.Suited F := by
  have hm := Mode.views_enterRecovery s
  obtain ⟨_, _, _, he⟩ := s.enterRecovery_eq
  rw [he] at hm ⊢
  exact h.keep hm rfl rfl

theorem Session.Suited.resync (h : s.Suited F) (t : Token) : (s.resync t).Suited F := by
  unfold Session.resync
  simp only
  split
  · obtain ⟨_, _, -, he⟩ := s.enterRecovery.recoverToken_eq _ t
    rw [he]
    exact h.enterRecovery.keep (.inl rfl) rfl rfl
  · exact h.enterRecovery

theorem Session.Reading.reads {x : ExprState} {phase : RootPhase} (hx : s.Reading t x) (hs : s.Shaped)
    (hm : s.mode = .root phase) : phase.reads = some x.context := by
  cases hx with
  | further _ hx =>
    cases hs with
    | root hm' _ _ he =>
      obtain rfl : phase = _ := by simpa [hm] using hm'
      simpa [hx] using he.symm
    | rootRecovery _ _ _ he => simp [hx] at he
    | body hm' | statement hm' | bodyRecovery hm' | expression hm' => simp [hm] at hm'
    | closed hm' => simp [hm] at hm'
  | statement ha => simpa [hm] using ha.mode
  | whole _ _ hm' => simp [hm] at hm'

theorem Turn.suited (h : Turn s t s') (hs : s.Shaped) (ho : s.Suited F)
    (hy : ∀ context e, s.Yields t context e → F context e)
    (hn : ∀ context lookup e, F context e → F context (Fold.noteRead lookup e)) : s'.Suited F := by
  -- Outside of functions, the phase tells what an expression is for.
  have hrootEnd {x : ExprState} {s₁ : Session} {phase : RootPhase} {e : Expr} {context : ExprContext}
      (hx : s.Reading t x) (hm : s.mode = .root phase) (hr : phase.reads = some context)
      (he : Ends s x s₁ (.value e)) : F context e :=
    hy context e ⟨x, s₁, hx, Option.some.inj ((hx.reads hs hm).symm.trans hr), he⟩
  cases h with
  | skip =>
    obtain ⟨_, _, -, he⟩ := s.recoverToken_eq _ t
    rw [he]
    exact ho.keep (.inl rfl) rfl rfl
  | truncate _ _ hf | halt _ _ _ hf | dropStmt _ _ _ _ hf | unbalanced _ _ hf | dropHeader _ _ _ _ _ _ hf =>
    obtain ⟨⟨_, _, _, rfl⟩, -⟩ := hf
    exact ho.keep (.inl rfl) rfl rfl
  | dropConstant _ _ _ _ hf | noExpression _ _ _ hf =>
    obtain ⟨⟨_, _, _, rfl⟩, -⟩ := hf
    exact ho.keep (.inr rfl) rfl rfl
  | reject _ _ _ hf =>
    obtain ⟨⟨_, _, _, rfl⟩, -⟩ := hf
    refine Session.Suited.resync ?_ t
    exact ho.keep (.inl rfl) rfl rfl
  | misplace _ hf =>
    obtain ⟨⟨_, _, _, rfl⟩, -⟩ := hf
    refine Session.Suited.enterRecovery ?_
    exact ho.keep (.inl rfl) rfl rfl
  | exprStmt _ _ _ he | keywordCall _ _ _ he =>
    obtain ⟨_, _, _, _, _, -, -, rfl⟩ := he.same
    obtain ⟨_, _, _, _, hb⟩ := finishStmt_eq _ _
    rw [hb]
    exact ho.keep (.inl rfl) rfl rfl
  | supply _ _ _ _ he | clause _ _ _ he =>
    obtain ⟨_, _, _, _, _, -, -, rfl⟩ := he.same
    exact ho.keep (.inl rfl) rfl rfl
  | caseValue _ _ _ he =>
    obtain ⟨_, _, _, _, _, -, -, rfl⟩ := he.same
    obtain ⟨_, _, _, _, hb⟩ := caseValue_eq _ _ _
    rw [hb]
    exact ho.keep (.inl rfl) rfl rfl
  | constant hx hm he =>
    have hf := hrootEnd hx hm rfl he
    obtain ⟨_, _, _, _, _, -, -, rfl⟩ := he.same
    refine Session.Suited.addConstant ?_ fun lookup => hn _ lookup _ hf
    exact ho.keep (.inr rfl) rfl rfl
  | @nextArg _ _ _ _ _ args hx hm he =>
    have hf := hrootEnd hx hm rfl he
    have hargs := ho.args
    obtain ⟨_, _, _, _, _, -, -, rfl⟩ := he.same
    refine ⟨?_, ho.script, ho.output⟩
    simp only [hm, Mode.views, inRoot, beginExpr] at hargs ⊢
    grind
  | @closeArgs _ _ completed _ _ args hx hm he =>
    have hf : ∀ e ∈ completed.value?, F .directiveArgs e := by
      cases completed with
      | value e =>
        rintro _ ⟨⟩
        exact hrootEnd hx hm rfl he
      | _ => simp [Completed.value?]
    have hargs := ho.args
    obtain ⟨_, _, _, _, _, -, -, rfl⟩ := he.same
    refine ⟨?_, ho.script, ho.output⟩
    simp only [hm, Mode.views, inRoot] at hargs ⊢
    grind
  | whole hx hc _ he =>
    have hf := hy _ _ ⟨_, _, hx, hc, he⟩
    obtain ⟨_, _, _, _, _, -, -, rfl⟩ := he.same
    refine ⟨?_, ho.script, ?_⟩
    · simp only
      split <;> simp [Mode.views]
    · rintro _ ⟨⟩
      exact ⟨hf, by simp⟩
  | @spoilWhole _ _ completed _ _ hx hc _ he _ _ hf =>
    obtain ⟨⟨_, _, _, rfl⟩, -⟩ := hf
    refine ⟨?_, ho.script, ?_⟩
    · simp only
      split <;> simp [Mode.views]
    · obtain ⟨s₁, he, -⟩ := he
      cases completed with
      | value e =>
        rintro _ ⟨⟩
        exact ⟨hy _ e ⟨_, s₁, hx, hc, he⟩, by simp⟩
      | _ => exact ho.output
  | iterator =>
    obtain ⟨_, _, _, _, hb⟩ := iteratorName_eq s _ _ _
    rw [hb]
    exact ho.keep (.inl rfl) rfl rfl
  | flow | closeBlock | noElse =>
    obtain ⟨_, _, _, _, hb⟩ := finishStmt_eq _ _
    rw [hb]
    exact ho.keep (.inl rfl) rfl rfl
  | defaultLabel =>
    obtain ⟨_, _, _, _, hb⟩ := addLabel_eq _ _ _ _
    rw [hb]
    exact ho.keep (.inl rfl) rfl rfl
  | straySemicolon | rootSemicolon =>
    rw [report_eq]
    exact ho.keep (.inl rfl) rfl rfl
  | emptyBody =>
    rw [report_eq, bindEmptyBody]
    obtain ⟨_, _, _, _, hb⟩ := finishStmt_eq _ _
    simp only
    rw [hb]
    exact ho.keep (.inl rfl) rfl rfl
  | missBody _ _ _ hf =>
    obtain ⟨⟨_, _, _, rfl⟩, -⟩ := hf
    rw [bindEmptyBody]
    obtain ⟨_, _, _, _, hb⟩ := finishStmt_eq _ _
    simp only
    rw [hb]
    exact ho.keep (.inl rfl) rfl rfl
  | @closeSwitch _ labels statements switch _ rest =>
    obtain ⟨_, _, _, hn⟩ := noteSwitch_eq { s with stmts := rest } switch labels statements t
    obtain ⟨_, _, _, _, hb⟩ := finishStmt_eq _ _
    rw [hb, hn]
    exact ho.keep (.inl rfl) rfl rfl
  | closeFunction | declare =>
    refine Session.Suited.defineFunction ?_ _
    exact ho.keep (.inr rfl) rfl rfl
  | shift | openHeader | nextIterator | iterators | openSwitch | elseBranch | openBlock | openStmt | openCall
  | openFlow | openCase | openDefault => exact ho.keep (.inl rfl) rfl rfl
  | pass _ hp => exact ho.keep (.inr (Mode.views_of_isBare hp.isBare)) rfl rfl
  | spoil _ _ hf hp =>
    obtain ⟨⟨_, _, _, rfl⟩, -⟩ := hf
    exact ho.keep (.inr (Mode.views_of_isBare hp)) rfl rfl
  | importScript => exact ⟨by simp [addImport, inRoot, withNode, Mode.views], ho.script.addImport, ho.output⟩
  | declarative | bareDirective =>
    refine Session.Suited.addDirective ?_ _ (by simp [DirectiveKind.args])
    exact ⟨by simp [inRoot, Mode.views], ho.script, ho.output⟩
  | directive h =>
    have hargs := ho.args
    rw [h.mode] at hargs
    refine Session.Suited.addDirective ?_ _ (by simpa [DirectiveKind.args, Mode.views] using hargs)
    exact ho.keep (.inr rfl) rfl rfl
  | dots | openArgs | openConstant | openParams | openBody => exact ho.keep (.inr rfl) rfl rfl
  | globals => exact ⟨by simp [Mode.views], ho.script, ho.output⟩
  | scriptEnd _ _ hf =>
    obtain ⟨-, rfl⟩ | ⟨⟨_, _, _, rfl⟩, -⟩ := hf <;>
      exact ⟨by simp [Mode.views], .empty, by rintro _ ⟨⟩; exact ho.script⟩
  | functionEnd _ _ hf =>
    obtain ⟨-, rfl, -⟩ | ⟨⟨_, _, _, rfl⟩, -⟩ := hf <;> exact ho.keep (.inr rfl) rfl rfl
  | expressionEnd _ _ _ hf =>
    obtain ⟨rfl, -⟩ | ⟨⟨_, _, _, rfl⟩, -⟩ := hf <;> exact ho.keep (.inr rfl) rfl rfl

end Declarations

/-- What the reading of an expression ensures in the place that it is for. -/
structure Ensures (F : ExprContext → Expr → Prop) (E : ExprState → Prop) : Prop where
  literal : ∀ context node value, F context (.literal node value)
  noteRead : ∀ context lookup e, F context e → F context (Fold.noteRead lookup e)
  fold : ∀ {id id' x y e}, E x → Folds PendingExpr.isOperator id x id' y → y.stack = [] → y.slot = some e →
    F x.context e

structure Session.InPlace (F : ExprContext → Expr → Prop) (s : Session) : Prop where
  stmts : ∀ p ∈ s.stmts, p.Suited F ∧ p.Holds (Stmt.Suited F)
  functions : s.Defines fun stmt => (View.stmt stmt).Stmts (Stmt.Suited F)
  outside : s.Suited F

section Graphs

variable {F : ExprContext → Expr → Prop} {E : ExprState → Prop} {G : Expr → Prop} {s s' : Session} {t : Token}

theorem Ensures.yields (hF : Ensures F E) (hG : Inherited s.config G E) (hE : ∀ x ∈ s.expr, E x) {context : ExprContext}
    {e : Expr} (h : s.Yields t context e) : F context e := by
  obtain ⟨x, s₁, hx, rfl, he⟩ := h
  cases he with
  | value _ hf hy he => exact hF.fold (hG.reading hE hx) hf hy he

theorem Turn.inPlace (h : Turn s t s') (hF : Ensures F E) (hG : Inherited s.config G E) (hE : ∀ x ∈ s.expr, E x)
    (hshaped : s.Shaped) (hs : s.InPlace F) : s'.InPlace F := by
  have hy : ∀ context e, s.Yields t context e → F context e := fun _ _ => hF.yields hG hE
  have hsuited : ∀ p ∈ s.stmts, p.Suited F := fun p hp => (hs.stmts p hp).1
  have hholds : ∀ p ∈ s.stmts, p.Holds (Stmt.Suited F) := fun p hp => (hs.stmts p hp).2
  refine ⟨?_, (h.declares hshaped).defines hs.functions hholds, h.suited hshaped hs.outside hy hF.noteRead⟩
  refine h.restacks.forall hs.stmts (fun top rest h => ?_) fun below stmt h hbelow => ?_
  · exact ⟨h.suited hsuited hy hF.literal hF.noteRead, h.holds hholds⟩
  · exact handsOn_suited.bind s hbelow (h.stmts hholds (h.suited hsuited hy))

theorem run_inPlace {config : ParserConfig} (hF : Ensures F E) (hG : Inherited config G E) (tokens : List Token) :
    (ofTokens tokens config).run.InPlace F := by
  have hstart : (ofTokens tokens config).InPlace F := by
    refine ⟨by simp [ofTokens], ⟨by simp [ofTokens, Script.functions], by simp [ofTokens]⟩, ?_, .empty,
      by simp [ofTokens]⟩
    unfold ofTokens
    cases config.target <;> simp [Mode.views]
  suffices h : (ofTokens tokens config).run.InPlace F ∧ (∀ x ∈ (ofTokens tokens config).run.expr, E x) ∧
      (ofTokens tokens config).run.config = config from h.1
  refine run_induction (P := fun s => s.InPlace F ∧ (∀ x ∈ s.expr, E x) ∧ s.config = config)
    (sound_ofTokens tokens config) ⟨hstart, by simp [ofTokens], rfl⟩ ?_ ?_
  · rintro s - ⟨⟨hst, ⟨hf, ho⟩, ⟨ha, hsc, hout⟩⟩, hE, hc⟩ -
    exact ⟨⟨hst, ⟨hf, ho⟩, ⟨ha, hsc, hout⟩⟩, hE, hc⟩
  · rintro s s' hs hfin ⟨⟨hst, ⟨hf, ho⟩, ⟨ha, hsc, hout⟩⟩, hE, rfl⟩ - hturn
    refine ⟨?_, hturn.frame.expr.inherited hG hE (fun _ _ => trivial) (s.stream.tokenAt_mem _), hturn.frame.config⟩
    exact hturn.inPlace hF hG hE (hs.read.shaped (halted_of_isFinished hfin))
      ⟨hst, ⟨hf, ho⟩, ⟨ha, hsc, hout⟩⟩

theorem View.script_of_child {u v : View} (hc : v ∈ u.children)
    (hv : (∃ d, v = .directive d) ∨ ∃ c, v = .constant c) : ∃ s, u = .script s := by
  cases u with
  | script s => exact ⟨s, rfl⟩
  | stmt s => obtain ⟨_, rfl⟩ | ⟨_, rfl⟩ := Stmt.children_cases hc <;> simp at hv
  | expr | directive =>
    obtain ⟨_, -, rfl⟩ := List.mem_map.1 hc
    simp at hv
  | function =>
    obtain hc | hc := List.mem_append.1 hc <;>
    · obtain ⟨_, -, rfl⟩ := List.mem_map.1 hc
      simp at hv
  | param => cases hc
  | constant =>
    obtain rfl := List.mem_singleton.1 hc
    simp at hv

variable {tokens : List Token} {config : ParserConfig} {g : Graph}

theorem parse_places (hF : Ensures F E) (hG : Inherited config G E) (h : (parse tokens config).graph = some g)
    {above : List View} {v : View} (hp : g.view.Path above v) : ∀ p ∈ v.places, Suited F p := by
  have hrun := run_inPlace hF hG tokens
  have hgraph := hrun.outside.output g (finish_graph h)
  have hdeclared (hv : (∃ d, v = .directive d) ∨ ∃ c, v = .constant c) : ∀ p ∈ v.places, Suited F p := by
    cases hp with
    | root => cases g <;> simp [Graph.view] at hv
    | @child _ u _ hu hc =>
      obtain ⟨s, rfl⟩ := View.script_of_child hc hv
      obtain ⟨rfl, -⟩ := (parse_built h).placed hu
      exact hgraph v hc
  cases v with
  | stmt s =>
    have hstmts := View.stmts_graph (hrun.functions.output g (finish_graph h))
    exact hstmts _ (View.mem_walk_iff_path.2 ⟨above, hp⟩) s rfl
  | directive d => exact hdeclared (.inl ⟨d, rfl⟩)
  | constant c => exact hdeclared (.inr ⟨c, rfl⟩)
  | expr | function | param | script => simp [View.places]

theorem parse_expression {e : Expr} (hF : Ensures F E) (hG : Inherited config G E)
    (h : (parse tokens config).graph = some (.expression e)) : F .topLevel e :=
  ((run_inPlace hF hG tokens).outside.output _ (finish_graph h)).1

end Graphs

theorem View.mem_places {v : View} {e : Expr} (h : View.expr e ∈ v.children) (hv : ∀ e, v ≠ .expr e) :
    ∃ context, (context, e) ∈ v.places := by
  cases v with
  | expr e => exact (hv e rfl).elim
  | stmt s =>
    have hmem : e ∈ s.places.map Prod.snd := by
      have hchildren : View.expr e ∈ s.children := h
      cases s with
      | flow | block => simp [Stmt.children] at hchildren
      | _ => simpa [Stmt.children, Stmt.places, or_assoc] using hchildren
    obtain ⟨⟨context, _⟩, hplace, rfl⟩ := List.mem_map.1 hmem
    exact ⟨context, hplace⟩
  | directive d => exact ⟨_, List.mem_map_of_mem (by simpa [children] using h)⟩
  | constant c =>
    obtain rfl : e = c.value := by simpa [children] using h
    exact ⟨_, List.mem_cons_self⟩
  | function | param => simp [children] at h
  | script s =>
    have : ∀ d : Declaration, d.view ≠ .expr e := fun d => by cases d <;> simp [Declaration.view]
    simp [children, this] at h

end GameScript
