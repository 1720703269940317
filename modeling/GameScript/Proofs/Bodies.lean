import GameScript.Proofs.Declared
import GameScript.Proofs.Segments
import GameScript.Tree.View

namespace GameScript

/-- The innermost of the enclosing statements that a flow statement can refer to. -/
def FlowKind.target? (kind : FlowKind) (targets : List FlowTarget) : Option FlowTarget :=
  targets.find? fun target => kind == .breakFlow || target.kind == .loop

/-- The statement is in order inside of the given targets, the innermost first: each flow statement
refers to the nearest target of its kind, and each switch is cut into its cases. -/
inductive Stmt.Built (allowDefaultWithCase : Bool) (cs : Constants) : List FlowTarget → Stmt → Prop
  | expr {targets : List FlowTarget} {node : Node} {e : Expr} : Built allowDefaultWithCase cs targets (.expr node e)
  | keywordCall {targets : List FlowTarget} {node : Node} {keyword : CallKeyword} {argument : Option Expr} :
      Built allowDefaultWithCase cs targets (.keywordCall node keyword argument)
  | flow {targets : List FlowTarget} {node : Node} {kind : FlowKind} {target : FlowTarget}
      (h : kind.target? targets = some target) : Built allowDefaultWithCase cs targets (.flow node kind target)
  | block {targets : List FlowTarget} {node : Node} {statements : List Stmt}
      (h : ∀ s ∈ statements, Built allowDefaultWithCase cs targets s) :
      Built allowDefaultWithCase cs targets (.block node statements)
  | ifThen {targets : List FlowTarget} {node : Node} {condition : Expr} {thenBranch : Stmt}
      (h : Built allowDefaultWithCase cs targets thenBranch) :
      Built allowDefaultWithCase cs targets (.ifThen node condition thenBranch)
  | ifElse {targets : List FlowTarget} {node : Node} {condition : Expr} {thenBranch elseBranch : Stmt}
      (h : Built allowDefaultWithCase cs targets thenBranch) (h' : Built allowDefaultWithCase cs targets elseBranch) :
      Built allowDefaultWithCase cs targets (.ifElse node condition thenBranch elseBranch)
  | whileLoop {targets : List FlowTarget} {node : Node} {condition : Expr} {body : Stmt}
      (h : Built allowDefaultWithCase cs (⟨.loop, node.id⟩ :: targets) body) :
      Built allowDefaultWithCase cs targets (.whileLoop node condition body)
  | forLoop {targets : List FlowTarget} {node : Node} {first condition step : Option Expr} {body : Stmt}
      (h : Built allowDefaultWithCase cs (⟨.loop, node.id⟩ :: targets) body) :
      Built allowDefaultWithCase cs targets (.forLoop node first condition step body)
  | foreachLoop {targets : List FlowTarget} {node : Node} {key : Option Ident} {value : Ident} {collection : Expr}
      {body : Stmt} (h : Built allowDefaultWithCase cs (⟨.loop, node.id⟩ :: targets) body) :
      Built allowDefaultWithCase cs targets (.foreachLoop node key value collection body)
  | switch {targets : List FlowTarget} {node bodyNode : Node} {subject : Expr} {statements : List Stmt}
      {cases : List Case} (hc : Segmented allowDefaultWithCase cs statements cases)
      (h : ∀ s ∈ statements, Built allowDefaultWithCase cs (⟨.switch, node.id⟩ :: targets) s) :
      Built allowDefaultWithCase cs targets (.switch node subject bodyNode statements cases)

structure FunctionDef.Built (allowDefaultWithCase : Bool) (cs : Constants) (f : FunctionDef) : Prop where
  header : ∃ header : FunctionHeader, f = header.define f.body
  statements : ∀ s ∈ f.statements, s.Built allowDefaultWithCase cs []

def PendingStmt.Built (allowDefaultWithCase : Bool) (cs : Constants) (targets : List FlowTarget) : PendingStmt → Prop
  | block ⟨_, .switchBody labels, statements⟩ =>
    labels.Orderly allowDefaultWithCase cs statements.length ∧
      ∀ s ∈ statements, s.Built allowDefaultWithCase cs targets
  | block ⟨_, _, statements⟩ => ∀ s ∈ statements, s.Built allowDefaultWithCase cs targets
  | ifStmt _ (.awaitElse _ thenBranch) | ifStmt _ (.elseBranch _ thenBranch) =>
    thenBranch.Built allowDefaultWithCase cs targets
  | flow _ kind target => kind.target? targets = some target
  | _ => True

namespace Session

def targets (stmts : List PendingStmt) : List FlowTarget :=
  stmts.filterMap PendingStmt.flowTarget?

@[simp] theorem targets_cons (top : PendingStmt) (rest : List PendingStmt) :
    targets (top :: rest) = top.flowTarget?.toList ++ targets rest := by
  unfold targets
  cases h : top.flowTarget? <;> simp [h]

def StackBuilt (allowDefaultWithCase : Bool) (cs : Constants) : List PendingStmt → Prop
  | [] => True
  | top :: rest => top.Built allowDefaultWithCase cs (targets rest) ∧ StackBuilt allowDefaultWithCase cs rest

namespace StackBuilt

variable {allow : Bool} {cs : Constants} {stmts : List PendingStmt}

theorem drop {p : PendingStmt → Bool} (h : StackBuilt allow cs stmts) : StackBuilt allow cs (stmts.dropWhile p) := by
  induction stmts with
  | nil => exact h
  | cons top rest ih =>
    rw [List.dropWhile_cons]
    split
    · exact ih h.2
    · exact h

theorem replace {top top' : PendingStmt} {rest : List PendingStmt} (h : StackBuilt allow cs (top :: rest))
    (ht : top'.Built allow cs (targets rest)) : StackBuilt allow cs (top' :: rest) :=
  ⟨ht, h.2⟩

end StackBuilt

variable {allow : Bool} {cs : Constants} {s : Session} {stmts : List PendingStmt}

theorem bind_built {stmt : Stmt} (h : StackBuilt allow cs stmts) (hs : stmt.Built allow cs (targets stmts)) :
    StackBuilt allow cs (s.bind stmts stmt).stmts := by
  induction stmts generalizing stmt with
  | nil => exact h
  | cons top rest ih =>
    obtain ⟨htop, hrest⟩ := h
    unfold bind
    cases top with
    | block b =>
      obtain ⟨node, role, statements⟩ := b
      simp only [addToBlock]
      cases role with
      | switchBody labels =>
        obtain ⟨hlabels, hstatements⟩ := htop
        simp only
        split
        · rw [report_stmts]
          exact ⟨⟨hlabels, hstatements⟩, hrest⟩
        · next hg =>
          exact ⟨⟨hlabels.statement (by simpa using hg), List.forall_mem_cons.2 ⟨hs, hstatements⟩⟩, hrest⟩
      | functionBody | nested => exact ⟨List.forall_mem_cons.2 ⟨hs, htop⟩, hrest⟩
    | ifStmt node phase =>
      cases phase with
      | thenBranch condition => exact ⟨hs, hrest⟩
      | elseBranch condition thenBranch => exact ih hrest (.ifElse htop hs)
      | _ => exact ⟨htop, hrest⟩
    | whileLoop node phase =>
      cases phase with
      | body e => exact ih hrest (.whileLoop hs)
      | _ => exact ⟨htop, hrest⟩
    | forLoop node phase =>
      cases phase with
      | body first condition step => exact ih hrest (.forLoop hs)
      | _ => exact ⟨htop, hrest⟩
    | foreachLoop node phase =>
      cases phase with
      | body key value collection => exact ih hrest (.foreachLoop hs)
      | _ => exact ⟨htop, hrest⟩
    | _ => exact ⟨htop, hrest⟩

theorem addLabel_built {label : CaseLabel} {v : Option Value} {loc : Location}
    (h : StackBuilt allow cs s.stmts) (ha : s.config.allowDefaultWithCase = allow) (hv : v = label.folded? cs) :
    StackBuilt allow cs (s.addLabel label v loc).stmts := by
  unfold addLabel
  split
  · next node labels statements rest hs =>
    simp only
    split
    · rw [report_stmts]
      exact h
    · next hp =>
      rw [hs] at h
      rw [ha] at hp
      obtain ⟨⟨hlabels, hstatements⟩, hrest⟩ := h
      exact ⟨⟨hlabels.add hp hv loc, hstatements⟩, hrest⟩
  · exact h

theorem caseValue_built {e : Expr} {loc : Location} (h : StackBuilt allow cs s.stmts)
    (ha : s.config.allowDefaultWithCase = allow) (hc : s.constants = cs) :
    StackBuilt allow cs (s.caseValue e loc).stmts := by
  have hv : (CaseLabel.value (Fold.noteRead s.constants.lookup? e)).folded? cs =
      (Fold.evaluate s.constants.lookup? e).toOption := by
    rw [CaseLabel.folded?, hc, Fold.evaluate_noteRead]
  unfold caseValue
  simp only
  split
  · next v he => exact addLabel_built h ha (by rw [hv, he]; rfl)
  · next reason he =>
    refine addLabel_built ?_ (by simpa using ha) (by rw [hv, he]; rfl)
    rw [report_stmts]
    exact h

theorem iteratorName_stmts (node : Node) (names : IteratorNames) (name : Ident) :
    (s.iteratorName node names name).stmts = .foreachLoop node (.names names) :: s.stmts.tail := by
  unfold iteratorName
  simp only [replaceStmt]
  split
  · rw [report_stmts]
  · rfl

theorem enterRecovery_built (h : StackBuilt allow cs s.stmts) : StackBuilt allow cs s.enterRecovery.stmts := by
  unfold enterRecovery
  simp only [clearExpr]
  split
  · exact h.drop
  · exact h
  · exact h
  · exact h
  · exact h

theorem resync_built {t : Token} (h : StackBuilt allow cs s.stmts) : StackBuilt allow cs (s.resync t).stmts := by
  unfold resync
  simp only
  split
  · obtain ⟨_, _, -, he⟩ := s.enterRecovery.recoverToken_eq _ t
    rw [he]
    exact enterRecovery_built h
  · exact enterRecovery_built h

end Session

open Session

theorem Turn.built {s s' : Session} {t : Token} {allow : Bool} (h : Turn s t s')
    (ha : s.config.allowDefaultWithCase = allow) (hb : StackBuilt allow s.constants s.stmts) :
    StackBuilt allow s.constants s'.stmts := by
  have hpop {top : PendingStmt} {rest : List PendingStmt} (hst : s.stmts = top :: rest) :
      top.Built allow s.constants (targets rest) ∧ StackBuilt allow s.constants rest := by
    rw [hst] at hb
    exact hb
  cases h with
  | skip hr =>
    obtain ⟨_, _, -, he⟩ := s.recoverToken_eq _ t
    rw [he]
    exact hb
  | truncate _ _ hf | halt _ _ _ hf | dropStmt _ _ _ _ hf | dropConstant _ _ _ _ hf | unbalanced _ _ hf =>
    obtain ⟨⟨_, _, _, rfl⟩, -⟩ := hf
    exact hb
  | reject _ _ _ hf =>
    obtain ⟨⟨_, _, _, rfl⟩, -⟩ := hf
    exact resync_built hb
  | exprStmt _ _ _ he =>
    obtain ⟨_, _, _, _, _, -, -, rfl⟩ := he.same
    exact bind_built hb .expr
  | supply _ hst _ _ he hp =>
    refine StackBuilt.replace (hst ▸ hb) ?_
    unfold PendingStmt.supplied? at hp
    split at hp <;> cases hp <;> exact trivial
  | @clause _ _ _ _ clause _ _ _ _ hst =>
    refine StackBuilt.replace (hst ▸ hb) ?_
    cases clause <;> exact trivial
  | keywordCall _ hst _ he =>
    obtain ⟨_, _, _, _, _, -, -, rfl⟩ := he.same
    exact bind_built (hpop hst).2 .keywordCall
  | caseValue _ hst _ he =>
    obtain ⟨_, _, _, _, _, -, -, rfl⟩ := he.same
    exact caseValue_built (hpop hst).2 ha rfl
  | dropHeader _ hst _ _ _ _ hf =>
    obtain ⟨⟨_, _, _, rfl⟩, -⟩ := hf
    exact (hpop hst).2
  | @constant _ _ e loc name _ hm he =>
    obtain ⟨_, _, _, _, _, -, hi, rfl⟩ := he.same
    obtain ⟨_, _, _, hb' | ⟨c, hid, hb'⟩⟩ := Session.addConstant_adds (Session.inRoot _ .idle) loc name e <;> rw [hb'] <;>
      exact hb
  | nextArg _ _ he | closeArgs _ _ he | whole _ _ _ he =>
    obtain ⟨_, _, _, _, _, -, -, rfl⟩ := he.same
    exact hb
  | spoilWhole _ _ _ _ _ _ hf =>
    obtain ⟨⟨_, _, _, rfl⟩, -⟩ := hf
    exact hb
  | openHeader h ho =>
    refine StackBuilt.replace (h.stmts ▸ hb) ?_
    unfold PendingStmt.opened? at ho
    split at ho <;> cases ho <;> exact trivial
  | iterator h =>
    rw [iteratorName_stmts, h.stmts]
    exact StackBuilt.replace (h.stmts ▸ hb) trivial
  | nextIterator h | iterators h => exact StackBuilt.replace (h.stmts ▸ hb) trivial
  | openSwitch => exact ⟨⟨.start, by simp⟩, hb⟩
  | flow h => exact bind_built (hpop h.stmts).2 (.flow (hpop h.stmts).1)
  | defaultLabel h => exact addLabel_built (hpop h.stmts).2 ha rfl
  | elseBranch h => exact StackBuilt.replace (h.stmts ▸ hb) (hpop h.stmts).1
  | noElse h => exact bind_built (hpop h.stmts).2 (.ifThen (hpop h.stmts).1)
  | openBlock => exact ⟨by simp [PendingStmt.Built], hb⟩
  | openStmt _ _ hn =>
    refine ⟨?_, hb⟩
    unfold PendingStmt.begun? at hn
    split at hn <;> cases hn <;> exact trivial
  | openCall | openCase | openDefault => exact ⟨trivial, hb⟩
  | openFlow _ _ hf => exact ⟨hf, hb⟩
  | misplace _ hf =>
    obtain ⟨⟨_, _, _, rfl⟩, -⟩ := hf
    exact enterRecovery_built hb
  | straySemicolon | rootSemicolon =>
    rw [report_stmts]
    exact hb
  | emptyBody =>
    rw [Session.report_eq]
    exact bind_built hb (.block (by simp))
  | missBody _ _ _ hf =>
    obtain ⟨⟨_, _, _, rfl⟩, -⟩ := hf
    exact bind_built hb (.block (by simp))
  | closeBlock h =>
    obtain ⟨hstatements, hrest⟩ := hpop h.stmts
    exact bind_built hrest (.block (by simpa [PendingStmt.Built] using hstatements))
  | @closeSwitch _ labels statements switch _ rest h =>
    obtain ⟨⟨hlabels, hstatements⟩, -, hrest⟩ := hpop h.stmts
    obtain ⟨_, _, _, hn⟩ := Session.noteSwitch_eq { s with stmts := rest } switch labels statements t
    rw [hn]
    -- Closing the labels cuts the body where they stand.
    refine bind_built hrest (.switch ?_ (by simpa [PendingStmt.flowTarget?] using hstatements))
    rw [← List.length_reverse]
    rw [← List.length_reverse] at hlabels
    exact hlabels.close
  | closeFunction h hm =>
    obtain ⟨_, _, _, _, _, hd⟩ := Session.defineFunction_eq _ _
    rw [hd]
    exact trivial
  | importScript | declarative | bareDirective | directive | openArgs | openConstant | globals | openParams | pass | dots => exact hb
  | spoil _ _ hf =>
    obtain ⟨⟨_, _, _, rfl⟩, -⟩ := hf
    exact hb
  | openBody h => exact ⟨by simp [PendingStmt.Built], hb⟩
  | declare h =>
    obtain ⟨_, _, _, _, _, hd⟩ := Session.defineFunction_eq _ _
    rw [hd]
    exact hb
  | scriptEnd _ _ hf =>
    obtain ⟨-, rfl⟩ | ⟨⟨_, _, _, rfl⟩, -⟩ := hf <;> exact hb
  | functionEnd _ _ hf =>
    obtain ⟨-, rfl, -⟩ | ⟨⟨_, _, _, rfl⟩, -⟩ := hf <;> exact hb
  | noExpression _ _ _ hf =>
    obtain ⟨⟨_, _, _, rfl⟩, -⟩ := hf
    exact hb
  | expressionEnd _ _ _ hf =>
    obtain ⟨rfl, -⟩ | ⟨⟨_, _, _, rfl⟩, -⟩ := hf <;> exact hb
  | shift => exact hb

def Graph.functions : Graph → List FunctionDef
  | script s => s.functions
  | function f => [f]
  | expression _ => []

/-- The constants that a function of the graph can name in its labels. -/
def Graph.constantsBefore : Graph → FunctionDef → Constants
  | script s, f => s.constantsBefore f
  | function _, _ | expression _, _ => []

def Graph.Built (allowDefaultWithCase : Bool) (g : Graph) : Prop :=
  ∀ f ∈ g.functions, f.Built allowDefaultWithCase (g.constantsBefore f)

structure Session.Built (s : Session) : Prop where
  ordered : s.Ordered
  stmts : StackBuilt s.config.allowDefaultWithCase s.constants s.stmts
  functions : ∀ f ∈ s.script.functions, f.Built s.config.allowDefaultWithCase (s.script.constantsBefore f)
  output : ∀ g ∈ s.output, g.Built s.config.allowDefaultWithCase

theorem FunctionHeader.define_built {allow : Bool} {cs : Constants} {stmts : List PendingStmt}
    (header : FunctionHeader) {body : Option Block} (h : StackBuilt allow cs stmts)
    (hb : ∀ b ∈ body, stmts = [.block ⟨b.node, .functionBody, b.statements.reverse⟩]) :
    (header.define body).Built allow cs := by
  refine ⟨⟨header, rfl⟩, ?_⟩
  cases body with
  | none => simp [FunctionDef.statements, FunctionHeader.define]
  | some b =>
    rw [hb b rfl] at h
    simpa [PendingStmt.Built, targets, FunctionDef.statements, FunctionHeader.define] using h.1

theorem Script.constantsBefore_append {s s' : Script} {c : ConstantDecl} {f : FunctionDef}
    (hc : s'.constants = s.constants ++ [c]) (hf : f.node.id ≤ c.node.id) :
    s'.constantsBefore f = s.constantsBefore f := by
  simp [Script.constantsBefore, hc, Nat.not_lt_of_le hf]

theorem Session.Ordered.constantsBefore {s : Session} (hs : s.Ordered) (hd : s.mode ≠ .done)
    {header : FunctionHeader} (hm : s.mode.header? = some header) (body : Option Block) :
    s.script.constantsBefore (header.define body) = s.constants := by
  rw [hs.constants hd, Script.constantsBefore, List.filter_eq_self.2]
  exact fun c hc => decide_eq_true ((hs.header header hm).2 c hc)

theorem Script.constantsBefore_congr {s s' : Script} (hc : s'.constants = s.constants) :
    s'.constantsBefore = s.constantsBefore := by
  unfold Script.constantsBefore
  rw [hc]

structure Session.EachFunction (P : Constants → FunctionDef → Prop) (s : Session) : Prop where
  script : ∀ f ∈ s.script.functions, P (s.script.constantsBefore f) f
  output : ∀ g ∈ s.output, ∀ f ∈ g.functions, P (g.constantsBefore f) f

theorem Declares.eachFunction {P : Constants → FunctionDef → Prop} {s s' : Session} (h : Declares s s') (hs : s.Ordered)
    (hd : s.mode ≠ .done) (hp : s.EachFunction P)
    (hnew : ∀ (header : FunctionHeader) (body : Option Block),
      (∀ b ∈ body, s.stmts = [.block ⟨b.node, .functionBody, b.statements.reverse⟩]) →
        P s.constants (header.define body)) : s'.EachFunction P := by
  obtain ⟨hfunctions, houtput⟩ := hp
  have hids := h.ids
  cases h.adds with
  | nothing hcs hfs _ ho =>
    refine ⟨?_, ?_⟩
    · rw [hfs, Script.constantsBefore_congr hcs]
      exact hfunctions
    · obtain ho | ⟨e, ho⟩ := ho <;> rw [ho]
      · exact houtput
      · rintro _ ⟨⟩
        simp [Graph.functions]
  | constant _ hi _ _ _ hcs hfs _ ho =>
    refine ⟨fun f hf => ?_, ho ▸ houtput⟩
    rw [hfs] at hf
    have hid := hs.functionIds f hf
    rw [Script.constantsBefore_append hcs (by omega)]
    exact hfunctions f hf
  | @function header body hm hbody hcs _ _ _ hf =>
    have hnew := hnew header body hbody
    obtain ⟨ht, hf, ho⟩ | ⟨hf, ho⟩ := hf
    · refine ⟨?_, ?_⟩
      · rw [hf, Script.constantsBefore_congr hcs]
        exact hfunctions
      · -- A lone function stands alone, so there are no constants.
        have hnone : s.constants = [] := by
          rw [hs.constants hd, hs.function ht]
          rfl
        rw [hnone] at hnew
        rw [ho]
        rintro _ ⟨⟩
        simpa [Graph.functions, Graph.constantsBefore] using hnew
    · refine ⟨?_, ho ▸ houtput⟩
      rw [hf, Script.constantsBefore_congr hcs]
      refine List.forall_mem_append.2 ⟨hfunctions, List.forall_mem_singleton.2 ?_⟩
      rwa [hs.constantsBefore hd hm]
  | finish _ hscript _ _ ho =>
    refine ⟨by simp [hscript, Script.functions], ?_⟩
    rw [ho]
    rintro _ ⟨⟩
    exact hfunctions

theorem Declares.built {s s' : Session} (h : Declares s s') (hs : s.Shaped) (hd : s.mode ≠ .done) (hb : s.Built)
    (hc : s'.config = s.config) (hst : StackBuilt s.config.allowDefaultWithCase s.constants s'.stmts) :
    s'.Built := by
  obtain ⟨hfunctions, houtput⟩ := h.eachFunction (P := fun cs f => f.Built s.config.allowDefaultWithCase cs) hb.ordered hd
    ⟨hb.functions, hb.output⟩ fun header _ hbody => header.define_built hb.stmts hbody
  refine ⟨h.ordered hb.ordered hc hd, ?_, hc ▸ hfunctions, hc ▸ houtput⟩
  rw [hc]
  obtain hnil | hcs := h.adds.stmts_constants hs
  · rw [hnil]
    trivial
  · rwa [hcs]

theorem Turn.session_built {s s' : Session} {t : Token} (h : Turn s t s') (hs : s.Shaped) (hd : s.mode ≠ .done)
    (hb : s.Built) : s'.Built :=
  (h.declares hs).built hs hd hb h.frame.config (h.built rfl hb.stmts)

theorem Session.mode_of_isFinished {s : Session} (h : s.isFinished = false) : s.mode ≠ .done := by
  intro hm
  simp [isFinished, hm] at h

theorem Session.built_ofTokens (tokens : List Token) (config : ParserConfig) : (ofTokens tokens config).Built := by
  refine ⟨⟨fun _ => rfl, ?_, ?_, ?_, ?_, fun _ => rfl⟩, trivial, ?_, ?_⟩
  · simp [ofTokens]
  · simp [ofTokens, Script.functions]
  · cases ht : config.target <;> simp [ofTokens, ht, Mode.header?, RootPhase.header?]
  · cases ht : config.target <;> simp [ofTokens, ht, Mode.inConstant]
  · simp [ofTokens, Script.functions]
  · simp [ofTokens]

theorem Session.Built.withStream {s : Session} (h : s.Built) (stream : TokenStream) : Built { s with stream := stream } := by
  obtain ⟨hord, hst, hf, ho⟩ := h
  exact ⟨⟨hord.1, hord.2, hord.3, hord.4, hord.5, hord.6⟩, hst, hf, ho⟩

theorem Session.run_built (tokens : List Token) (config : ParserConfig) :
    (ofTokens tokens config).run.Built ∧ (ofTokens tokens config).run.config = config := by
  refine run_induction (P := fun s => s.Built ∧ s.config = config) (sound_ofTokens tokens config)
    ⟨built_ofTokens tokens config, rfl⟩ ?_ ?_
  · rintro s - ⟨hb, hc⟩ -
    exact ⟨hb.withStream _, hc⟩
  · rintro s s' hs hfin ⟨hb, hc⟩ - hturn
    exact ⟨hturn.session_built (hs.read.shaped (halted_of_isFinished hfin)) (mode_of_isFinished hfin) (hb.withStream _),
      hturn.frame.config.trans hc⟩

theorem parse_built {tokens : List Token} {config : ParserConfig} {g : Graph}
    (h : (parse tokens config).graph = some g) : g.Built config.allowDefaultWithCase := by
  obtain ⟨hb, hc⟩ := Session.run_built tokens config
  have := hb.output g (Session.finish_graph h)
  rwa [hc] at this

end GameScript
