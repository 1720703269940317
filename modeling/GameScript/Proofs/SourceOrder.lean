import GameScript.Proofs.Advance
import GameScript.Proofs.Beside
import GameScript.Proofs.Bodies
import GameScript.Proofs.Composed
import GameScript.Proofs.Cursors
import GameScript.Proofs.Located
import GameScript.Proofs.Moves
import GameScript.Proofs.Stored
import GameScript.Proofs.Stubs
import GameScript.Proofs.Termination

/-!
The nodes of a parse in source order. A session without errors places the nodes that begin with a token behind all that
it holds, and what it completes takes its parts from the top. In the graph, a node begins no later than its children,
and these follow each other, but for the values and the statements of a switch.
-/

namespace GameScript

open View Stub

namespace PendingStmt

def loc : PendingStmt → Location
  | block b => b.node.loc
  | ifStmt node _ | whileLoop node _ | forLoop node _ | foreachLoop node _ | switch node _ | keywordCall node _
  | flow node _ _ => node.loc
  | caseLabel loc | defaultLabel loc => loc

def parts : PendingStmt → List View
  | block ⟨_, .switchBody labels, statements⟩ =>
    (closeGroups statements.length labels.groups).flatMap (Case.views statements.reverse)
  | block ⟨_, _, statements⟩ => statements.reverse.map .stmt
  | p => p.views

def stub (p : PendingStmt) : Stub :=
  ⟨p.loc.offset, p.parts⟩

theorem stub_supplied {top top' : PendingStmt} {e : Expr} (h : top.supplied? e = some top') :
    top'.stub = ⟨top.loc.offset, top.parts ++ [.expr e]⟩ := by
  unfold supplied? at h
  split at h <;> cases h <;> rfl

theorem stub_opened {top top' : PendingStmt} {context : Option ExprContext}
    (h : top.opened? = some (top', context)) : top'.stub = top.stub := by
  unfold opened? at h
  split at h <;> cases h <;> rfl

theorem stub_begun {node : Node} {k : Keyword} {new : PendingStmt} (h : begun? node k = some new) :
    new.stub = ⟨node.loc.offset, []⟩ := by
  unfold begun? at h
  split at h <;> cases h <;> rfl

theorem complete?_parts {top : PendingStmt} {stmt whole : Stmt} (h : top.complete? stmt = some whole) :
    whole.loc = top.loc ∧ (View.stmt whole).parts = top.parts ++ [.stmt stmt] ∧ (View.stmt whole).IsCut := by
  unfold complete? at h
  split at h <;> cases h <;>
    simp [Stmt.loc, Stmt.node, loc, View.parts, View.children, Stmt.children, parts, views, IsCut]

variable {node : Node} {labels : SwitchLabels} {statements : List Stmt} {allow : Bool} {cs : Constants}

theorem parts_block_cons (hl : labels.Orderly allow cs statements.length) (hg : labels.groups ≠ []) (stmt : Stmt) :
    (block ⟨node, .switchBody labels, stmt :: statements⟩).parts =
      (block ⟨node, .switchBody labels, statements⟩).parts ++ [.stmt stmt] := by
  obtain ⟨c, earlier, hgroups⟩ := List.exists_cons_of_ne_nil hg
  have hfalling := hl.falling
  have hwithin := hl.within
  rw [hgroups] at hfalling hwithin
  obtain ⟨hbelow, hfalling⟩ := List.pairwise_cons.1 hfalling
  have hc : c.offset ≤ statements.length := hwithin c List.mem_cons_self
  have hbefore : ∀ d ∈ closeGroups c.offset earlier,
      Case.views (statements.reverse ++ [stmt]) d = Case.views statements.reverse d := by
    intro d hd
    have hstop := (within_closeGroups (fun e he => Nat.le_of_lt (hbelow e he)) hfalling d hd).2
    rw [Case.views, Case.views, Stmt.segment, Stmt.segment, List.take_append_of_le_length (by simp; omega)]
  have hlast : Case.views (statements.reverse ++ [stmt]) { c with first := c.offset, stop := statements.length + 1 } =
      Case.views statements.reverse { c with first := c.offset, stop := statements.length } ++ [.stmt stmt] := by
    have hdrop : (statements.reverse ++ [stmt]).drop c.offset = statements.reverse.drop c.offset ++ [stmt] :=
      List.drop_append_of_le_length (by simpa using hc)
    simp [Case.views, Stmt.segment, List.take_of_length_le, hdrop]
  simp only [parts, hgroups, closeGroups, List.length_cons, List.reverse_cons, List.flatMap_append, List.flatMap_cons,
    List.flatMap_nil, List.append_nil, hlast, List.append_assoc]
  rw [List.flatMap_congr hbefore]

theorem parts_block_add (label : CaseLabel) (value : Option Value) (l : Location) :
    (block ⟨node, .switchBody (labels.add statements.length label value l), statements⟩).parts =
      (block ⟨node, .switchBody labels, statements⟩).parts ++ label.expr?.toList.map .expr := by
  have hnone {c : Case} (hc : c.offset = statements.length) (ls : List CaseLabel) (place : Location) (n stop : Nat) :
      Case.views statements.reverse ⟨place, n, ls, c.offset, stop⟩ = (ls.filterMap CaseLabel.expr?).map .expr := by
    have hlen : ((statements.reverse.take stop).drop c.offset) = [] := by
      rw [List.drop_eq_nil_iff, List.length_take, List.length_reverse]
      omega
    simp [Case.views, Stmt.segment, hlen]
  have hone : [label].filterMap CaseLabel.expr? = label.expr?.toList := by
    cases h : label.expr? <;> simp [h]
  obtain ⟨c, earlier, hgroups, hc, -, hadd⟩ | ⟨-, -, hadd⟩ := labels.groups_add statements.length label value l
  · simp only [parts, hadd, hgroups, closeGroups, List.flatMap_append, List.flatMap_cons, List.flatMap_nil,
      List.append_nil, hnone hc, List.filterMap_append, hone, List.map_append, List.append_assoc]
  · have hnew := hnone (c := ⟨l, statements.length, [label], 0, 0⟩) rfl
    simp only [parts, hadd, closeGroups, List.flatMap_append, List.flatMap_cons, List.flatMap_nil, List.append_nil,
      hnew, hone]

end PendingStmt

theorem Stowed.piled {stmts stmts' : List PendingStmt} {stmt : Stmt} {stop : Nat} {rest : List Stub} {allow : Bool}
    {cs : Constants} (h : Stowed stmts stmt stmts') (hb : Session.StackBuilt allow cs stmts)
    (hs : Piled stop (⟨stmt.loc.offset, [.stmt stmt]⟩ :: (stmts.map PendingStmt.stub ++ rest))) :
    Piled stop (stmts'.map PendingStmt.stub ++ rest) := by
  induction h with
  | @block node role statements below stmt hr =>
    have hnew := Piled.takes hs
    have hparts : (PendingStmt.block ⟨node, role, stmt :: statements⟩).parts =
        (PendingStmt.block ⟨node, role, statements⟩).parts ++ [.stmt stmt] := by
      cases role with
      | switchBody labels => exact PendingStmt.parts_block_cons hb.1.1 (hr labels rfl) stmt
      | functionBody | nested => simp [PendingStmt.parts]
    rw [← hparts] at hnew
    exact hnew
  | thenBranch => exact Piled.takes hs
  | whole hw _ ih =>
    obtain ⟨hl, hp, hc⟩ := PendingStmt.complete?_parts hw
    refine ih hb.2 ?_
    rw [hl]
    exact (Piled.takes hs).wraps (congrArg Location.offset hl) hp hc

def ExprState.stubs (x : ExprState) : List Stub :=
  (x.held 0 none).stubs

def FunctionHeader.stub (h : FunctionHeader) : Stub :=
  ⟨h.node.loc.offset, h.params.map .param⟩

def RootPhase.stubs : RootPhase → List Stub
  | directiveName loc | directiveHead loc _ | constName loc | constEquals loc _ | constValue loc _ =>
    [⟨loc.offset, []⟩]
  | directiveArgs loc _ args | directiveEnd loc _ args => [⟨loc.offset, args.map .expr⟩]
  | functionOpen name => [⟨name.loc.offset, []⟩]
  | param header pending => (pending.toList.map fun p => ⟨p.1.offset, []⟩) ++ [header.stub]
  | paramEnd header | functionEnd header => [header.stub]
  | idle | importPath .. | globals .. => []

def Mode.stubs : Mode → List Stub
  | root phase => phase.stubs
  | body header => [header.stub]
  | expression | expressionEnd | done => []

/-- All nodes of the graph are in order, but for the root of a script, whose parts are sorted by kind. -/
def Graph.Sequenced : Graph → Prop
  | script s => ∀ v ∈ (View.script s).children, v.Sequenced
  | function f => (View.function f).Sequenced
  | expression e => (View.expr e).Sequenced

namespace Session

def below (s : Session) : List Stub :=
  s.stmts.map PendingStmt.stub ++ s.mode.stubs

def stubs (s : Session) : List Stub :=
  s.expr.toList.flatMap ExprState.stubs ++ s.below

structure Sequenced (stop : Nat) (s : Session) : Prop where
  stubs : Piled stop s.stubs
  script : (Graph.script s.script).Sequenced
  output : ∀ g ∈ s.output, g.Sequenced

variable {s s' : Session} {t : Token} {x : ExprState} {stop : Nat} {top : PendingStmt} {rest : List PendingStmt}

theorem stubs_some (hx : s.expr = some x) : s.stubs = x.stubs ++ s.below := by
  simp [stubs, hx]

theorem stubs_none (hx : s.expr = none) : s.stubs = s.below := by
  simp [stubs, hx]

theorem Sequenced.of_below (hx : s.expr = none) (hs : Piled stop s.below) (hscript : (Graph.script s.script).Sequenced)
    (houtput : ∀ g ∈ s.output, g.Sequenced) : s.Sequenced stop :=
  ⟨stubs_none hx ▸ hs, hscript, houtput⟩

theorem Sequenced.of_mode (hx : s.expr = none) (hst : s.stmts = []) (hs : Piled stop s.mode.stubs)
    (hscript : (Graph.script s.script).Sequenced) (houtput : ∀ g ∈ s.output, g.Sequenced) : s.Sequenced stop :=
  .of_below hx (by rwa [below, hst]) hscript houtput

theorem Sequenced.of_fresh {context : ExprContext} (hx : s.expr = some (fresh context)) (hst : s.stmts = [])
    (hs : Piled stop s.mode.stubs) (hscript : (Graph.script s.script).Sequenced)
    (houtput : ∀ g ∈ s.output, g.Sequenced) : s.Sequenced stop :=
  ⟨by rwa [stubs_some hx, below, hst], hscript, houtput⟩

theorem AtHeader.stubs (h : s.AtHeader top rest) :
    s.stubs = top.stub :: (rest.map PendingStmt.stub ++ s.mode.stubs) := by
  simp [Session.stubs, below, h.expr, h.stmts]

theorem AtStatement.stubs (h : s.AtStatement top rest) :
    s.stubs = top.stub :: (rest.map PendingStmt.stub ++ s.mode.stubs) := by
  simp [Session.stubs, below, h.expr, h.stmts]

theorem below_root {phase : RootPhase} (hst : s.stmts = []) (hm : s.mode = .root phase) : s.below = phase.stubs := by
  rw [below, hst, hm]
  rfl

theorem Reading.piled (h : s.Reading t x) (hs : Piled stop s.stubs) : Piled stop (x.stubs ++ s.below) := by
  cases h with
  | further _ hx => exact stubs_some hx ▸ hs
  | statement h => exact stubs_none h.expr ▸ hs
  | whole _ hx => exact stubs_none hx ▸ hs

end Session

open Session

variable {s s' : Session} {x y : ExprState} {t : Token} {stop next : Nat} {below : List Stub}

theorem Shift.piled {config : ParserConfig} {id id' : Nat} {more : List Token}
    (h : Shift config id x (t :: more) id' y) (hs : Piled t.loc.offset (x.stubs ++ below))
    (hlt : t.loc.offset < next) : Piled next (y.stubs ++ below) := by
  have hx : (x.held id (some t.loc)).Sequenced next below := ⟨hs, by simpa [ExprState.held] using hlt⟩
  exact (h.moves.sequenced hx).stubs

theorem Ends.piled {completed : Completed} (h : Ends s x s' completed) (hf : completed.isFailed = false)
    (hs : Piled stop (x.stubs ++ below)) : Piled stop (Stub.operand completed.value? ++ below) := by
  have hx : (x.held s.nextId none).Sequenced stop below := ⟨hs, by simp [ExprState.held]⟩
  simpa [Held.stubs] using ((h.moves hf).sequenced hx).stubs

theorem Session.addDeclaration_sequenced {d : Declaration} (h : (Graph.script s.script).Sequenced)
    (hd : d.view.Sequenced) : (Graph.script (s.addDeclaration d).script).Sequenced := by
  simp only [Graph.Sequenced, View.children, Session.addDeclaration, List.map_append, List.forall_mem_append,
    List.map_cons, List.map_nil, List.forall_mem_singleton] at h ⊢
  exact ⟨⟨h.1.1, h.1.2, hd⟩, h.2⟩

theorem Session.addImport_sequenced {loc : Location} {path : ModulePath} (h : (Graph.script s.script).Sequenced) :
    (Graph.script (s.addImport loc path).script).Sequenced := by
  simp only [Graph.Sequenced, View.children, Session.addImport, Session.withNode, List.map_append,
    List.forall_mem_append, List.map_cons, List.map_nil, List.forall_mem_singleton] at h ⊢
  exact ⟨⟨⟨h.1.1, sequenced_leaf trivial rfl⟩, h.1.2⟩, h.2⟩

theorem Session.addConstant_sequenced {script : Script} {c : ConstantDecl} (h : (Graph.script script).Sequenced)
    (hc : (View.constant c).Sequenced) :
    (Graph.script { script with constants := script.constants ++ [c] }).Sequenced := by
  simp only [Graph.Sequenced, View.children, List.map_append, List.forall_mem_append, List.map_cons, List.map_nil,
    List.forall_mem_singleton] at h ⊢
  exact ⟨h.1, h.2, hc⟩

theorem Session.defineFunction_sequenced {f : FunctionDef} (h : s.Sequenced stop) (hf : (View.function f).Sequenced)
    (hd : s.config.target = .function ∨ s.script.findFunction? f.name.name = none) :
    (s.defineFunction f).Sequenced stop := by
  obtain ⟨-, he⟩ | ⟨-, he⟩ := Session.defineFunction_new hd <;> rw [he]
  · exact ⟨h.stubs, h.script, by rintro _ ⟨⟩; exact hf⟩
  · exact ⟨h.stubs, addDeclaration_sequenced h.script hf, h.output⟩

theorem Session.addDirective_sequenced {loc : Location} {kind : DirectiveKind} (h : s.Sequenced stop)
    (hd : (View.directive ⟨⟨s.nextId, loc⟩, kind⟩).Sequenced) : (s.addDirective loc kind).Sequenced stop :=
  ⟨h.stubs, addDeclaration_sequenced (s := { s with nextId := s.nextId + 1 }) h.script hd, h.output⟩

theorem Session.plainName?_loc {name : Ident} (h : s.plainName? t = some name) : name.loc = t.loc := by
  unfold plainName? at h
  split at h <;> cases h
  rfl

theorem piled_pending {header : FunctionHeader} {pending : PendingParam} {loc : Location} {m : ParamModifiers}
    (hp : pending.getD (t.loc, {}) = (loc, m)) (hs : Piled t.loc.offset (RootPhase.param header pending).stubs)
    (hlt : t.loc.offset < next) : Piled next [⟨loc.offset, []⟩, header.stub] := by
  cases pending with
  | none =>
    cases hp
    exact Piled.opens hs hlt
  | some p =>
    cases hp
    exact hs.mono (Nat.le_of_lt hlt)

theorem Passes.piled {phase phase' : RootPhase} (h : Passes s t phase phase')
    (hs : Piled t.loc.offset phase.stubs) (hlt : t.loc.offset < next) : Piled next phase'.stubs := by
  have hnext := hs.mono (Nat.le_of_lt hlt)
  have hopens : Piled next [⟨t.loc.offset, []⟩] := .opens trivial hlt
  cases h with
  | hash | constKeyword => exact hopens
  | globalKeyword => exact trivial
  | functionName _ ht =>
    rw [← plainName?_loc ht] at hopens
    exact hopens
  | importName => exact trivial
  | directiveName | constName => exact hnext
  | segment | backslash | globalName | nextGlobal => exact trivial
  | mark hp => exact piled_pending hp hs hlt
  | @param header pending loc m name hp =>
    have hnew := (piled_pending hp hs hlt).wraps (v := .param ⟨loc, some name, m⟩) rfl rfl trivial
    simpa [RootPhase.stubs, FunctionHeader.stub] using Piled.takes hnew
  | @bareDots header loc m =>
    have hnew := Piled.wraps (v := .param ⟨loc, none, m⟩) hnext rfl rfl trivial
    simpa [RootPhase.stubs, FunctionHeader.stub] using Piled.takes hnew
  | noParams | nextParam | closeParams => exact hnext

theorem Advance.sequenced {allow : Bool} (h : Advance s t s') (hs : s.Shaped)
    (hb : StackBuilt allow s.constants s.stmts) (ho : s.Sequenced t.loc.offset) (hle : t.loc.offset ≤ next)
    (hlt : t.isEof = false → s.stream.cursor ≤ s'.stream.cursor → t.loc.offset < next) : s'.Sequenced next := by
  obtain ⟨hstubs, hscript, houtput⟩ := ho
  have hnext : Piled next s.stubs := hstubs.mono hle
  -- An expression ends on top of what is around it.
  have hends {b : Session} {x : ExprState} {completed : Completed} (hx : s.Reading t x) (he : Ends s x b completed)
      (hf : completed.isFailed = false) : Piled next (Stub.operand completed.value? ++ s.below) :=
    he.piled hf (hx.piled hnext)
  -- A node begins with the token.
  have hopens (hx : s.expr = none) (hlt : t.loc.offset < next) : Piled next (⟨t.loc.offset, []⟩ :: s.below) :=
    (stubs_none hx ▸ hstubs).opens hlt
  -- There are no statements outside of all bodies.
  have hnil {phase : RootPhase} (hm : s.mode = .root phase) : s.stmts = [] := hs.stmts_nil (by simp [hm])
  have hat {phase : RootPhase} (h : s.AtRoot phase) : Piled t.loc.offset phase.stubs := by
    rwa [stubs_none h.expr, below_root (hnil h.mode) h.mode] at hstubs
  have hroot {phase : RootPhase} (h : s.AtRoot phase) : Piled next phase.stubs := (hat h).mono hle
  cases h with
  -- Expressions
  | shift hx htakes h =>
    -- A shift takes its token for good, so the next one begins behind it.
    have hnew := h.piled (hx.piled hstubs)
      (hlt (Token.isEof_of_isEdge h.isEdge) (Nat.le_trans (Nat.le_add_right _ _) (Nat.le_of_eq htakes.cursor.symm)))
    exact ⟨by rw [stubs_some rfl]; exact hnew, hscript, houtput⟩
  -- Ends of expressions
  | @exprStmt _ _ e _ hx _ he hf _ hk =>
    have hnew := hends hx he rfl
    obtain ⟨_, id, -, rfl⟩ := he.of_value
    have hstmt := Piled.wraps (v := .stmt (.expr ⟨id, e.loc⟩ e)) hnew rfl rfl trivial
    exact .of_below rfl (hk.piled hb hstmt) hscript houtput
  | @supply _ _ e top top' rest hx hst _ _ he hp =>
    have hnew := hends hx he rfl
    obtain ⟨_, id, -, rfl⟩ := he.of_value
    rw [below, hst] at hnew
    have hsupplied : Piled next (top'.stub :: (rest.map PendingStmt.stub ++ s.mode.stubs)) := by
      rw [PendingStmt.stub_supplied hp]
      exact Piled.takes_operand hnew
    exact .of_below rfl hsupplied hscript houtput
  | @clause _ _ completed node clause first condition rest hx hst _ he hf =>
    have hnew := hends hx he hf
    obtain ⟨_, id, -, rfl⟩ := he.of_not_failed hf
    rw [below, hst] at hnew
    have htaken := Piled.takes_operand hnew
    have hclause : Piled next ((PendingStmt.forLoop node (nextForPhase clause first condition completed.value?)).stub ::
        (rest.map PendingStmt.stub ++ s.mode.stubs)) := by
      -- A clause that is left out is no part.
      refine htaken.loses ?_
      cases clause <;> simp [PendingStmt.parts, PendingStmt.views, nextForPhase]
    exact ⟨by cases clause <;> exact hclause, hscript, houtput⟩
  | @keywordCall _ _ completed node keyword rest _ hx hst _ he hf _ _ hk =>
    have hnew := hends hx he hf
    obtain ⟨_, id, -, rfl⟩ := he.of_not_failed hf
    rw [below, hst] at hnew
    rw [hst] at hb
    have hstmt := (Piled.takes_operand hnew).wraps (v := .stmt (.keywordCall node keyword completed.value?)) rfl rfl
      trivial
    exact .of_below rfl (hk.piled hb.2 hstmt) hscript houtput
  | @caseValue _ _ e loc node labels statements rest v hx hst _ he =>
    have hnew := hends hx he rfl
    obtain ⟨_, id, -, rfl⟩ := he.of_value
    rw [below, hst] at hnew
    have hvalue := Piled.replaces hnew (Fold.noteRead_replaces s.constants.lookup? e)
    have hlabel : Piled next ((PendingStmt.block ⟨node, .switchBody (labels.add statements.length
        (.value (Fold.noteRead s.constants.lookup? e)) (some v) loc), statements⟩).stub ::
          (rest.map PendingStmt.stub ++ s.mode.stubs)) := by
      rw [PendingStmt.stub, PendingStmt.parts_block_add]
      -- The label takes the value, and the body takes the label.
      exact Piled.takes (Piled.takes hvalue)
    exact .of_below rfl hlabel hscript houtput
  | @constant _ _ e loc name v hx hm he =>
    have hnew := hends hx he rfl
    obtain ⟨_, id, -, rfl⟩ := he.of_value
    rw [below_root (hnil hm) hm] at hnew
    have hvalue := Piled.replaces hnew (Fold.noteRead_replaces s.constants.lookup? e)
    have hconst := (Piled.takes hvalue).wraps
      (v := .constant ⟨⟨id, loc⟩, name, Fold.noteRead s.constants.lookup? e, some v⟩) rfl rfl trivial
    exact .of_mode rfl (hnil hm) trivial (addConstant_sequenced hscript (hconst.sequenced _ List.mem_cons_self)) houtput
  | @nextArg _ _ e loc name args hx hm he =>
    have hnew := hends hx he rfl
    obtain ⟨_, id, -, rfl⟩ := he.of_value
    rw [below_root (hnil hm) hm] at hnew
    have hargs : Piled next (RootPhase.directiveArgs loc name (args ++ [e])).stubs := by
      simpa [RootPhase.stubs, Completed.value?] using Piled.takes_operand hnew
    exact .of_fresh rfl (hnil hm) hargs hscript houtput
  | @closeArgs _ _ completed loc name args hx hm he hf =>
    have hnew := hends hx he hf
    obtain ⟨_, id, -, rfl⟩ := he.of_not_failed hf
    rw [below_root (hnil hm) hm] at hnew
    have hargs : Piled next (RootPhase.directiveEnd loc name (args ++ completed.value?.toList)).stubs := by
      simpa [RootPhase.stubs] using Piled.takes_operand hnew
    exact .of_mode rfl (hnil hm) hargs hscript houtput
  | @whole _ _ e hx _ hm he =>
    have hnew := hends hx he rfl
    obtain ⟨_, id, -, rfl⟩ := he.of_value
    have hwhole : (Graph.expression e).Sequenced := Piled.sequenced hnew _ List.mem_cons_self
    refine .of_mode rfl (hs.stmts_nil (by simp [hm])) ?_ hscript (by rintro _ ⟨⟩; exact hwhole)
    simp only
    split <;> exact trivial
  -- Headers
  | @openHeader top top' context rest h ho =>
    have hopened : Piled next (top'.stub :: (rest.map PendingStmt.stub ++ s.mode.stubs)) := by
      rw [PendingStmt.stub_opened ho, ← h.stubs]
      exact hnext
    exact ⟨by cases context <;> exact hopened, hscript, houtput⟩
  | @iterator node _ names' name _ h =>
    have hst := s.iteratorName_stmts node names' name
    obtain ⟨_, stmts, he⟩ := iteratorName_warned (s := s) node names' name
    rw [he] at hst ⊢
    rw [h.stubs] at hnext
    refine .of_below h.expr ?_ hscript houtput
    rw [below, hst, h.stmts]
    exact hnext
  | nextIterator h | elseBranch h =>
    rw [h.stubs] at hnext
    exact .of_below h.expr hnext hscript houtput
  | iterators h =>
    rw [h.stubs] at hnext
    exact ⟨hnext, hscript, houtput⟩
  | openSwitch h ht =>
    exact .of_below h.expr (hopens h.expr (hlt (Token.isEof_of_isSymbol ht) (Nat.le_refl _))) hscript houtput
  -- Statements
  | openBlock h ht =>
    exact .of_below h.expr (hopens h.expr (hlt (Token.isEof_of_isSymbol ht) (Nat.le_refl _))) hscript houtput
  | @flow node kind target rest _ h _ hk =>
    rw [h.stubs] at hnext
    rw [h.stmts] at hb
    have hstmt := hnext.wraps (v := .stmt (.flow node kind target)) rfl rfl trivial
    exact .of_below h.expr (hk.piled hb.2 hstmt) hscript houtput
  | @noElse node condition thenBranch rest _ h _ hk =>
    rw [h.stubs] at hnext
    rw [h.stmts] at hb
    have hstmt := hnext.wraps (v := .stmt (.ifThen node condition thenBranch)) rfl rfl trivial
    exact .of_below h.expr (hk.piled hb.2 hstmt) hscript houtput
  | @defaultLabel loc node labels statements rest h =>
    rw [h.stubs] at hnext
    have hlabel : Piled next ((PendingStmt.block ⟨node, .switchBody (labels.add statements.length (.default loc) none
        loc), statements⟩).stub :: (rest.map PendingStmt.stub ++ s.mode.stubs)) := by
      rw [PendingStmt.stub, PendingStmt.parts_block_add]
      exact Piled.takes hnext
    exact .of_below h.expr hlabel hscript houtput
  | @openStmt top rest k new h ht hn =>
    have hnew := hopens h.expr (hlt (Token.isEof_of_isEdge (Token.isEdge_of_keyword ht)) (Nat.le_refl _))
    rw [← PendingStmt.stub_begun hn] at hnew
    exact .of_below h.expr hnew hscript houtput
  | openCall h ht | openCase h ht =>
    have hnew := hopens h.expr (hlt (Token.isEof_of_isEdge (Token.isEdge_of_keyword ht)) (Nat.le_refl _))
    exact ⟨hnew, hscript, houtput⟩
  | openFlow h ht | openDefault h ht =>
    have hnew := hopens h.expr (hlt (Token.isEof_of_isEdge (Token.isEdge_of_keyword ht)) (Nat.le_refl _))
    exact .of_below h.expr hnew hscript houtput
  | straySemicolon | rootSemicolon =>
    obtain ⟨_, hw⟩ := report_warning (s := s) (p := .straySemicolon) t.loc rfl
    rw [hw]
    exact ⟨hnext, hscript, houtput⟩
  | emptyBody h _ ht hk =>
    obtain ⟨_, hw⟩ := report_warning (s := s) (p := .straySemicolon) t.loc rfl
    rw [hw] at hlt ⊢
    have hnew := hopens h.expr (hlt (Token.isEof_of_isSymbol ht) (Nat.le_refl _))
    have hstmt := hnew.wraps (v := .stmt (.block ⟨s.nextId, t.loc⟩ [])) rfl rfl trivial
    exact .of_below h.expr (hk.piled hb hstmt) hscript houtput
  | @closeBlock node statements rest _ h _ hk =>
    rw [h.stubs] at hnext
    rw [h.stmts] at hb
    have hstmt := hnext.wraps (v := .stmt (.block node statements.reverse)) rfl rfl trivial
    exact .of_below h.expr (hk.piled hb.2 hstmt) hscript houtput
  | @closeSwitch node labels statements switch subject rest _ h _ hk =>
    obtain ⟨_, hw⟩ := noteSwitch_warned (s := { s with stmts := rest }) switch labels statements t
    rw [hw]
    rw [h.stubs] at hnext
    rw [h.stmts] at hb
    -- To be in order, a switch must be cut by its cases.
    obtain ⟨⟨hlabels, -⟩, -, hrest⟩ := hb
    have hcut := hlabels
    rw [← List.length_reverse] at hcut
    have hstmt := (Piled.takes hnext).wraps (v := .stmt (.switch switch subject node statements.reverse
      (closeGroups statements.length labels.groups))) rfl rfl ⟨_, _, List.length_reverse ▸ hcut.close⟩
    exact .of_below h.expr (hk.piled hrest hstmt) hscript houtput
  | @closeFunction node statements header h hm hd =>
    rw [h.stubs, hm] at hnext
    have hf := (Piled.takes hnext).wraps (v := .function (header.define (some ⟨node, statements.reverse⟩))) rfl rfl
      trivial
    exact defineFunction_sequenced (.of_below h.expr trivial hscript houtput) (hf.sequenced _ List.mem_cons_self) hd
  -- Declarations
  | pass h hp =>
    exact .of_mode h.expr (hnil h.mode) (hp.piled (hat h) (hlt (Token.isEof_of_isEdge hp.isEdge) (Nat.le_refl _)))
      hscript houtput
  | dots h hp _ htakes ht =>
    have hlt := hlt (Token.isEof_of_isEdge (Token.isEdge_of_spell ht (by simp)))
      (Nat.le_trans (Nat.le_add_right _ _) (Nat.le_of_eq htakes.cursor.symm))
    exact .of_mode h.expr (hnil h.mode) (piled_pending hp (hat h) hlt) hscript houtput
  | importScript h => exact .of_mode h.expr (hnil h.mode) trivial (addImport_sequenced hscript) houtput
  | declarative h | bareDirective h =>
    exact addDirective_sequenced (.of_mode h.expr (hnil h.mode) trivial hscript houtput) (sequenced_leaf trivial rfl)
  | @directive loc name args h =>
    have hargs := (hroot h).wraps (v := .directive ⟨⟨s.nextId, loc⟩, .withArgs name args⟩) rfl rfl trivial
    exact addDirective_sequenced (.of_mode h.expr (hnil h.mode) trivial hscript houtput)
      (hargs.sequenced _ List.mem_cons_self)
  | openArgs h | openConstant h => exact .of_fresh rfl (hnil h.mode) (hroot h) hscript houtput
  | globals h => exact .of_mode h.expr (hnil h.mode) trivial hscript houtput
  | openParams h => exact .of_mode h.expr (hnil h.mode) (hroot h) hscript houtput
  | openBody h _ ht =>
    have hnew := hopens h.expr (hlt (Token.isEof_of_isSymbol ht) (Nat.le_refl _))
    rw [below_root (hnil h.mode) h.mode] at hnew
    refine .of_below h.expr ?_ hscript houtput
    rw [below, hnil h.mode]
    exact hnew
  | @declare header h _ hn =>
    have hf := (hroot h).wraps (v := .function (header.define none)) rfl
      (by simp [View.parts, View.children, FunctionDef.statements, FunctionHeader.define]) trivial
    exact defineFunction_sequenced (.of_mode h.expr (hnil h.mode) trivial hscript houtput)
      (hf.sequenced _ List.mem_cons_self) (.inr hn)
  | scriptEnd h =>
    exact .of_mode h.expr (hnil h.mode) trivial (by simp [Graph.Sequenced, View.children])
      (by rintro _ ⟨⟩; exact hscript)
  | functionEnd h => exact .of_mode h.expr (hnil h.mode) trivial hscript houtput
  -- Lone expressions
  | expressionEnd _ hx hm => exact .of_mode hx (hs.stmts_nil (by simp [hm])) trivial hscript houtput

theorem Token.Placed.rising {loc : Location} {ts : List Token} {last : Token} (h : Placed loc (ts ++ [last]))
    (ht : ∀ t ∈ ts, t.text ≠ "") : (ts ++ [last]).Pairwise (fun t u => t.loc.offset < u.loc.offset) ∧
      ∀ t ∈ ts ++ [last], loc.offset ≤ t.loc.offset := by
  induction ts generalizing loc with
  | nil =>
    obtain ⟨rfl, -⟩ := h
    simp
  | cons t ts ih =>
    obtain ⟨rfl, hplaced⟩ := h
    obtain ⟨hne, hts⟩ := List.forall_mem_cons.1 ht
    obtain ⟨hrising, hle⟩ := ih hplaced hts
    have hlt : t.loc.offset < t.stop.offset := by
      have hpos : 0 < t.text.utf8ByteSize := Nat.pos_of_ne_zero fun h => hne (String.utf8ByteSize_eq_zero_iff.1 h)
      rw [Token.stop, Location.offset_after, String.ofList_toList]
      omega
    refine ⟨List.pairwise_cons.2 ⟨fun u hu => Nat.lt_of_lt_of_le hlt (hle u hu), hrising⟩, ?_⟩
    exact List.forall_mem_cons.2 ⟨Nat.le_refl _, fun u hu => Nat.le_trans (Nat.le_of_lt hlt) (hle u hu)⟩

namespace TokenStream

def Rising (s : TokenStream) : Prop :=
  s.tokens.toList.Pairwise fun t u => t.loc.offset < u.loc.offset

theorem rising_of_lex {source : String} {d : Dialect} {tokens : List Token} (h : lex source d = .ok tokens) :
    (ofList tokens).Rising := by
  obtain ⟨ts, loc, left, rfl, hread, hplaced⟩ := Lexer.reads_of_tokens (x := Lexer.ofText source d) rfl h
  simpa [Rising, ofList] using (hplaced.rising hread.text_ne).1

variable {s s' : TokenStream} {i j : Nat}

theorem Rising.le (h : s.Rising) (hij : i ≤ j) : (s.tokenAt i).loc.offset ≤ (s.tokenAt j).loc.offset := by
  have hpos := s.tokens_pos
  obtain heq | hlt : min i (s.tokens.size - 1) = min j (s.tokens.size - 1) ∨
      min i (s.tokens.size - 1) < min j (s.tokens.size - 1) := by omega
  · simp [tokenAt, heq]
  · have := List.pairwise_iff_getElem.1 h _ _ (by simp; omega) (by simp; omega) hlt
    simpa [tokenAt] using Nat.le_of_lt this

theorem Rising.read_lt (h : s.Rising) (hc : s.Closed) (ht : s.read.1.isEof = false) (hj : s.read.2.cursor ≤ j) :
    s.read.1.loc.offset < (s.tokenAt j).loc.offset := by
  have hlt := hc.cursor_lt ht
  rw [hc.cursor_read ht] at hj
  have hne : s.cursor ≠ s.size - 1 := by
    intro he
    have heof := hc.eof
    rw [tokenAt_size, ← he] at heof
    exact Bool.false_ne_true (ht.symm.trans heof)
  refine Nat.lt_of_lt_of_le ?_ (h.le hj)
  simp only [size] at hlt hne
  have hmin : min s.cursor (s.tokens.size - 1) = s.cursor ∧ min (s.cursor + 1) (s.tokens.size - 1) = s.cursor + 1 := by
    omega
  have := List.pairwise_iff_getElem.1 h s.cursor (s.cursor + 1) (by simpa using hlt) (by simp; omega)
    (Nat.lt_succ_self _)
  simpa [read, tokenAt, hmin] using this

end TokenStream

namespace Session

def place (s : Session) : Nat :=
  (s.stream.tokenAt s.stream.cursor).loc.offset

theorem Sequenced.mono {s : Session} {stop stop' : Nat} (h : s.Sequenced stop) (hle : stop ≤ stop') :
    s.Sequenced stop' :=
  ⟨h.stubs.mono hle, h.script, h.output⟩

theorem run_sequenced {tokens : List Token} {config : ParserConfig} (ht : (TokenStream.ofList tokens).Rising)
    (hf : (ofTokens tokens config).run.failed.size = 0) :
    ∀ g ∈ (ofTokens tokens config).run.output, g.Sequenced := by
  suffices h : (ofTokens tokens config).run.recovery = none ∧ (ofTokens tokens config).run.Built ∧
      (ofTokens tokens config).run.stream.Rising ∧
        (ofTokens tokens config).run.Sequenced (ofTokens tokens config).run.place from h.2.2.2.output
  refine steps_advances (P := fun s => s.Built ∧ s.stream.Rising ∧ s.Sequenced s.place) (sound_ofTokens tokens config)
    rfl ⟨built_ofTokens tokens config, ht, ?_, ?_, ?_⟩ ?_ ?_ _ hf
  · unfold ofTokens
    cases config.target <;> exact trivial
  · simp [ofTokens, Graph.Sequenced, View.children]
  · simp [ofTokens]
  · rintro s hs ⟨hb, hr, ho⟩ -
    refine ⟨hb.withStream _, hr, ?_⟩
    have hle : s.place ≤ Session.place { s with stream := s.stream.read.2 } := hr.le hs.closed.cursor_le_read
    exact ⟨(ho.mono hle).stubs, ho.script, ho.output⟩
  · rintro s s' hs hfin ⟨hb, hr, ho⟩ - hturn hadvance
    have hread := hb.withStream s.stream.read.2
    have hshaped := hs.read.shaped (halted_of_isFinished hfin)
    refine ⟨hturn.session_built hshaped (mode_of_isFinished hfin) hread, ?_, ?_⟩
    · rw [TokenStream.Rising, hturn.frame.tokens]
      exact hr
    · have hturned := cursor_le_turn hs.closed hturn
      have hplace (i : Nat) : s'.stream.tokenAt i = s.stream.tokenAt i :=
        TokenStream.tokenAt_of_tokens hturn.frame.tokens i
      refine hadvance.sequenced hshaped hread.stmts ⟨ho.stubs, ho.script, ho.output⟩ ?_ fun he hcursor => ?_
      · rw [place, hplace]
        exact hr.le hturned
      · rw [place, hplace]
        exact hr.read_lt hs.closed he hcursor

end Session

theorem Graph.Sequenced.of_mem {g : Graph} (h : g.Sequenced) {v : View} (hv : v ∈ g.view.walk)
    (hn : v.tag ≠ .script) : v.Sequenced := by
  cases g with
  | function | expression => exact View.Sequenced.of_mem h hv
  | script s =>
    rw [Graph.view, walk_eq, List.mem_cons, List.mem_flatMap] at hv
    obtain rfl | ⟨c, hc, hv⟩ := hv
    · exact (hn rfl).elim
    · exact View.Sequenced.of_mem (h c hc) hv

/-- Where a text is read without an error, no node but the root of a script begins behind one of its children. The
children stand in source order exactly if the node is no switch that has a value behind one of its statements, and so
do the nodes that a walk meets, exactly if no such switch is among them. -/
theorem parse_sourceOrder {source : String} {config : ParserConfig} {o : ParseOutput}
    (ho : parseSource source config = .ok o) (hs : o.isSuccess = true) :
    ∃ g, o.graph = some g ∧ ∀ v ∈ g.view.walk, v.tag ≠ .script →
      (∀ c ∈ v.children, v.loc.offset ≤ c.loc.offset) ∧
      ((v.children.Pairwise fun c d => c.loc.offset < d.loc.offset) ↔ v.hasLateLabel = false) ∧
      ((v.walk.Pairwise fun c d => c.loc.offset ≤ d.loc.offset) ↔ ∀ u ∈ v.walk, u.hasLateLabel = false) := by
  cases hl : lex source config.dialect with
  | error =>
    rw [parseSource, hl] at ho
    cases ho
  | ok tokens =>
    rw [parseSource, hl] at ho
    cases ho
    obtain ⟨g, hg, hout, -, -, hf⟩ := parse_finished hs
    refine ⟨g, hg, fun v hv hn => ?_⟩
    have hseq := (Session.run_sequenced (TokenStream.rising_of_lex hl) hf g hout).of_mem hv hn
    obtain ⟨hord, -⟩ := sequenced_iff.1 hseq
    refine ⟨fun c hc => ?_, hord.children_rising_iff, hseq.walk_rising_iff⟩
    exact hord.start c ((perm_parts hord.cut).mem_iff.2 hc)

theorem parse_sourceOrder_labels :
    let source := "f(a)\x7bswitch(a+1)\x7bcase 1:case 2:g(a);\x7d\x7d"
    ∃ o, parseSource source {} = .ok o ∧ o.isSuccess = true ∧
      ∃ g, o.graph = some g ∧ ∀ v ∈ g.view.walk, v.tag ≠ .script →
        (∀ c ∈ v.children, v.loc.offset ≤ c.loc.offset) ∧
        ((v.children.Pairwise fun c d => c.loc.offset < d.loc.offset) ↔ v.hasLateLabel = false) ∧
        ((v.walk.Pairwise fun c d => c.loc.offset ≤ d.loc.offset) ↔ ∀ u ∈ v.walk, u.hasLateLabel = false) := by
  intro source
  have hsome : ((parseSource source {}).toOption.map ParseOutput.isSuccess) = some true := by decide +kernel
  cases ho : parseSource source {} with
  | error e => simp [ho, Except.toOption] at hsome
  | ok o =>
    have hs : o.isSuccess = true := by simpa [ho, Except.toOption] using hsome
    exact ⟨o, rfl, hs, parse_sourceOrder ho hs⟩

theorem children_meet_late_label :
    let source := "f()\x7bswitch(a)\x7bcase 1:b();case 2:c();\x7d\x7d"
    ∃ o g, parseSource source {} = .ok o ∧ o.isSuccess = true ∧ o.graph = some g ∧
      ∃ v ∈ g.view.walk, v.tag = .switch ∧ v.children.map (fun c => c.loc.offset) = [11, 19, 30, 21, 32] ∧
        ¬ v.children.Pairwise fun c d => c.loc.offset < d.loc.offset := by
  intro source
  let place (n : Nat) : Location := ⟨1, n + 1, n⟩
  let tokens : List Token :=
    [⟨.identifier, "f", place 0⟩, ⟨.symbol, "(", place 1⟩, ⟨.symbol, ")", place 2⟩, ⟨.symbol, "\x7b", place 3⟩,
      ⟨.identifier, "switch", place 4⟩, ⟨.symbol, "(", place 10⟩, ⟨.identifier, "a", place 11⟩,
      ⟨.symbol, ")", place 12⟩, ⟨.symbol, "\x7b", place 13⟩, ⟨.identifier, "case", place 14⟩,
      ⟨.whitespace, " ", place 18⟩, ⟨.number, "1", place 19⟩, ⟨.symbol, ":", place 20⟩, ⟨.identifier, "b", place 21⟩,
      ⟨.symbol, "(", place 22⟩, ⟨.symbol, ")", place 23⟩, ⟨.symbol, ";", place 24⟩, ⟨.identifier, "case", place 25⟩,
      ⟨.whitespace, " ", place 29⟩, ⟨.number, "2", place 30⟩, ⟨.symbol, ":", place 31⟩, ⟨.identifier, "c", place 32⟩,
      ⟨.symbol, "(", place 33⟩, ⟨.symbol, ")", place 34⟩, ⟨.symbol, ";", place 35⟩, ⟨.symbol, "\x7d", place 36⟩,
      ⟨.symbol, "\x7d", place 37⟩, Token.endAt (place 38)]
  let call (id n : Nat) (name : String) : Expr :=
    .call ⟨id, place n⟩ none none ⟨⟨name, place n⟩, .unqualified⟩ []
  let label (id n value : Nat) (text : String) (first : Nat) : Case :=
    ⟨place n, first, [.value (.literal ⟨id, place value⟩ ⟨.integer, text, true⟩)], first, first + 1⟩
  let switch : Stmt := .switch ⟨2, place 4⟩ (.var ⟨3, place 11⟩ ⟨"a", place 11⟩) ⟨4, place 13⟩
    [.expr ⟨8, place 21⟩ (call 7 21 "b"), .expr ⟨12, place 32⟩ (call 11 32 "c")]
    [label 5 14 19 "1" 0, label 9 25 30 "2" 1]
  let g : Graph := .script { declarations :=
    [.function ⟨⟨0, place 0⟩, ⟨"f", place 0⟩, [], some ⟨⟨1, place 3⟩, [switch]⟩, false, 0⟩] }
  have hl : lex source {} = .ok tokens := by decide +kernel
  have hg : (parse tokens {}).graph = some g := by
    subst tokens g switch label call place
    rfl
  have hv : View.stmt switch ∈ g.view.walk := by
    simp [g, Graph.view, walk_eq (.script _), walk_eq (.function _), walk_eq (.stmt _), View.children, Declaration.view,
      FunctionDef.statements]
  have hc : (View.stmt switch).children.map (fun c => c.loc.offset) = [11, 19, 30, 21, 32] := rfl
  refine ⟨parse tokens {}, g, by rw [parseSource, hl]; rfl, by decide +kernel, hg, .stmt switch, hv, rfl, hc, ?_⟩
  intro hrising
  have hoffsets := List.pairwise_map.2 hrising
  rw [hc] at hoffsets
  exact absurd hoffsets (by decide)

end GameScript
