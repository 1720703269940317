import GameScript.Proofs.Bodies
import GameScript.Proofs.Declared
import GameScript.Proofs.Literals
import GameScript.Proofs.Parts
import Mathlib.Data.List.Flatten
import Mathlib.Data.List.Nodup

/-!
The numbers of the nodes. Whatever a session holds, in unfinished parts, in finished ones or in its output, carries
numbers that have been drawn, and no number is carried twice: a turn moves nodes or gives them up, and every node
that is new takes the next number. Numbers have no bound here; since all of them are below the next one, they stay apart
in 32 bits as long as a session draws no more than fit.
-/

namespace GameScript

def Stmt.ownIds : Stmt → List Nat
  | .switch node _ bodyNode _ _ => [node.id, bodyNode.id]
  | s => [s.id]

namespace View

/-- The numbers of the node itself. Parameters and scripts have none; the braces of a function have one of their
own. -/
def ownIds : View → List Nat
  | expr e => [e.id]
  | stmt s => s.ownIds
  | function f => f.node.id :: f.body.toList.map fun b => b.node.id
  | directive d => [d.node.id]
  | constant c => [c.node.id]
  | param _ | script _ => []

def ids (v : View) : List Nat :=
  v.walk.flatMap ownIds

def allIds (vs : List View) : List Nat :=
  vs.flatMap ids

theorem ids_eq (v : View) : v.ids = v.ownIds ++ allIds v.children := by
  rw [ids, walk_eq, List.flatMap_cons, List.flatMap_assoc]
  rfl

theorem ids_expr (e : Expr) : (expr e).ids = e.id :: allIds (e.children.map .expr) :=
  ids_eq _

theorem ids_stmt (s : Stmt) : (stmt s).ids = s.ownIds ++ allIds s.children :=
  ids_eq _

theorem ids_function (f : FunctionDef) : (function f).ids =
    f.node.id :: (f.body.toList.map fun b => b.node.id) ++ allIds (function f).children :=
  ids_eq _

theorem ids_directive (d : Directive) : (directive d).ids = d.node.id :: allIds (d.kind.args.map .expr) :=
  ids_eq _

theorem ids_constant (c : ConstantDecl) : (constant c).ids = [c.node.id] ++ allIds [.expr c.value] :=
  ids_eq _

theorem ids_script (s : Script) : (script s).ids = allIds (script s).children :=
  ids_eq _

@[simp] theorem allIds_nil : allIds [] = [] :=
  rfl

@[simp] theorem allIds_cons (v : View) (vs : List View) : allIds (v :: vs) = v.ids ++ allIds vs :=
  List.flatMap_cons

@[simp] theorem allIds_append (vs ws : List View) : allIds (vs ++ ws) = allIds vs ++ allIds ws :=
  List.flatMap_append

@[simp] theorem allIds_params (ps : List Param) : allIds (ps.map .param) = [] := by
  refine List.flatMap_eq_nil_iff.2 fun v hv => ?_
  obtain ⟨p, -, rfl⟩ := List.mem_map.1 hv
  rw [ids_eq]
  rfl

theorem count_allIds_perm {vs ws : List View} (h : vs.Perm ws) (i : Nat) : (allIds vs).count i = (allIds ws).count i :=
  (h.flatMap_right ids).count_eq i

end View

open View (allIds)

def Graph.ids (g : Graph) : List Nat :=
  g.view.ids

/-- How often a number has been drawn when `n` comes next: once if it is below. -/
def drawn (i n : Nat) : Nat :=
  (List.range n).count i

theorem drawn_succ (i n : Nat) : drawn i (n + 1) = drawn i n + if n = i then 1 else 0 := by
  simp [drawn, List.range_succ, List.count_cons]

theorem drawn_le (i : Nat) {n m : Nat} (h : n ≤ m) : drawn i n ≤ drawn i m :=
  (List.range_sublist.2 h).count_le i

namespace Held

def ids (h : Held) : List Nat :=
  allIds ((h.parts.flatMap Prod.snd ++ h.operand.toList).map .expr)

theorem Move.ids_drawn {h h' : Held} (hm : Move h h') (i : Nat) :
    h'.ids.count i + drawn i h.next ≤ h.ids.count i + drawn i h'.next := by
  have hexpr (e : Expr) : (View.expr e).ids.count i =
      (allIds (e.children.map .expr)).count i + if e.id = i then 1 else 0 := by
    rw [View.ids_expr, List.count_cons]
    simp
  cases hm with
  | leaf hc hi =>
    simp [ids, hexpr, hc, hi, drawn_succ]
    omega
  | closes hi =>
    simp [ids, hexpr, hi, drawn_succ]
    omega
  | loses hl =>
    have hcount := ((hl.map View.expr).flatMap View.ids).count_le i
    simp [ids, allIds] at hcount ⊢
    omega
  | opens | passes | drops => simp [ids]
  | holds | takes =>
    simp [ids]
    omega

theorem Moves.ids_drawn {h h' : Held} (hm : Moves h h') (i : Nat) :
    h'.ids.count i + drawn i h.next ≤ h.ids.count i + drawn i h'.next := by
  induction hm with
  | refl => exact Nat.le_refl _
  | tail _ hm ih =>
    have := hm.ids_drawn i
    omega

end Held

def PendingStmt.ownIds : PendingStmt → List Nat
  | block b => [b.node.id]
  | ifStmt node _ | whileLoop node _ | forLoop node _ | foreachLoop node _ | switch node _ | keywordCall node _
  | flow node _ _ => [node.id]
  | caseLabel _ | defaultLabel _ => []

def ExprState.ids (x : ExprState) : List Nat :=
  allIds ((x.stack.flatMap PendingExpr.parts ++ x.slot.toList).map .expr)

theorem ExprState.held_next (x : ExprState) (next : Nat) (token : Option Location) :
    (x.held next token).next = next :=
  rfl

theorem ExprState.held_ids (x : ExprState) (next : Nat) (token : Option Location) :
    (x.held next token).ids = x.ids := by
  simp [held, Held.ids, ids, List.flatMap_map]

def PendingStmt.ids (p : PendingStmt) : List Nat :=
  p.ownIds ++ allIds p.views

theorem PendingStmt.ownIds_supplied {top top' : PendingStmt} {e : Expr} (h : top.supplied? e = some top') :
    top'.ownIds = top.ownIds := by
  unfold supplied? at h
  split at h <;> cases h <;> rfl

theorem PendingStmt.ownIds_opened {top top' : PendingStmt} {context : Option ExprContext}
    (h : top.opened? = some (top', context)) : top'.ownIds = top.ownIds := by
  unfold opened? at h
  split at h <;> cases h <;> rfl

theorem PendingStmt.ownIds_begun {node : Node} {k : Keyword} {new : PendingStmt} (h : begun? node k = some new) :
    new.ownIds = [node.id] := by
  unfold begun? at h
  split at h <;> cases h <;> rfl

def Mode.ids (m : Mode) : List Nat :=
  (m.header?.toList.map fun h => h.node.id) ++ allIds m.views

namespace Mode

@[simp] theorem ids_idle : (root .idle).ids = [] :=
  rfl

@[simp] theorem ids_expressionEnd : expressionEnd.ids = [] :=
  rfl

@[simp] theorem ids_done : done.ids = [] :=
  rfl

end Mode

@[simp] theorem ExprState.ids_begun (context : ExprContext) : ExprState.ids { context := context } = [] :=
  rfl

@[simp] theorem Session.ids_fresh (context : ExprContext) : (Session.fresh context).ids = [] :=
  rfl

namespace Session

def ids (s : Session) : List Nat :=
  s.expr.toList.flatMap ExprState.ids ++ s.stmts.flatMap PendingStmt.ids ++ s.mode.ids ++ (View.script s.script).ids ++
    s.output.toList.flatMap Graph.ids

theorem complete?_ids (i : Nat) {top : PendingStmt} {stmt whole : Stmt} (h : top.complete? stmt = some whole) :
    (View.stmt whole).ids.count i = top.ids.count i + (View.stmt stmt).ids.count i := by
  unfold PendingStmt.complete? at h
  split at h <;> cases h <;>
  · simp [View.ids_stmt (.ifElse ..), View.ids_stmt (.whileLoop ..), View.ids_stmt (.forLoop ..),
      View.ids_stmt (.foreachLoop ..), Stmt.ownIds, Stmt.id, Stmt.node, Stmt.children, PendingStmt.ids,
      PendingStmt.ownIds, PendingStmt.views, List.count_cons]
    omega

theorem bind_ids (s : Session) (i : Nat) (stmts : List PendingStmt) (stmt : Stmt) :
    ((s.bind stmts stmt).stmts.flatMap PendingStmt.ids).count i ≤
      (stmts.flatMap PendingStmt.ids).count i + (View.stmt stmt).ids.count i := by
  induction stmts generalizing stmt with
  | nil => simp [bind]
  | cons top rest ih =>
    unfold bind
    split
    · next b =>
      obtain ⟨node, role, statements⟩ := b
      have hadd : (PendingStmt.block ⟨node, role, stmt :: statements⟩).ids.count i =
          (PendingStmt.block ⟨node, role, statements⟩).ids.count i + (View.stmt stmt).ids.count i := by
        cases role <;> simp [PendingStmt.ids, PendingStmt.ownIds, PendingStmt.views, List.count_cons] <;> omega
      simp only [addToBlock]
      split
      · split
        · rw [report_stmts]
          exact Nat.le_add_right _ _
        · simp [hadd]
          omega
      · simp [hadd]
        omega
    · simp [PendingStmt.ids, PendingStmt.ownIds, PendingStmt.views, List.count_cons]
      omega
    · split
      · split
        · next whole hw =>
          have := ih whole
          have := complete?_ids i hw
          simp
          omega
        · simp
          omega
      · exact Nat.le_add_right _ _

theorem count_ids (s : Session) (i : Nat) : s.ids.count i = (s.expr.toList.flatMap ExprState.ids).count i +
    (s.stmts.flatMap PendingStmt.ids).count i + s.mode.ids.count i + (View.script s.script).ids.count i +
      (s.output.toList.flatMap Graph.ids).count i := by
  simp only [ids, List.count_append]

theorem finishStmt_ids (s : Session) (i : Nat) (stmt : Stmt) : (s.finishStmt stmt).nextId = s.nextId ∧
    (s.finishStmt stmt).ids.count i ≤ s.ids.count i + (View.stmt stmt).ids.count i := by
  have hb := s.bind_ids i s.stmts stmt
  obtain ⟨_, _, _, _, he⟩ := s.finishStmt_eq stmt
  rw [← finishStmt, he] at hb
  rw [he]
  refine ⟨rfl, ?_⟩
  simp only [count_ids] at hb ⊢
  omega

theorem bindEmptyBody_ids (s : Session) (i : Nat) (loc : Location) : (s.bindEmptyBody loc).nextId = s.nextId + 1 ∧
    (s.bindEmptyBody loc).ids.count i ≤ s.ids.count i + if s.nextId = i then 1 else 0 := by
  obtain ⟨hn, hle⟩ := finishStmt_ids { s with nextId := s.nextId + 1 } i (.block ⟨s.nextId, loc⟩ [])
  refine ⟨hn, Nat.le_trans hle (Nat.le_of_eq ?_)⟩
  simp [count_ids, View.ids_stmt, Stmt.ownIds, Stmt.id, Stmt.node, Stmt.children, List.count_cons]

theorem caseValues_add (labels : SwitchLabels) (place : Nat) (label : CaseLabel) (value : Option Value)
    (loc : Location) : (caseValues (labels.add place label value loc).groups).Perm
      (label.expr?.toList ++ caseValues labels.groups) := by
  have hone : caseValues [⟨loc, place, [label], place, place⟩] = label.expr?.toList := by
    cases h : label.expr? <;> simp [caseValues, h]
  unfold SwitchLabels.add
  simp only
  split
  · next c earlier hc =>
    rw [hc]
    split
    · have hmore : [label].filterMap CaseLabel.expr? = label.expr?.toList := by
        cases h : label.expr? <;> simp [h]
      simp only [caseValues, List.flatMap_cons, List.filterMap_append, hmore]
      rw [← List.append_assoc]
      exact List.perm_append_comm.append_right _
    · rw [← hone]
      simp [caseValues]
  · next hn =>
    rw [hn, hone]
    simp [caseValues]

theorem caseValues_closeGroups (stop : Nat) (groups : List Case) :
    (caseValues (closeGroups stop groups)).Perm (caseValues groups) := by
  induction groups generalizing stop with
  | nil => exact .refl _
  | cons c earlier ih =>
    simp only [closeGroups, caseValues, List.flatMap_append, List.flatMap_cons, List.flatMap_nil, List.append_nil]
    exact List.perm_append_comm.trans ((ih _).append_left _)

theorem addLabel_ids (s : Session) (i : Nat) (label : CaseLabel) (value : Option Value) (loc : Location) :
    (s.addLabel label value loc).nextId = s.nextId ∧ (s.addLabel label value loc).ids.count i ≤
      s.ids.count i + (allIds (label.expr?.toList.map .expr)).count i := by
  have hstmts : ((s.addLabel label value loc).stmts.flatMap PendingStmt.ids).count i ≤
      (s.stmts.flatMap PendingStmt.ids).count i + (allIds (label.expr?.toList.map .expr)).count i := by
    unfold addLabel
    split
    · next node labels statements rest hs =>
      simp only
      split
      · rw [report_stmts]
        exact Nat.le_add_right _ _
      · have hperm := View.count_allIds_perm ((caseValues_add labels statements.length label value loc).map .expr) i
        rw [hs]
        simp [PendingStmt.ids, PendingStmt.ownIds, PendingStmt.views, List.count_cons] at hperm ⊢
        omega
    · exact Nat.le_add_right _ _
  obtain ⟨_, _, _, _, he⟩ := s.addLabel_eq label value loc
  rw [he] at hstmts ⊢
  refine ⟨rfl, ?_⟩
  simp only [count_ids] at hstmts ⊢
  omega

theorem ids_noteRead (lookup : String → Option Value) :
    ∀ e : Expr, (View.expr (Fold.noteRead lookup e)).ids = (View.expr e).ids
  | .group n inner => by
    rw [Fold.noteRead, View.ids_expr, View.ids_expr (.group n inner)]
    simp [Expr.children, Expr.id, Expr.node, ids_noteRead lookup inner]
  | .truple n x y z => by
    have hy (read : Prop) [Decidable read] :
        (View.expr (if read then Fold.noteRead lookup y else y)).ids = (View.expr y).ids := by
      split <;> simp [ids_noteRead lookup y]
    have hz (read : Prop) [Decidable read] :
        (View.expr (if read then Fold.noteRead lookup z else z)).ids = (View.expr z).ids := by
      split <;> simp [ids_noteRead lookup z]
    rw [Fold.noteRead, View.ids_expr, View.ids_expr (.truple n x y z)]
    simp [Expr.children, Expr.id, Expr.node, ids_noteRead lookup x, hy, hz]
  | .unary n op operand => by
    rw [Fold.noteRead, View.ids_expr, View.ids_expr (.unary n op operand)]
    simp [Expr.children, Expr.id, Expr.node, ids_noteRead lookup operand]
  | .binary n op left right => by
    have hright (read : Prop) [Decidable read] :
        (View.expr (if read then Fold.noteRead lookup right else right)).ids = (View.expr right).ids := by
      split <;> simp [ids_noteRead lookup right]
    rw [Fold.noteRead, View.ids_expr, View.ids_expr (.binary n op left right)]
    simp [Expr.children, Expr.id, Expr.node, ids_noteRead lookup left, hright]
  | .literal n l => by
    rw [Fold.noteRead, View.ids_expr, View.ids_expr (.literal n l)]
    rfl
  | .var .. | .func .. | .index .. | .member .. | .suffix .. | .array .. | .assign .. | .call ..
  | .pointerCall .. => rfl

theorem caseValue_ids (s : Session) (i : Nat) (e : Expr) (loc : Location) : (s.caseValue e loc).nextId = s.nextId ∧
    (s.caseValue e loc).ids.count i ≤ s.ids.count i + (View.expr e).ids.count i := by
  have hadd (b : Session) (value : Option Value) :=
    b.addLabel_ids i (.value (Fold.noteRead s.constants.lookup? e)) value loc
  simp only [CaseLabel.expr?, Option.toList_some, List.map_cons, List.map_nil, View.allIds_cons, View.allIds_nil,
    List.append_nil, ids_noteRead] at hadd
  unfold caseValue
  simp only
  split
  · exact hadd s _
  · rw [report_eq]
    exact hadd _ none

theorem addDeclaration_ids (s : Session) (i : Nat) (d : Declaration) :
    (s.addDeclaration d).ids.count i = s.ids.count i + d.view.ids.count i := by
  simp [count_ids, addDeclaration, View.ids_script, View.children]
  omega

theorem addDirective_ids (s : Session) (i : Nat) (loc : Location) (kind : DirectiveKind) :
    (s.addDirective loc kind).nextId = s.nextId + 1 ∧ (s.addDirective loc kind).ids.count i =
      s.ids.count i + (allIds (kind.args.map .expr)).count i + if s.nextId = i then 1 else 0 := by
  refine ⟨rfl, ?_⟩
  change ({ s with nextId := s.nextId + 1 }.addDeclaration (.directive ⟨⟨s.nextId, loc⟩, kind⟩)).ids.count i = _
  rw [addDeclaration_ids, Declaration.view, View.ids_directive]
  simp [count_ids, List.count_cons]
  omega

theorem addImport_ids (s : Session) (i : Nat) (loc : Location) (path : ModulePath) :
    (s.addImport loc path).nextId = s.nextId + 1 ∧
      (s.addImport loc path).ids.count i = s.ids.count i + if s.nextId = i then 1 else 0 := by
  refine ⟨rfl, ?_⟩
  simp [count_ids, addImport, withNode, View.ids_script, View.ids_directive, View.children, DirectiveKind.args,
    List.count_cons]
  omega

theorem defineFunction_ids (s : Session) (i : Nat) (f : FunctionDef) : (s.defineFunction f).nextId = s.nextId ∧
    (s.defineFunction f).ids.count i ≤ s.ids.count i + (View.function f).ids.count i := by
  unfold defineFunction
  split
  · refine ⟨rfl, ?_⟩
    simp [count_ids, Graph.ids, Graph.view]
  split
  · rw [report_eq]
    exact ⟨rfl, Nat.le_add_right _ _⟩
  · exact ⟨rfl, Nat.le_of_eq (s.addDeclaration_ids i (.function f))⟩

theorem addConstant_ids (s : Session) (i : Nat) (loc : Location) (name : Ident) (value : Expr) :
    (s.addConstant loc name value).ids.count i + drawn i s.nextId ≤
      s.ids.count i + (View.expr value).ids.count i + drawn i (s.addConstant loc name value).nextId := by
  have hadd (folded : Option Value) : (View.constant
      ⟨⟨s.nextId, loc⟩, name, Fold.noteRead s.constants.lookup? value, folded⟩).ids.count i =
        (View.expr value).ids.count i + if s.nextId = i then 1 else 0 := by
    simp [View.ids_constant, ids_noteRead, List.count_cons]
  unfold addConstant
  split
  · rw [report_eq]
    have : s.ids.count i ≤ s.ids.count i + (View.expr value).ids.count i := Nat.le_add_right _ _
    exact Nat.add_le_add_right this _
  · simp only [withNode]
    split
    · simp [count_ids, View.ids_script, View.children, hadd, drawn_succ]
      omega
    · rw [report_eq]
      simp [count_ids, View.ids_script, View.children, hadd, drawn_succ]
      omega

theorem enterRecovery_ids (s : Session) (i : Nat) : s.enterRecovery.nextId = s.nextId ∧
    s.enterRecovery.ids.count i ≤ s.ids.count i := by
  have hstmts : ((s.stmts.dropWhile PendingStmt.inHeader).flatMap PendingStmt.ids).count i ≤
      (s.stmts.flatMap PendingStmt.ids).count i :=
    ((List.dropWhile_suffix _).sublist.flatMap PendingStmt.ids).count_le i
  unfold enterRecovery
  simp only [clearExpr]
  split <;> refine ⟨rfl, ?_⟩ <;> simp [count_ids] <;> omega

theorem resync_ids (s : Session) (t : Token) (i : Nat) : (s.resync t).nextId = s.nextId ∧
    (s.resync t).ids.count i ≤ s.ids.count i := by
  unfold resync
  simp only
  split
  · next r _ =>
    obtain ⟨_, _, -, he⟩ := s.enterRecovery.recoverToken_eq r t
    rw [he]
    exact s.enterRecovery_ids i
  · exact s.enterRecovery_ids i

end Session

section

variable {s s' : Session} {t : Token} {x : ExprState}

theorem Session.Reading.ids (hx : s.Reading t x) (i : Nat) :
    x.ids.count i ≤ (s.expr.toList.flatMap ExprState.ids).count i := by
  cases hx with
  | further _ hx => simp [hx]
  | statement | whole => exact Nat.zero_le _

theorem Ends.ids {completed : Completed} (hx : s.Reading t x) (he : Ends s x s' completed) (i : Nat) :
    (allIds (completed.value?.toList.map .expr)).count i + drawn i s.nextId ≤
      (s.expr.toList.flatMap ExprState.ids).count i + drawn i s'.nextId := by
  cases hc : completed.isFailed with
  | true =>
    cases completed <;> cases hc
    obtain ⟨_, _, _, _, _, -, hi, rfl⟩ := he.same
    have := drawn_le i hi
    simp [Completed.value?]
    omega
  | false =>
    have hdrawn := (he.moves hc).ids_drawn i
    have := hx.ids i
    rw [x.held_ids] at hdrawn
    simp [Held.ids, ExprState.held] at hdrawn ⊢
    omega

theorem Supplies.ids {e : Expr} (hx : s.Reading t x) (he : Supplies s x s' e) (i : Nat) :
    (View.expr e).ids.count i + drawn i s.nextId ≤
      (s.expr.toList.flatMap ExprState.ids).count i + drawn i s'.nextId := by
  cases he with
  | given he => simpa [Completed.value?] using he.ids hx i
  | missing _ hi hf =>
    obtain ⟨⟨_, _, _, rfl⟩, -⟩ := hf
    have := drawn_le i hi
    simp [Session.placeholder, View.ids_expr, Expr.children, Expr.id, Expr.node, List.count_cons, drawn_succ]
    omega

end

theorem Passes.ids {s : Session} {t : Token} {phase phase' : RootPhase} (h : Passes s t phase phase') :
    (Mode.root phase').ids = (Mode.root phase).ids := by
  cases h <;> rfl

theorem Turn.ids {s s' : Session} {t : Token} (h : Turn s t s') (i : Nat) :
    s'.ids.count i + drawn i s.nextId ≤ s.ids.count i + drawn i s'.nextId := by
  have hstarted (y : ExprState) : ExprState.ids { y with started := true } = y.ids := rfl
  -- What a turn gives up only lowers the left side, so that each case accounts for what it keeps and what it draws.
  cases h with
  | @skip r hr =>
    obtain ⟨_, _, -, he⟩ := s.recoverToken_eq r t
    rw [he]
    exact Nat.le_refl _
  -- Expressions
  | shift hx _ h =>
    -- The numbers of a shift are those of the row of moves that it is.
    have hm := h.moves.ids_drawn i
    have := hx.ids i
    simp only [ExprState.held_ids, ExprState.held_next] at hm
    simp [Session.count_ids, hstarted]
    omega
  | @truncate _ x y id hx h hf =>
    obtain ⟨⟨_, _, _, rfl⟩, -⟩ := hf
    have hm : Held.Moves (x.held s.nextId none) (y.held (id + 1) none) := h.moves
    have hdrawn := hm.ids_drawn i
    have := hx.ids i
    simp only [ExprState.held_ids, ExprState.held_next] at hdrawn
    simp [Session.count_ids, hstarted]
    omega
  | halt _ _ hi hf | dropStmt _ _ _ hi hf =>
    obtain ⟨⟨_, _, _, rfl⟩, -⟩ := hf
    have := drawn_le i hi
    simp [Session.count_ids]
    omega
  | @reject b _ id _ _ hi hf =>
    obtain ⟨hn, hle⟩ := b.resync_ids t i
    obtain ⟨⟨_, _, _, rfl⟩, -⟩ := hf
    have := drawn_le i hi
    rw [hn]
    simp [Session.count_ids] at hle ⊢
    omega
  -- Ends of expressions
  | @exprStmt b _ e hx _ _ he =>
    obtain ⟨hn, hle⟩ := Session.finishStmt_ids { b with nextId := b.nextId + 1 } i (.expr ⟨b.nextId, e.loc⟩ e)
    have hv := he.ids hx i
    obtain ⟨_, _, _, _, _, -, -, rfl⟩ := he.same
    rw [hn]
    simp [Session.count_ids, View.ids_stmt, Stmt.ownIds, Stmt.id, Stmt.node, Stmt.children, List.count_cons,
      Completed.value?, drawn_succ] at hle hv ⊢
    omega
  | supply hx hst _ _ he hp =>
    have hv := he.ids hx i
    obtain ⟨_, _, _, _, _, -, -, rfl⟩ := he.same
    simp [Session.count_ids, hst, PendingStmt.ids, PendingStmt.ownIds_supplied hp,
      PendingStmt.views_supplied hp] at hv ⊢
    omega
  | @clause b _ completed node clause first condition rest hx hst _ he =>
    have hv := he.ids hx i
    obtain ⟨_, _, _, _, _, -, -, rfl⟩ := he.same
    cases clause <;>
      simp [Session.count_ids, hst, PendingStmt.ids, PendingStmt.ownIds, PendingStmt.views, Session.nextForPhase,
        ForClause.next?, List.count_cons] at hv ⊢ <;> omega
  | @keywordCall b _ completed node keyword rest hx hst _ he =>
    obtain ⟨hn, hle⟩ := Session.finishStmt_ids { b with stmts := rest } i (.keywordCall node keyword completed.value?)
    have hv := he.ids hx i
    obtain ⟨_, _, _, _, _, -, -, rfl⟩ := he.same
    rw [hn]
    simp [Session.count_ids, hst, PendingStmt.ids, PendingStmt.ownIds, PendingStmt.views, View.ids_stmt, Stmt.ownIds,
      Stmt.id, Stmt.node, Stmt.children, List.count_cons] at hle hv ⊢
    omega
  | @caseValue b _ e loc rest hx hst _ he =>
    obtain ⟨hn, hle⟩ := Session.caseValue_ids { b with stmts := rest } i e loc
    have hv := he.ids hx i
    obtain ⟨_, _, _, _, _, -, -, rfl⟩ := he.same
    rw [hn]
    simp [Session.count_ids, hst, Completed.value?] at hle hv ⊢
    omega
  | dropHeader _ hst _ _ _ hi hf =>
    obtain ⟨⟨_, _, _, rfl⟩, -⟩ := hf
    have := drawn_le i hi
    simp [Session.count_ids, hst]
    omega
  | @constant b _ e loc name hx hm he =>
    have hle := (b.inRoot .idle).addConstant_ids i loc name e
    have hv := he.ids hx i
    obtain ⟨_, _, _, _, _, -, -, rfl⟩ := he.same
    simp [Session.count_ids, Session.inRoot, Completed.value?] at hle hv ⊢
    omega
  | dropConstant _ hm _ hi hf =>
    obtain ⟨⟨_, _, _, rfl⟩, -⟩ := hf
    have := drawn_le i hi
    simp [Session.count_ids]
    omega
  | nextArg hx hm he =>
    have hv := he.ids hx i
    obtain ⟨_, _, _, _, _, -, -, rfl⟩ := he.same
    simp [Session.count_ids, Session.inRoot, Session.beginExpr, hm, Mode.ids, Mode.header?, RootPhase.header?,
      Mode.views, Completed.value?] at hv ⊢
    omega
  | closeArgs hx hm he =>
    have hv := he.ids hx i
    obtain ⟨_, _, _, _, _, -, -, rfl⟩ := he.same
    simp [Session.count_ids, Session.inRoot, hm, Mode.ids, Mode.header?, RootPhase.header?, Mode.views] at hv ⊢
    omega
  | whole hx _ hm he =>
    have hv := he.ids hx i
    obtain ⟨_, _, _, _, _, -, -, rfl⟩ := he.same
    have hmode : (if t.isSymbol ';' = true then Mode.expressionEnd else .done).ids = [] := by
      split <;> rfl
    simp [Session.count_ids, hmode, Graph.ids, Graph.view, Completed.value?] at hv ⊢
    omega
  | @spoilWhole _ _ completed _ _ hx _ hm he _ hi hf =>
    obtain ⟨b, he, rfl⟩ := he
    have hv := he.ids hx i
    obtain ⟨⟨_, _, _, rfl⟩, -⟩ := hf
    have hmode : (if t.isSymbol ';' = true then Mode.expressionEnd else .done).ids = [] := by
      split <;> rfl
    -- Either the expression is put out, or what was there stays.
    have hout : (((completed.value?.map .expression).or s.output).toList.flatMap Graph.ids).count i ≤
        (allIds (completed.value?.toList.map .expr)).count i + (s.output.toList.flatMap Graph.ids).count i := by
      cases completed.value? <;> simp [Graph.ids, Graph.view]
    simp [Session.count_ids, hmode]
    omega
  -- Headers
  | @openHeader _ _ context _ h ho =>
    cases context <;>
      simp [Session.count_ids, h.stmts, PendingStmt.ids, PendingStmt.ownIds_opened ho, PendingStmt.views_opened ho] <;>
      omega
  | @iterator node _ names' name _ h =>
    have hst := s.iteratorName_stmts node names' name
    obtain ⟨_, _, _, _, he⟩ := s.iteratorName_eq node names' name
    rw [he] at hst ⊢
    simp only at hst
    simp [Session.count_ids, hst, h.stmts, PendingStmt.ids, PendingStmt.ownIds, PendingStmt.views]
  | nextIterator h | iterators h | elseBranch h =>
    simp [Session.count_ids, h.stmts, PendingStmt.ids, PendingStmt.ownIds, PendingStmt.views]
  | openSwitch h =>
    simp [Session.count_ids, PendingStmt.ids, PendingStmt.ownIds, PendingStmt.views, caseValues, List.count_cons,
      drawn_succ]
    omega
  | @flow node kind target rest h =>
    obtain ⟨hn, hle⟩ := Session.finishStmt_ids { s with stmts := rest } i (.flow node kind target)
    rw [hn]
    simp [Session.count_ids, h.stmts, PendingStmt.ids, PendingStmt.ownIds, PendingStmt.views, View.ids_stmt,
      Stmt.ownIds, Stmt.id, Stmt.node, Stmt.children, List.count_cons] at hle ⊢
    omega
  | @defaultLabel loc rest h =>
    obtain ⟨hn, hle⟩ := Session.addLabel_ids { s with stmts := rest } i (.default loc) none loc
    rw [hn]
    simp [Session.count_ids, h.stmts, CaseLabel.expr?] at hle ⊢
    omega
  | @noElse node condition thenBranch rest h =>
    obtain ⟨hn, hle⟩ := Session.finishStmt_ids { s with stmts := rest } i (.ifThen node condition thenBranch)
    simp [Session.count_ids, Session.defer, hn, h.stmts, PendingStmt.ids, PendingStmt.ownIds, PendingStmt.views,
      View.ids_stmt, Stmt.ownIds, Stmt.id, Stmt.node, Stmt.children, List.count_cons] at hle ⊢
    omega
  -- Statements
  | openBlock h | openCall h | openFlow h =>
    simp [Session.count_ids, PendingStmt.ids, PendingStmt.ownIds, PendingStmt.views, List.count_cons, drawn_succ]
    omega
  | openCase | openDefault =>
    simp [Session.count_ids, PendingStmt.ids, PendingStmt.ownIds, PendingStmt.views]
  | openStmt h _ hn =>
    simp [Session.count_ids, PendingStmt.ids, PendingStmt.ownIds_begun hn, PendingStmt.views_begun hn, List.count_cons,
      drawn_succ]
    omega
  | @misplace b _ _ _ hf =>
    obtain ⟨hn, hle⟩ := b.enterRecovery_ids i
    obtain ⟨⟨_, _, _, rfl⟩, -⟩ := hf
    rw [hn]
    simp [Session.count_ids] at hle ⊢
    omega
  | straySemicolon | rootSemicolon =>
    rw [Session.report_eq]
    exact Nat.le_refl _
  | emptyBody =>
    obtain ⟨hn, hle⟩ := (s.report .straySemicolon t.loc).bindEmptyBody_ids i t.loc
    rw [hn]
    rw [Session.report_eq] at hle ⊢
    simp [Session.count_ids, drawn_succ] at hle ⊢
    omega
  | @missBody b _ _ _ _ _ hf =>
    obtain ⟨hn, hle⟩ := b.bindEmptyBody_ids i t.loc
    obtain ⟨⟨_, _, _, rfl⟩, -⟩ := hf
    simp [Session.count_ids, Session.defer, hn, drawn_succ] at hle ⊢
    omega
  | @closeBlock node statements rest h =>
    obtain ⟨hn, hle⟩ := Session.finishStmt_ids { s with stmts := rest } i (.block node statements.reverse)
    -- The body was held with its latest statement first.
    have hperm := View.count_allIds_perm (statements.reverse_perm.map .stmt) i
    simp [Session.count_ids, hn, h.stmts, PendingStmt.ids, PendingStmt.ownIds, PendingStmt.views,
      View.ids_stmt, Stmt.ownIds, Stmt.id, Stmt.node, Stmt.children, List.count_cons] at hle hperm ⊢
    omega
  | @closeSwitch node labels statements switch subject rest h =>
    obtain ⟨hn, hle⟩ := Session.finishStmt_ids ({ s with stmts := rest }.noteSwitch switch labels statements t) i
      (.switch switch subject node statements.reverse (closeGroups statements.length labels.groups))
    have hperm := View.count_allIds_perm (statements.reverse_perm.map .stmt) i
    -- The values of the labels move from the open body into the cases.
    have hcases := View.count_allIds_perm ((Session.caseValues_closeGroups statements.length labels.groups).map .expr) i
    obtain ⟨_, _, _, he⟩ := Session.noteSwitch_eq { s with stmts := rest } switch labels statements t
    rw [hn]
    rw [he] at hle ⊢
    simp [Session.count_ids, h.stmts, PendingStmt.ids, PendingStmt.ownIds, PendingStmt.views,
      View.ids_stmt, Stmt.ownIds, Stmt.children, List.count_cons] at hle hperm hcases ⊢
    omega
  | @closeFunction node statements header h hm =>
    obtain ⟨hn, hle⟩ := Session.defineFunction_ids { s with stmts := [], mode := .root .idle } i
      (header.define (some ⟨node, statements.reverse⟩))
    have hperm := View.count_allIds_perm (statements.reverse_perm.map .stmt) i
    have hmode : s.mode.ids = [header.node.id] := by
      rw [hm]
      rfl
    rw [hn]
    simp [Session.count_ids, h.stmts, hmode, PendingStmt.ids, PendingStmt.ownIds, PendingStmt.views,
      View.ids_function, FunctionHeader.define, FunctionDef.statements, View.children, List.count_cons] at hle hperm ⊢
    omega
  | unbalanced _ _ hf =>
    obtain ⟨⟨_, _, _, rfl⟩, -⟩ := hf
    exact Nat.le_refl _
  -- Declarations
  | pass h hp =>
    simp [Session.count_ids, Session.inRoot, hp.ids, h.mode]
  | @spoil b _ phase phase' h _ hf hp _ hh =>
    obtain ⟨⟨_, _, _, rfl⟩, -⟩ := hf
    -- What is left of a signature has its number.
    have hmode : (Mode.root phase').ids.count i ≤ s.mode.ids.count i := by
      obtain rfl | ⟨header, header', hheader, hheader', hnode⟩ := hh
      · exact Nat.zero_le _
      · simp [h.mode, Mode.ids, Mode.header?, hheader, hheader', hnode, Mode.views_of_isBare hp, List.count_cons]
    simp [Session.count_ids, Session.inRoot]
    omega
  | dots h =>
    simp [Session.count_ids, h.mode, Mode.ids, Mode.header?, RootPhase.header?, Mode.views]
  | @importScript loc segments h =>
    obtain ⟨hn, hids⟩ := (s.inRoot .idle).addImport_ids i loc segments
    rw [hn, hids, drawn_succ]
    simp [Session.count_ids, Session.inRoot]
    omega
  | @declarative loc name h =>
    obtain ⟨hn, hids⟩ := Session.addDirective_ids
      { s with mode := .root .idle, script := { s.script with declarative := true } } i loc (.bare name)
    rw [hn, hids, drawn_succ]
    simp [Session.count_ids, DirectiveKind.args, View.ids_script, View.children]
    omega
  | @bareDirective loc name h =>
    obtain ⟨hn, hids⟩ := (s.inRoot .idle).addDirective_ids i loc (.bare name)
    rw [hn, hids, drawn_succ]
    simp [Session.count_ids, Session.inRoot, DirectiveKind.args]
    omega
  | @directive loc name args h =>
    obtain ⟨hn, hids⟩ := (s.inRoot .idle).addDirective_ids i loc (.withArgs name args)
    have hmode : s.mode.ids = allIds (args.map .expr) := by
      rw [h.mode]
      rfl
    rw [hn, hids, drawn_succ]
    simp [Session.count_ids, Session.inRoot, DirectiveKind.args, hmode]
    omega
  | openArgs h | openConstant h =>
    simp [Session.count_ids, Session.inRoot, Session.beginExpr, h.mode, Mode.ids, Mode.header?, RootPhase.header?,
      Mode.views]
  | globals h =>
    simp [Session.count_ids, h.mode, View.ids_script, View.children]
  | openParams h =>
    simp [Session.count_ids, h.mode, Mode.ids, Mode.header?, RootPhase.header?, Mode.views, List.count_cons, drawn_succ]
    omega
  | openBody h =>
    simp [Session.count_ids, h.mode, Mode.ids, Mode.header?, RootPhase.header?, Mode.views, PendingStmt.ids,
      PendingStmt.ownIds, PendingStmt.views, List.count_cons, drawn_succ]
    omega
  | @declare header h =>
    obtain ⟨hn, hle⟩ := Session.defineFunction_ids (s.inRoot .idle) i (header.define none)
    have hmode : s.mode.ids = [header.node.id] := by
      rw [h.mode]
      rfl
    rw [hn]
    simp [Session.count_ids, Session.inRoot, hmode, View.ids_function, FunctionHeader.define,
      FunctionDef.statements, View.children, List.count_cons] at hle ⊢
    omega
  | scriptEnd h _ hf =>
    obtain ⟨-, rfl⟩ | ⟨⟨_, _, _, rfl⟩, -⟩ := hf <;>
      simp [Session.count_ids, Graph.ids, Graph.view, View.ids_script, View.children] <;> omega
  | functionEnd _ _ hf =>
    obtain ⟨-, rfl, -⟩ | ⟨⟨_, _, _, rfl⟩, -⟩ := hf <;> simp [Session.count_ids]
  -- Lone expressions
  | noExpression _ _ hm hf =>
    obtain ⟨⟨_, _, _, rfl⟩, -⟩ := hf
    simp [Session.count_ids]
  | expressionEnd _ _ hm hf =>
    obtain ⟨rfl, -⟩ | ⟨⟨_, _, _, rfl⟩, -⟩ := hf <;> simp [Session.count_ids]

namespace Session

theorem run_ids (tokens : List Token) (config : ParserConfig) (i : Nat) :
    (ofTokens tokens config).run.ids.count i ≤ drawn i (ofTokens tokens config).run.nextId := by
  refine run_induction (P := fun s => s.ids.count i ≤ drawn i s.nextId) (sound_ofTokens tokens config) ?_ ?_ ?_
  · have hmode : (ofTokens tokens config).mode.ids = [] := by
      unfold ofTokens
      cases config.target <;> rfl
    have hscript : (View.script (ofTokens tokens config).script).ids = [] := by
      rw [View.ids_script]
      rfl
    rw [count_ids, hmode, hscript]
    exact Nat.zero_le _
  · exact fun s _ h _ => h
  · intro s s' _ _ h _ hturn
    have hids := hturn.ids i
    have hsame : Session.ids { s with stream := s.stream.read.2 } = s.ids := rfl
    rw [hsame] at hids
    simp only at hids
    omega

end Session

/-- No two nodes of a graph have the same number, and none has a number that has not been drawn. -/
theorem parse_ids_nodup {tokens : List Token} {config : ParserConfig} {g : Graph}
    (h : (parse tokens config).graph = some g) :
    g.ids.Nodup ∧ ∀ i ∈ g.ids, i < (Session.ofTokens tokens config).run.nextId := by
  have hg (i : Nat) : g.ids.count i ≤ drawn i (Session.ofTokens tokens config).run.nextId := by
    have hrun := Session.run_ids tokens config i
    rw [Session.count_ids, Session.finish_graph h] at hrun
    simp at hrun
    omega
  constructor
  · exact List.nodup_iff_count_le_one.2 fun i =>
      Nat.le_trans (hg i) (List.nodup_iff_count_le_one.1 List.nodup_range i)
  · intro i hi
    have hpos := List.count_pos_iff.2 hi
    exact List.mem_range.1 (List.count_pos_iff.1 (Nat.lt_of_lt_of_le hpos (hg i)))

theorem parse_ids_nodup_switch :
    let place (n : Nat) : Location := ⟨1, n + 1, n⟩
    let tokens : List Token :=
      [⟨.identifier, "f", place 0⟩, ⟨.symbol, "(", place 1⟩, ⟨.symbol, ")", place 2⟩, ⟨.symbol, "\x7b", place 3⟩,
        ⟨.identifier, "switch", place 4⟩, ⟨.symbol, "(", place 5⟩, ⟨.identifier, "a", place 6⟩, ⟨.symbol, ")", place 7⟩,
        ⟨.symbol, "\x7b", place 8⟩, ⟨.identifier, "case", place 9⟩, ⟨.number, "1", place 10⟩, ⟨.symbol, ":", place 11⟩,
        ⟨.identifier, "g", place 12⟩, ⟨.symbol, "(", place 13⟩, ⟨.symbol, ")", place 14⟩, ⟨.symbol, ";", place 15⟩,
        ⟨.symbol, "\x7d", place 16⟩, ⟨.symbol, "\x7d", place 17⟩, Token.endAt (place 18)]
    let call : Expr := .call ⟨7, place 12⟩ none none ⟨⟨"g", place 12⟩, .unqualified⟩ []
    let switch : Stmt := .switch ⟨2, place 4⟩ (.var ⟨3, place 6⟩ ⟨"a", place 6⟩) ⟨4, place 8⟩ [.expr ⟨8, place 12⟩ call]
      [⟨place 9, 0, [.value (.literal ⟨5, place 10⟩ ⟨.integer, "1", true⟩)], 0, 1⟩]
    let g : Graph := .script { declarations :=
      [.function ⟨⟨0, place 0⟩, ⟨"f", place 0⟩, [], some ⟨⟨1, place 3⟩, [switch]⟩, false, 0⟩] }
    (parse tokens {}).graph = some g ∧ g.ids = [0, 1, 2, 4, 3, 5, 8, 7] ∧ g.ids.Nodup ∧ ∀ i ∈ g.ids, i < 9 := by
  intro place tokens call switch g
  have hg : (parse tokens {}).graph = some g := by
    subst tokens g switch call place
    rfl
  have hnext : (Session.ofTokens tokens {}).run.nextId = 9 := by
    subst tokens place
    rfl
  have hids : g.ids = [0, 1, 2, 4, 3, 5, 8, 7] := by
    simp [g, switch, call, Graph.ids, Graph.view, View.ids_eq, View.ownIds, Stmt.ownIds, View.children, Stmt.children,
      Expr.children, Expr.id, Expr.node, Stmt.id, Stmt.node, FunctionDef.statements, caseValues, CaseLabel.expr?,
      Declaration.view]
  obtain ⟨hnodup, hdrawn⟩ := parse_ids_nodup hg
  exact ⟨hg, hids, hnodup, hnext ▸ hdrawn⟩

end GameScript
