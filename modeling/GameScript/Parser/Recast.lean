import GameScript.Parser.Session
import GameScript.Tree.Recast

namespace GameScript

namespace Recast

variable (r : Recast)

def token (t : Token) : Token :=
  ⟨t.kind, if t.kind = .identifier then r.word t.text else t.text, r.loc t.loc⟩

def lead (l : CallLead) : CallLead :=
  ⟨r.expr? l.receiver, l.modifier⟩

def callee : Callee → Callee
  | .function target => .function (r.target target)
  | .pointer e => .pointer (r.expr e)

def pendingExpr : PendingExpr → PendingExpr
  | .group loc items => .group (r.loc loc) (r.exprs items)
  | .call loc l callee args => .call (r.loc loc) (r.lead l) (r.callee callee) (r.exprs args)
  | .lead loc l => .lead (r.loc loc) (r.lead l)
  | .pointerOpen loc l => .pointerOpen (r.loc loc) (r.lead l)
  | .pointerReady loc l pointer => .pointerReady (r.loc loc) (r.lead l) (r.expr pointer)
  | .index target => .index (r.expr target)
  | .array loc items => .array (r.loc loc) (r.exprs items)
  | .binary op left => .binary op (r.expr left)
  | .unary loc op => .unary (r.loc loc) op
  | .assign op target => .assign op (r.expr target)
  | .member target => .member (r.expr target)
  | .path loc segments awaiting => .path (r.loc loc) (r.path segments) awaiting
  | .qualified loc qualifier => .qualified (r.loc loc) (r.qualifier qualifier)

def exprState (x : ExprState) : ExprState :=
  { x with stack := x.stack.map r.pendingExpr, slot := r.expr? x.slot }

def completed : Completed → Completed
  | .value e => .value (r.expr e)
  | .empty => .empty
  | .failed => .failed

def labels (l : SwitchLabels) : SwitchLabels :=
  { l with groups := l.groups.map r.switchCase }

def role : BlockRole → BlockRole
  | .functionBody => .functionBody
  | .nested => .nested
  | .switchBody l => .switchBody (r.labels l)

def pendingBlock (b : PendingBlock) : PendingBlock :=
  ⟨r.node b.node, r.role b.role, r.stmts b.statements⟩

def ifPhase : IfPhase → IfPhase
  | .start => .start
  | .condition => .condition
  | .thenBranch condition => .thenBranch (r.expr condition)
  | .awaitElse condition thenBranch => .awaitElse (r.expr condition) (r.stmt thenBranch)
  | .elseBranch condition thenBranch => .elseBranch (r.expr condition) (r.stmt thenBranch)

def headerPhase : HeaderPhase → HeaderPhase
  | .start => .start
  | .condition => .condition
  | .body e => .body (r.expr e)

def forPhase : ForPhase → ForPhase
  | .start => .start
  | .clause clause first condition => .clause clause (r.expr? first) (r.expr? condition)
  | .body first condition step => .body (r.expr? first) (r.expr? condition) (r.expr? step)

def iteratorNames : IteratorNames → IteratorNames
  | .none => .none
  | .one name => .one (r.ident name)
  | .oneMore name => .oneMore (r.ident name)
  | .two key value => .two (r.ident key) (r.ident value)

def foreachPhase : ForeachPhase → ForeachPhase
  | .start => .start
  | .names names => .names (r.iteratorNames names)
  | .collection key value => .collection (key.map r.ident) (r.ident value)
  | .body key value collection => .body (key.map r.ident) (r.ident value) (r.expr collection)

def pendingStmt : PendingStmt → PendingStmt
  | .block b => .block (r.pendingBlock b)
  | .ifStmt node phase => .ifStmt (r.node node) (r.ifPhase phase)
  | .whileLoop node phase => .whileLoop (r.node node) (r.headerPhase phase)
  | .forLoop node phase => .forLoop (r.node node) (r.forPhase phase)
  | .foreachLoop node phase => .foreachLoop (r.node node) (r.foreachPhase phase)
  | .switch node phase => .switch (r.node node) (r.headerPhase phase)
  | .keywordCall node keyword => .keywordCall (r.node node) keyword
  | .flow node kind target => .flow (r.node node) kind (r.flowTarget target)
  | .caseLabel loc => .caseLabel (r.loc loc)
  | .defaultLabel loc => .defaultLabel (r.loc loc)

def header (h : FunctionHeader) : FunctionHeader :=
  ⟨r.node h.node, r.ident h.name, h.params.map r.param⟩

def pendingParam (p : PendingParam) : PendingParam :=
  p.map fun m => (r.loc m.1, m.2)

def rootPhase : RootPhase → RootPhase
  | .idle => .idle
  | .directiveName loc => .directiveName (r.loc loc)
  | .importPath loc segments awaiting => .importPath (r.loc loc) (r.path segments) awaiting
  | .directiveHead loc name => .directiveHead (r.loc loc) (r.ident name)
  | .directiveArgs loc name args => .directiveArgs (r.loc loc) (r.ident name) (r.exprs args)
  | .directiveEnd loc name args => .directiveEnd (r.loc loc) (r.ident name) (r.exprs args)
  | .constName loc => .constName (r.loc loc)
  | .constEquals loc name => .constEquals (r.loc loc) (r.ident name)
  | .constValue loc name => .constValue (r.loc loc) (r.ident name)
  | .globals names awaiting => .globals (names.map r.ident) awaiting
  | .functionOpen name => .functionOpen (r.ident name)
  | .param h pending => .param (r.header h) (r.pendingParam pending)
  | .paramEnd h => .paramEnd (r.header h)
  | .functionEnd h => .functionEnd (r.header h)

def mode : Mode → Mode
  | .root phase => .root (r.rootPhase phase)
  | .body h => .body (r.header h)
  | .expression => .expression
  | .expressionEnd => .expressionEnd
  | .done => .done

def problem : Problem → Problem
  | .redundantBreak closed => .redundantBreak (r.loc closed)
  | p => p

end Recast

end GameScript
