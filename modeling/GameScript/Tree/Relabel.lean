import GameScript.Tree.View

namespace GameScript

structure Relabel where
  id : Nat → Nat
  loc : Location → Location

namespace Relabel

def blank : Relabel :=
  ⟨fun _ => 0, fun _ => .zero⟩

def unplaced : Relabel :=
  ⟨fun n => n, fun _ => .zero⟩

def node (r : Relabel) (n : Node) : Node :=
  ⟨r.id n.id, r.loc n.loc⟩

def ident (r : Relabel) (n : Ident) : Ident :=
  ⟨n.name, r.loc n.loc⟩

def path (r : Relabel) (p : ModulePath) : ModulePath :=
  p.map r.ident

def qualifier (r : Relabel) : Qualifier → Qualifier
  | .unqualified => .unqualified
  | .own => .own
  | .path segments => .path (r.path segments)

def target (r : Relabel) (f : FunctionRef) : FunctionRef :=
  ⟨r.ident f.name, r.qualifier f.qualifier⟩

mutual

def expr (r : Relabel) : Expr → Expr
  | .var n name => .var (r.node n) (r.ident name)
  | .func n target => .func (r.node n) (r.target target)
  | .index n target index => .index (r.node n) (r.expr target) (r.expr index)
  | .member n target name => .member (r.node n) (r.expr target) (r.ident name)
  | .literal n value => .literal (r.node n) value
  | .binary n op left right => .binary (r.node n) op (r.expr left) (r.expr right)
  | .unary n op operand => .unary (r.node n) op (r.expr operand)
  | .suffix n op operand => .suffix (r.node n) op (r.expr operand)
  | .group n inner => .group (r.node n) (r.expr inner)
  | .truple n x y z => .truple (r.node n) (r.expr x) (r.expr y) (r.expr z)
  | .array n items => .array (r.node n) (r.exprs items)
  | .assign n op target value => .assign (r.node n) op (r.expr target) (r.expr value)
  | .call n receiver modifier target args =>
    .call (r.node n) (r.expr? receiver) modifier (r.target target) (r.exprs args)
  | .pointerCall n receiver modifier pointer args =>
    .pointerCall (r.node n) (r.expr? receiver) modifier (r.expr pointer) (r.exprs args)

def expr? (r : Relabel) : Option Expr → Option Expr
  | some e => some (r.expr e)
  | none => none

def exprs (r : Relabel) : List Expr → List Expr
  | [] => []
  | e :: es => r.expr e :: r.exprs es

end

def flowTarget (r : Relabel) (t : FlowTarget) : FlowTarget :=
  ⟨t.kind, r.id t.id⟩

def label (r : Relabel) : CaseLabel → CaseLabel
  | .value e => .value (r.expr e)
  | .default loc => .default (r.loc loc)

def switchCase (r : Relabel) (c : Case) : Case :=
  ⟨r.loc c.loc, c.offset, c.labels.map r.label, c.first, c.stop⟩

mutual

def stmt (r : Relabel) : Stmt → Stmt
  | .expr n e => .expr (r.node n) (r.expr e)
  | .keywordCall n keyword argument => .keywordCall (r.node n) keyword (r.expr? argument)
  | .flow n kind target => .flow (r.node n) kind (r.flowTarget target)
  | .block n statements => .block (r.node n) (r.stmts statements)
  | .ifThen n condition thenBranch => .ifThen (r.node n) (r.expr condition) (r.stmt thenBranch)
  | .ifElse n condition thenBranch elseBranch =>
    .ifElse (r.node n) (r.expr condition) (r.stmt thenBranch) (r.stmt elseBranch)
  | .whileLoop n condition body => .whileLoop (r.node n) (r.expr condition) (r.stmt body)
  | .forLoop n first condition step body =>
    .forLoop (r.node n) (r.expr? first) (r.expr? condition) (r.expr? step) (r.stmt body)
  | .foreachLoop n key value collection body =>
    .foreachLoop (r.node n) (key.map r.ident) (r.ident value) (r.expr collection) (r.stmt body)
  | .switch n subject bodyNode statements cases =>
    .switch (r.node n) (r.expr subject) (r.node bodyNode) (r.stmts statements) (cases.map r.switchCase)

def stmts (r : Relabel) : List Stmt → List Stmt
  | [] => []
  | s :: rest => r.stmt s :: r.stmts rest

end

def block (r : Relabel) (b : Block) : Block :=
  ⟨r.node b.node, r.stmts b.statements⟩

def param (r : Relabel) (p : Param) : Param :=
  ⟨r.loc p.loc, p.name.map r.ident, p.modifiers⟩

def function (r : Relabel) (f : FunctionDef) : FunctionDef :=
  ⟨r.node f.node, r.ident f.name, f.params.map r.param, f.body.map r.block, f.variadic, f.minArgs⟩

def directiveKind (r : Relabel) : DirectiveKind → DirectiveKind
  | .importScript path => .importScript (r.path path)
  | .withArgs name args => .withArgs (r.ident name) (r.exprs args)
  | .bare name => .bare (r.ident name)

def directive (r : Relabel) (d : Directive) : Directive :=
  ⟨r.node d.node, r.directiveKind d.kind⟩

def constant (r : Relabel) (c : ConstantDecl) : ConstantDecl :=
  ⟨r.node c.node, r.ident c.name, r.expr c.value, c.folded⟩

def declaration (r : Relabel) : Declaration → Declaration
  | .function f => .function (r.function f)
  | .directive d => .directive (r.directive d)

def script (r : Relabel) (s : Script) : Script :=
  ⟨s.imports.map r.directive, s.declarations.map r.declaration, s.constants.map r.constant,
    s.globals.map r.ident, s.declarative⟩

def graph (r : Relabel) : Graph → Graph
  | .script s => .script (r.script s)
  | .function f => .function (r.function f)
  | .expression e => .expression (r.expr e)

@[simp] theorem blank_node (n : Node) : blank.node n = ⟨0, .zero⟩ := rfl

@[simp] theorem blank_ident (n : Ident) : blank.ident n = ⟨n.name, .zero⟩ := rfl

@[simp] theorem blank_loc (l : Location) : blank.loc l = .zero := rfl

variable (r : Relabel)

@[simp] theorem exprs_eq_map (es : List Expr) : r.exprs es = es.map r.expr := by
  induction es with
  | nil => rfl
  | cons e es ih => simp [exprs, ih]

@[simp] theorem expr?_eq_map (e : Option Expr) : r.expr? e = e.map r.expr := by
  cases e <;> rfl

@[simp] theorem stmts_eq_map (ss : List Stmt) : r.stmts ss = ss.map r.stmt := by
  induction ss with
  | nil => rfl
  | cons s ss ih => simp [stmts, ih]

theorem node_expr (e : Expr) : (r.expr e).node = r.node e.node := by
  cases e <;> rfl

theorem loc_expr (e : Expr) : (r.expr e).loc = r.loc e.loc :=
  congrArg Node.loc (r.node_expr e)

theorem node_stmt (s : Stmt) : (r.stmt s).node = r.node s.node := by
  cases s <;> rfl

theorem loc_stmt (s : Stmt) : (r.stmt s).loc = r.loc s.loc :=
  congrArg Node.loc (r.node_stmt s)

structure Keeps : Prop where
  id : ∀ n, r.id n = n
  loc : ∀ l, r.loc l = l

namespace Keeps

variable {r : Relabel} (h : r.Keeps)

include h

theorem node (n : Node) : r.node n = n := by
  rw [Relabel.node, h.id, h.loc]

theorem ident (n : Ident) : r.ident n = n := by
  rw [Relabel.ident, h.loc]

theorem idents (names : List Ident) : names.map r.ident = names := by
  rw [funext h.ident, List.map_id']

theorem target (f : FunctionRef) : r.target f = f := by
  obtain ⟨name, qualifier⟩ := f
  cases qualifier <;> simp only [Relabel.target, Relabel.qualifier, Relabel.path, h.ident, h.idents]

end Keeps

namespace Keeps

mutual

theorem expr {r : Relabel} (h : r.Keeps) : ∀ e : Expr, r.expr e = e
  | .var n name => by rw [Relabel.expr, h.node, h.ident]
  | .func n target => by rw [Relabel.expr, h.node, h.target]
  | .index n target index => by rw [Relabel.expr, h.node, h.expr target, h.expr index]
  | .member n target name => by rw [Relabel.expr, h.node, h.expr target, h.ident]
  | .literal n value => by rw [Relabel.expr, h.node]
  | .binary n op left right => by rw [Relabel.expr, h.node, h.expr left, h.expr right]
  | .unary n op operand => by rw [Relabel.expr, h.node, h.expr operand]
  | .suffix n op operand => by rw [Relabel.expr, h.node, h.expr operand]
  | .group n inner => by rw [Relabel.expr, h.node, h.expr inner]
  | .truple n x y z => by rw [Relabel.expr, h.node, h.expr x, h.expr y, h.expr z]
  | .array n items => by rw [Relabel.expr, h.node, h.exprs items]
  | .assign n op target value => by rw [Relabel.expr, h.node, h.expr target, h.expr value]
  | .call n receiver modifier target args => by
    rw [Relabel.expr, h.node, h.expr? receiver, h.target, h.exprs args]
  | .pointerCall n receiver modifier pointer args => by
    rw [Relabel.expr, h.node, h.expr? receiver, h.expr pointer, h.exprs args]

theorem expr? {r : Relabel} (h : r.Keeps) : ∀ e : Option Expr, r.expr? e = e
  | some e => by rw [Relabel.expr?, h.expr e]
  | none => rfl

theorem exprs {r : Relabel} (h : r.Keeps) : ∀ es : List Expr, r.exprs es = es
  | [] => rfl
  | e :: es => by rw [Relabel.exprs, h.expr e, h.exprs es]

end

variable {r : Relabel}

theorem cases (h : r.Keeps) (cases : List Case) : cases.map r.switchCase = cases := by
  have hlabel (l : CaseLabel) : r.label l = l := by
    cases l with
    | value e => rw [Relabel.label, h.expr]
    | default loc => rw [Relabel.label, h.loc]
  have hcase (c : Case) : r.switchCase c = c := by
    rw [Relabel.switchCase, h.loc, funext hlabel, List.map_id']
  rw [funext hcase, List.map_id']

mutual

theorem stmt {r : Relabel} (h : r.Keeps) : ∀ s : Stmt, r.stmt s = s
  | .expr n e => by rw [Relabel.stmt, h.node, h.expr]
  | .keywordCall n keyword argument => by rw [Relabel.stmt, h.node, h.expr?]
  | .flow n kind target => by rw [Relabel.stmt, h.node, Relabel.flowTarget, h.id]
  | .block n statements => by rw [Relabel.stmt, h.node, h.stmts statements]
  | .ifThen n condition thenBranch => by rw [Relabel.stmt, h.node, h.expr, h.stmt thenBranch]
  | .ifElse n condition thenBranch elseBranch => by
    rw [Relabel.stmt, h.node, h.expr, h.stmt thenBranch, h.stmt elseBranch]
  | .whileLoop n condition body => by rw [Relabel.stmt, h.node, h.expr, h.stmt body]
  | .forLoop n first condition step body => by
    rw [Relabel.stmt, h.node, h.expr?, h.expr?, h.expr?, h.stmt body]
  | .foreachLoop n key value collection body => by
    rw [Relabel.stmt, h.node, funext h.ident, Option.map_id', h.expr, h.stmt body]
  | .switch n subject bodyNode statements cases => by
    rw [Relabel.stmt, h.node, h.expr, h.node, h.stmts statements, h.cases]

theorem stmts {r : Relabel} (h : r.Keeps) : ∀ ss : List Stmt, r.stmts ss = ss
  | [] => rfl
  | s :: ss => by rw [Relabel.stmts, h.stmt s, h.stmts ss]

end

theorem function (h : r.Keeps) (f : FunctionDef) : r.function f = f := by
  have hparam (p : Param) : r.param p = p := by
    rw [Relabel.param, h.loc, funext h.ident, Option.map_id']
  have hblock (b : Block) : r.block b = b := by
    rw [Relabel.block, h.node, h.stmts]
  rw [Relabel.function, h.node, h.ident, funext hparam, funext hblock, List.map_id', Option.map_id']

theorem directive (h : r.Keeps) (d : Directive) : r.directive d = d := by
  obtain ⟨node, kind⟩ := d
  cases kind <;>
    simp only [Relabel.directive, Relabel.directiveKind, Relabel.path, h.node, h.ident, h.idents, h.exprs]

theorem script (h : r.Keeps) (s : Script) : r.script s = s := by
  have hconstant (c : ConstantDecl) : r.constant c = c := by
    rw [Relabel.constant, h.node, h.ident, h.expr]
  have hdeclaration (d : Declaration) : r.declaration d = d := by
    cases d with
    | function f => rw [Relabel.declaration, h.function]
    | directive d => rw [Relabel.declaration, h.directive]
  rw [Relabel.script, funext h.directive, funext hdeclaration, funext hconstant, h.idents, List.map_id', List.map_id',
    List.map_id']

theorem graph (h : r.Keeps) (g : Graph) : r.graph g = g := by
  cases g with
  | script s => rw [Relabel.graph, h.script]
  | function f => rw [Relabel.graph, h.function]
  | expression e => rw [Relabel.graph, h.expr]

end Keeps

variable (r : Relabel)

def view : View → View
  | .expr e => .expr (r.expr e)
  | .stmt s => .stmt (r.stmt s)
  | .function f => .function (r.function f)
  | .param p => .param (r.param p)
  | .directive d => .directive (r.directive d)
  | .constant c => .constant (r.constant c)
  | .script s => .script (r.script s)

theorem view_graph (g : Graph) : (r.graph g).view = r.view g.view := by
  cases g <;> rfl

theorem children_expr (e : Expr) : (r.expr e).children = e.children.map r.expr := by
  have hoption (o : Option Expr) : (o.map r.expr).toList = o.toList.map r.expr := by cases o <;> rfl
  cases e <;> simp [expr, Expr.children, hoption]

theorem caseValues_map (cases : List Case) :
    caseValues (cases.map r.switchCase) = (caseValues cases).map r.expr := by
  have hlabel : CaseLabel.expr? ∘ r.label = fun l => l.expr?.map r.expr := by
    funext l
    cases l <;> rfl
  simp only [caseValues, List.flatMap_map, List.map_flatMap, switchCase, List.filterMap_map, hlabel, List.map_filterMap]

theorem children_stmt (s : Stmt) : (r.stmt s).children = s.children.map r.view := by
  cases s with
  | keywordCall _ _ argument => cases argument <;> rfl
  | forLoop _ first condition step => cases first <;> cases condition <;> cases step <;> rfl
  | switch _ subject _ statements cases =>
    simp only [stmt, Stmt.children, caseValues_map, stmts_eq_map, List.map_map, List.map_append, List.map_cons]
    rfl
  | block => simp only [stmt, Stmt.children, stmts_eq_map, List.map_map]; rfl
  | _ => rfl

theorem children_view (v : View) : (r.view v).children = v.children.map r.view := by
  cases v with
  | expr e =>
    simp only [view, View.children, children_expr, List.map_map]
    rfl
  | stmt s => exact r.children_stmt s
  | function f =>
    have hstatements : (r.function f).statements = f.statements.map r.stmt := by
      obtain ⟨_, _, _, body, _, _⟩ := f
      cases body with
      | none => rfl
      | some b => exact r.stmts_eq_map b.statements
    simp only [view, View.children, hstatements, List.map_append, List.map_map]
    simp only [function, List.map_map]
    rfl
  | param => rfl
  | directive d =>
    obtain ⟨_, kind⟩ := d
    cases kind <;> simp [view, View.children, directive, directiveKind, DirectiveKind.args]
  | constant => rfl
  | script s =>
    have hdeclaration : Declaration.view ∘ r.declaration = r.view ∘ Declaration.view := by
      funext d
      cases d <;> rfl
    simp only [view, View.children, script, List.map_append, List.map_map, hdeclaration]
    rfl

theorem walk_view (v : View) : (r.view v).walk = v.walk.map r.view := by
  induction v using View.walk.induct with
  | case1 v ih =>
    rw [View.walk_eq, View.walk_eq v, children_view, List.flatMap_map, List.map_cons, List.map_flatMap, List.flatMap_def,
      List.map_congr_left ih, ← List.flatMap_def]

end Relabel

end GameScript
