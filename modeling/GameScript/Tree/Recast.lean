import GameScript.Tree.Relabel

namespace GameScript

/-- How far the numbers move, and what becomes of locations and of words. -/
structure Recast where
  shift : Nat := 0
  loc : Location → Location := fun loc => loc
  word : String → String := fun w => w

def LiteralKind.isWord : LiteralKind → Bool
  | .bool | .undefined => true
  | _ => false

namespace Recast

variable (r : Recast)

def id (n : Nat) : Nat :=
  r.shift + n

def node (n : Node) : Node :=
  ⟨r.id n.id, r.loc n.loc⟩

def ident (n : Ident) : Ident :=
  ⟨r.word n.name, r.loc n.loc⟩

def path (p : ModulePath) : ModulePath :=
  p.map r.ident

def qualifier : Qualifier → Qualifier
  | .unqualified => .unqualified
  | .own => .own
  | .path segments => .path (r.path segments)

def target (f : FunctionRef) : FunctionRef :=
  ⟨r.ident f.name, r.qualifier f.qualifier⟩

def literal (l : Literal) : Literal :=
  { l with raw := if l.kind.isWord then r.word l.raw else l.raw }

mutual

def expr : Expr → Expr
  | .var n name => .var (r.node n) (r.ident name)
  | .func n target => .func (r.node n) (r.target target)
  | .index n target index => .index (r.node n) (expr target) (expr index)
  | .member n target name => .member (r.node n) (expr target) (r.ident name)
  | .literal n value => .literal (r.node n) (r.literal value)
  | .binary n op left right => .binary (r.node n) op (expr left) (expr right)
  | .unary n op operand => .unary (r.node n) op (expr operand)
  | .suffix n op operand => .suffix (r.node n) op (expr operand)
  | .group n inner => .group (r.node n) (expr inner)
  | .truple n x y z => .truple (r.node n) (expr x) (expr y) (expr z)
  | .array n items => .array (r.node n) (exprs items)
  | .assign n op target value => .assign (r.node n) op (expr target) (expr value)
  | .call n receiver modifier target args =>
    .call (r.node n) (expr? receiver) modifier (r.target target) (exprs args)
  | .pointerCall n receiver modifier pointer args =>
    .pointerCall (r.node n) (expr? receiver) modifier (expr pointer) (exprs args)

def expr? : Option Expr → Option Expr
  | some e => some (expr e)
  | none => none

def exprs : List Expr → List Expr
  | [] => []
  | e :: es => expr e :: exprs es

end

def flowTarget (t : FlowTarget) : FlowTarget :=
  ⟨t.kind, r.id t.id⟩

def label : CaseLabel → CaseLabel
  | .value e => .value (r.expr e)
  | .default loc => .default (r.loc loc)

def switchCase (c : Case) : Case :=
  ⟨r.loc c.loc, c.offset, c.labels.map r.label, c.first, c.stop⟩

mutual

def stmt : Stmt → Stmt
  | .expr n e => .expr (r.node n) (r.expr e)
  | .keywordCall n keyword argument => .keywordCall (r.node n) keyword (r.expr? argument)
  | .flow n kind target => .flow (r.node n) kind (r.flowTarget target)
  | .block n statements => .block (r.node n) (stmts statements)
  | .ifThen n condition thenBranch => .ifThen (r.node n) (r.expr condition) (stmt thenBranch)
  | .ifElse n condition thenBranch elseBranch =>
    .ifElse (r.node n) (r.expr condition) (stmt thenBranch) (stmt elseBranch)
  | .whileLoop n condition body => .whileLoop (r.node n) (r.expr condition) (stmt body)
  | .forLoop n first condition step body =>
    .forLoop (r.node n) (r.expr? first) (r.expr? condition) (r.expr? step) (stmt body)
  | .foreachLoop n key value collection body =>
    .foreachLoop (r.node n) (key.map r.ident) (r.ident value) (r.expr collection) (stmt body)
  | .switch n subject bodyNode statements cases =>
    .switch (r.node n) (r.expr subject) (r.node bodyNode) (stmts statements) (cases.map r.switchCase)

def stmts : List Stmt → List Stmt
  | [] => []
  | s :: rest => stmt s :: stmts rest

end

def block (b : Block) : Block :=
  ⟨r.node b.node, r.stmts b.statements⟩

def param (p : Param) : Param :=
  ⟨r.loc p.loc, p.name.map r.ident, p.modifiers⟩

def function (f : FunctionDef) : FunctionDef :=
  ⟨r.node f.node, r.ident f.name, f.params.map r.param, f.body.map r.block, f.variadic, f.minArgs⟩

def directiveKind : DirectiveKind → DirectiveKind
  | .importScript path => .importScript (r.path path)
  | .withArgs name args => .withArgs (r.ident name) (r.exprs args)
  | .bare name => .bare (r.ident name)

def directive (d : Directive) : Directive :=
  ⟨r.node d.node, r.directiveKind d.kind⟩

def constant (c : ConstantDecl) : ConstantDecl :=
  ⟨r.node c.node, r.ident c.name, r.expr c.value, c.folded⟩

def declaration : Declaration → Declaration
  | .function f => .function (r.function f)
  | .directive d => .directive (r.directive d)

def script (s : Script) : Script :=
  { s with
    imports := s.imports.map r.directive
    declarations := s.declarations.map r.declaration
    constants := s.constants.map r.constant
    globals := s.globals.map r.ident }

def graph : Graph → Graph
  | .script s => .script (r.script s)
  | .function f => .function (r.function f)
  | .expression e => .expression (r.expr e)

@[simp] theorem exprs_eq_map (es : List Expr) : r.exprs es = es.map r.expr := by
  induction es with
  | nil => rfl
  | cons e es ih => simp [exprs, ih]

@[simp] theorem expr?_eq_map (e : Option Expr) : r.expr? e = e.map r.expr := by
  cases e <;> rfl

@[simp] theorem stmts_eq_map (ss : List Stmt) : r.stmts ss = ss.map r.stmt := by
  induction ss with
  | nil => rfl
  | cons s ss ih => simp [stmts, ih]

theorem loc_expr (e : Expr) : (r.expr e).loc = r.loc e.loc := by
  cases e <;> rfl

theorem loc_stmt (s : Stmt) : (r.stmt s).loc = r.loc s.loc := by
  cases s <;> rfl

def labelling : Relabel :=
  ⟨r.id, r.loc⟩

/-! If words stay, only the labels change. -/

variable {r : Recast}

section Words

variable (hw : ∀ w, r.word w = w)

include hw

theorem ident_labelling : r.ident = r.labelling.ident :=
  funext fun n => congrArg (fun name => (⟨name, r.loc n.loc⟩ : Ident)) (hw n.name)

theorem path_labelling (p : ModulePath) : r.path p = r.labelling.path p := by
  rw [path, ident_labelling hw]
  rfl

theorem target_labelling (f : FunctionRef) : r.target f = r.labelling.target f := by
  obtain ⟨name, qualifier⟩ := f
  cases qualifier <;>
    simp only [target, Recast.qualifier, Relabel.target, Relabel.qualifier, ident_labelling hw, path_labelling hw]

theorem literal_labelling (l : Literal) : r.literal l = l := by
  simp only [literal, hw, ite_self]

end Words

mutual

theorem expr_labelling (hw : ∀ w, r.word w = w) : ∀ e : Expr, r.expr e = r.labelling.expr e
  | .var n name => by rw [expr, ident_labelling hw]; rfl
  | .func n target => by rw [expr, target_labelling hw]; rfl
  | .index n target index => by rw [expr, expr_labelling hw target, expr_labelling hw index]; rfl
  | .member n target name => by rw [expr, expr_labelling hw target, ident_labelling hw]; rfl
  | .literal n value => by rw [expr, literal_labelling hw]; rfl
  | .binary n op left right => by rw [expr, expr_labelling hw left, expr_labelling hw right]; rfl
  | .unary n op operand => by rw [expr, expr_labelling hw operand]; rfl
  | .suffix n op operand => by rw [expr, expr_labelling hw operand]; rfl
  | .group n inner => by rw [expr, expr_labelling hw inner]; rfl
  | .truple n x y z => by rw [expr, expr_labelling hw x, expr_labelling hw y, expr_labelling hw z]; rfl
  | .array n items => by rw [expr, exprs_labelling hw items]; rfl
  | .assign n op target value => by rw [expr, expr_labelling hw target, expr_labelling hw value]; rfl
  | .call n receiver modifier target args => by
    rw [expr, expr?_labelling hw receiver, target_labelling hw, exprs_labelling hw args]; rfl
  | .pointerCall n receiver modifier pointer args => by
    rw [expr, expr?_labelling hw receiver, expr_labelling hw pointer, exprs_labelling hw args]; rfl

theorem expr?_labelling (hw : ∀ w, r.word w = w) : ∀ e : Option Expr, r.expr? e = r.labelling.expr? e
  | some e => by rw [expr?, expr_labelling hw e]; rfl
  | none => rfl

theorem exprs_labelling (hw : ∀ w, r.word w = w) : ∀ es : List Expr, r.exprs es = r.labelling.exprs es
  | [] => rfl
  | e :: es => by rw [exprs, expr_labelling hw e, exprs_labelling hw es]; rfl

end

section Words

variable (hw : ∀ w, r.word w = w)

include hw

theorem label_labelling : r.label = r.labelling.label := by
  funext l
  cases l with
  | value e => rw [label, expr_labelling hw]; rfl
  | default loc => rfl

theorem switchCase_labelling : r.switchCase = r.labelling.switchCase := by
  funext c
  rw [switchCase, label_labelling hw]
  rfl

end Words

mutual

theorem stmt_labelling (hw : ∀ w, r.word w = w) : ∀ s : Stmt, r.stmt s = r.labelling.stmt s
  | .expr n e => by rw [stmt, expr_labelling hw]; rfl
  | .keywordCall n keyword argument => by rw [stmt, expr?_labelling hw]; rfl
  | .flow n kind target => rfl
  | .block n statements => by rw [stmt, stmts_labelling hw statements]; rfl
  | .ifThen n condition thenBranch => by rw [stmt, expr_labelling hw, stmt_labelling hw thenBranch]; rfl
  | .ifElse n condition thenBranch elseBranch => by
    rw [stmt, expr_labelling hw, stmt_labelling hw thenBranch, stmt_labelling hw elseBranch]; rfl
  | .whileLoop n condition body => by rw [stmt, expr_labelling hw, stmt_labelling hw body]; rfl
  | .forLoop n first condition step body => by
    rw [stmt, expr?_labelling hw, expr?_labelling hw, expr?_labelling hw, stmt_labelling hw body]; rfl
  | .foreachLoop n key value collection body => by
    rw [stmt, ident_labelling hw, expr_labelling hw, stmt_labelling hw body]; rfl
  | .switch n subject bodyNode statements cases => by
    rw [stmt, expr_labelling hw, stmts_labelling hw statements, switchCase_labelling hw]; rfl

theorem stmts_labelling (hw : ∀ w, r.word w = w) : ∀ ss : List Stmt, r.stmts ss = r.labelling.stmts ss
  | [] => rfl
  | s :: ss => by rw [stmts, stmt_labelling hw s, stmts_labelling hw ss]; rfl

end

section Words

variable (hw : ∀ w, r.word w = w)

include hw

theorem function_labelling (f : FunctionDef) : r.function f = r.labelling.function f := by
  have hparam : r.param = r.labelling.param := by
    funext p
    rw [param, ident_labelling hw]
    rfl
  have hblock : r.block = r.labelling.block := by
    funext b
    rw [block, stmts_labelling hw]
    rfl
  rw [function, hparam, hblock, ident_labelling hw]
  rfl

theorem directive_labelling : r.directive = r.labelling.directive := by
  funext ⟨node, kind⟩
  cases kind <;>
    simp only [directive, directiveKind, Relabel.directive, Relabel.directiveKind, path_labelling hw, ident_labelling hw,
      exprs_labelling hw] <;> rfl

theorem script_labelling (s : Script) : r.script s = r.labelling.script s := by
  have hconstant : r.constant = r.labelling.constant := by
    funext c
    rw [constant, ident_labelling hw, expr_labelling hw]
    rfl
  have hdeclaration : r.declaration = r.labelling.declaration := by
    funext d
    cases d with
    | function f => rw [declaration, function_labelling hw]; rfl
    | directive d => rw [declaration, directive_labelling hw]; rfl
  rw [script, directive_labelling hw, hdeclaration, hconstant, ident_labelling hw]
  rfl

theorem graph_labelling (g : Graph) : r.graph g = r.labelling.graph g := by
  cases g with
  | script s => rw [graph, script_labelling hw]; rfl
  | function f => rw [graph, function_labelling hw]; rfl
  | expression e => rw [graph, expr_labelling hw]; rfl

end Words

end Recast

end GameScript
