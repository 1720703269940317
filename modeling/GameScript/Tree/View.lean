import GameScript.Tree.Render
import GameScript.Tree.Script

namespace GameScript

inductive NodeTag
  | var | functionReference | indexer | accessor
  | constant | binary | unary | suffix | group | truple | inlineArray | assignment
  | functionCall | pointerCall
  | expressionStatement | keywordCall | flowControl | block
  | ifStatement | whileLoop | forLoop | foreachLoop | switch
  | function | param | directive | constantDeclaration | script
deriving DecidableEq, Repr

namespace NodeTag

def name : NodeTag → String
  | var => "Variable"
  | functionReference => "FunctionReference"
  | indexer => "Indexer"
  | accessor => "Accessor"
  | constant => "Constant"
  | binary => "Binary"
  | unary => "Unary"
  | suffix => "Postfix"
  | group => "Group"
  | truple => "Truple"
  | inlineArray => "InlineArray"
  | assignment => "Assignment"
  | functionCall => "FunctionCall"
  | pointerCall => "PointerCall"
  | expressionStatement => "ExpressionStatement"
  | keywordCall => "KeywordCall"
  | flowControl => "FlowControl"
  | block => "Block"
  | ifStatement => "If"
  | whileLoop => "While"
  | forLoop => "For"
  | foreachLoop => "Foreach"
  | switch => "Switch"
  | function => "Function"
  | param => "Param"
  | directive => "Directive"
  | constantDeclaration => "ConstantDeclaration"
  | script => "Module"

def title : NodeTag → String
  | var => "variable"
  | functionReference => "function reference"
  | indexer => "indexer"
  | accessor => "member access"
  | constant => "constant"
  | binary => "binary operation"
  | unary => "unary operation"
  | suffix => "postfix operation"
  | group => "group"
  | truple => "truple"
  | inlineArray => "inline array"
  | assignment => "assignment"
  | functionCall => "function call"
  | pointerCall => "pointer call"
  | expressionStatement => "expression statement"
  | keywordCall => "keyword call"
  | flowControl => "flow control"
  | block => "block"
  | ifStatement => "if statement"
  | whileLoop => "while loop"
  | forLoop => "for loop"
  | foreachLoop => "foreach loop"
  | switch => "switch statement"
  | function => "function definition"
  | param => "parameter"
  | directive => "directive"
  | constantDeclaration => "constant declaration"
  | script => "module"

end NodeTag

def Expr.tag : Expr → NodeTag
  | .var .. => .var
  | .func .. => .functionReference
  | .index .. => .indexer
  | .member .. => .accessor
  | .literal .. => .constant
  | .binary .. => .binary
  | .unary .. => .unary
  | .suffix .. => .suffix
  | .group .. => .group
  | .truple .. => .truple
  | .array .. => .inlineArray
  | .assign .. => .assignment
  | .call .. => .functionCall
  | .pointerCall .. => .pointerCall

def Stmt.tag : Stmt → NodeTag
  | .expr .. => .expressionStatement
  | .keywordCall .. => .keywordCall
  | .flow .. => .flowControl
  | .block .. => .block
  | .ifThen .. | .ifElse .. => .ifStatement
  | .whileLoop .. => .whileLoop
  | .forLoop .. => .forLoop
  | .foreachLoop .. => .foreachLoop
  | .switch .. => .switch

inductive View
  | expr (e : Expr)
  | stmt (s : Stmt)
  | function (f : FunctionDef)
  | param (p : Param)
  | directive (d : Directive)
  | constant (c : ConstantDecl)
  | script (s : Script)

def CaseLabel.expr? : CaseLabel → Option Expr
  | .value e => some e
  | .default _ => none

def caseValues (cases : List Case) : List Expr :=
  cases.flatMap fun c => c.labels.filterMap CaseLabel.expr?

def Stmt.children : Stmt → List View
  | .expr _ e => [.expr e]
  | .keywordCall _ _ argument => argument.toList.map .expr
  | .flow .. => []
  | .block _ statements => statements.map .stmt
  | .ifThen _ condition thenBranch => [.expr condition, .stmt thenBranch]
  | .ifElse _ condition thenBranch elseBranch =>
    [.expr condition, .stmt thenBranch, .stmt elseBranch]
  | .whileLoop _ condition body => [.expr condition, .stmt body]
  | .forLoop _ first condition step body =>
    (first.toList ++ condition.toList ++ step.toList).map .expr ++ [.stmt body]
  | .foreachLoop _ _ _ collection body => [.expr collection, .stmt body]
  | .switch _ subject _ statements cases =>
    .expr subject :: (caseValues cases).map .expr ++ statements.map .stmt

def FunctionDef.statements (f : FunctionDef) : List Stmt :=
  match f.body with
  | some b => b.statements
  | none => []

def DirectiveKind.args : DirectiveKind → List Expr
  | .withArgs _ args => args
  | .importScript _ | .bare _ => []

def Directive.text (d : Directive) : String :=
  match d.kind with
  | .importScript path => "#include " ++ pathText path ++ ";"
  | .withArgs name args => "#" ++ name.name ++ "(" ++ commaList (exprTexts args) ++ ");"
  | .bare name => "#" ++ name.name ++ ";"

namespace Declaration

def view : Declaration → View
  | function f => .function f
  | directive d => .directive d

end Declaration

def Graph.view : Graph → View
  | script s => .script s
  | function f => .function f
  | expression e => .expr e

namespace View

def tag : View → NodeTag
  | expr e => e.tag
  | stmt s => s.tag
  | function _ => .function
  | param _ => .param
  | directive _ => .directive
  | constant _ => .constantDeclaration
  | script _ => .script

def loc : View → Location
  | expr e => e.loc
  | stmt s => s.loc
  | function f => f.node.loc
  | param p => p.loc
  | directive d => d.node.loc
  | constant c => c.node.loc
  | script _ => .start

def children : View → List View
  | expr e => e.children.map .expr
  | stmt s => s.children
  | function f => f.params.map .param ++ f.statements.map .stmt
  | param _ => []
  | directive d => d.kind.args.map .expr
  | constant c => [.expr c.value]
  | script s =>
    s.imports.map .directive ++ s.declarations.map Declaration.view ++ s.constants.map .constant

theorem sizeOf_toList {α : Type} [SizeOf α] {o : Option α} {a : α} (h : a ∈ o.toList) :
    sizeOf a < sizeOf o := by
  cases o with
  | none => simp at h
  | some b =>
    simp only [Option.toList_some, List.mem_singleton] at h
    subst h
    simp

theorem sizeOf_expr_child {e c : Expr} (h : c ∈ e.children) : sizeOf c < sizeOf e := by
  cases e with
  | var | func | literal => simp [Expr.children] at h
  | member | unary | suffix | group =>
    simp only [Expr.children, List.mem_singleton] at h
    subst h
    simp only [Expr.member.sizeOf_spec, Expr.unary.sizeOf_spec, Expr.suffix.sizeOf_spec, Expr.group.sizeOf_spec]
    omega
  | index | binary | assign =>
    simp only [Expr.children, List.mem_cons, List.not_mem_nil, or_false] at h
    rcases h with rfl | rfl <;> simp only [Expr.index.sizeOf_spec, Expr.binary.sizeOf_spec, Expr.assign.sizeOf_spec] <;>
      omega
  | truple =>
    simp only [Expr.children, List.mem_cons, List.not_mem_nil, or_false] at h
    rcases h with rfl | rfl | rfl <;> simp only [Expr.truple.sizeOf_spec] <;> omega
  | array node items =>
    have := List.sizeOf_lt_of_mem (show c ∈ items from h)
    simp
    omega
  | call node receiver modifier target args =>
    simp only [Expr.children, List.mem_append] at h
    rcases h with h | h
    · have := sizeOf_toList h
      simp
      omega
    · have := List.sizeOf_lt_of_mem h
      simp
      omega
  | pointerCall node receiver modifier pointer args =>
    simp only [Expr.children, List.mem_append, List.mem_cons] at h
    rcases h with h | h | h
    · have := sizeOf_toList h
      simp
      omega
    · subst h
      simp
      omega
    · have := List.sizeOf_lt_of_mem h
      simp
      omega

theorem sizeOf_caseValues {cases : List Case} {e : Expr} (h : e ∈ caseValues cases) :
    sizeOf e < sizeOf cases := by
  simp only [caseValues, List.mem_flatMap, List.mem_filterMap] at h
  obtain ⟨c, hc, l, hl, he⟩ := h
  have h1 := List.sizeOf_lt_of_mem hc
  have h2 := List.sizeOf_lt_of_mem hl
  have h3 : sizeOf e < sizeOf l := by
    cases l with
    | value x =>
      simp only [CaseLabel.expr?, Option.some.injEq] at he
      subst he
      simp
    | default => simp [CaseLabel.expr?] at he
  have h4 : sizeOf c.labels < sizeOf c := by
    cases c
    simp
    omega
  omega

theorem sizeOf_map {α : Type} [SizeOf α] {f : α → View} (hf : ∀ a, sizeOf (f a) = 1 + sizeOf a)
    {as : List α} {v : View} (h : v ∈ as.map f) : sizeOf v < 1 + sizeOf as := by
  obtain ⟨a, ha, rfl⟩ := List.mem_map.1 h
  have := List.sizeOf_lt_of_mem ha
  rw [hf]
  omega

theorem sizeOf_stmt_child {s : Stmt} {v : View} (h : v ∈ s.children) :
    sizeOf v < sizeOf (View.stmt s) := by
  have hexpr (e : Expr) : sizeOf (View.expr e) = 1 + sizeOf e := rfl
  have hstmt (s : Stmt) : sizeOf (View.stmt s) = 1 + sizeOf s := rfl
  have hopt {o : Option Expr} (h : v ∈ o.toList.map View.expr) : sizeOf v < 1 + sizeOf o := by
    obtain ⟨e, he, rfl⟩ := List.mem_map.1 h
    have := sizeOf_toList he
    rw [hexpr]
    omega
  rw [hstmt]
  cases s with
  | flow => simp [Stmt.children] at h
  | expr =>
    simp only [Stmt.children, List.mem_singleton] at h
    subst h
    simp only [Stmt.expr.sizeOf_spec, View.expr.sizeOf_spec]
    omega
  | keywordCall node keyword argument =>
    have := hopt h
    simp
    omega
  | block node statements =>
    have := sizeOf_map hstmt h
    simp
    omega
  | ifThen | whileLoop | foreachLoop =>
    simp only [Stmt.children, List.mem_cons, List.not_mem_nil, or_false] at h
    rcases h with rfl | rfl <;>
      simp only [Stmt.ifThen.sizeOf_spec, Stmt.whileLoop.sizeOf_spec, Stmt.foreachLoop.sizeOf_spec, View.expr.sizeOf_spec,
        View.stmt.sizeOf_spec] <;> omega
  | ifElse =>
    simp only [Stmt.children, List.mem_cons, List.not_mem_nil, or_false] at h
    rcases h with rfl | rfl | rfl <;>
      simp only [Stmt.ifElse.sizeOf_spec, View.expr.sizeOf_spec, View.stmt.sizeOf_spec] <;> omega
  | forLoop node first condition step body =>
    simp only [Stmt.children, List.map_append, List.mem_append, List.mem_singleton] at h
    rcases h with ((h | h) | h) | h
    · have := hopt h
      simp
      omega
    · have := hopt h
      simp
      omega
    · have := hopt h
      simp
      omega
    · subst h
      simp only [Stmt.forLoop.sizeOf_spec, View.stmt.sizeOf_spec]
      omega
  | switch node subject bodyNode statements cases =>
    simp only [Stmt.children, List.mem_append, List.mem_cons] at h
    rcases h with (h | h) | h
    · subst h
      simp
      omega
    · obtain ⟨e, he, rfl⟩ := List.mem_map.1 h
      have := sizeOf_caseValues he
      simp
      omega
    · have := sizeOf_map hstmt h
      simp
      omega

theorem sizeOf_statements {f : FunctionDef} {s : Stmt} (h : s ∈ f.statements) :
    sizeOf s < sizeOf f := by
  unfold FunctionDef.statements at h
  obtain ⟨node, name, params, body, variadic, minArgs⟩ := f
  cases body with
  | none => simp at h
  | some b =>
    obtain ⟨bodyNode, statements⟩ := b
    have := List.sizeOf_lt_of_mem h
    simp at this ⊢
    omega

theorem sizeOf_args {d : Directive} {e : Expr} (h : e ∈ d.kind.args) : sizeOf e < sizeOf d := by
  obtain ⟨node, kind⟩ := d
  cases kind with
  | withArgs name args =>
    have := List.sizeOf_lt_of_mem (show e ∈ args from h)
    simp
    omega
  | importScript | bare => simp [DirectiveKind.args] at h

theorem sizeOf_script_child {s : Script} {v : View} (h : v ∈ (View.script s).children) :
    sizeOf v < sizeOf (View.script s) := by
  obtain ⟨imports, declarations, constants, globals, declarative⟩ := s
  simp only [children, List.mem_append, List.mem_map] at h
  rcases h with (⟨d, hd, rfl⟩ | ⟨d, hd, rfl⟩) | ⟨c, hc, rfl⟩
  · have := List.sizeOf_lt_of_mem hd
    simp
    omega
  · have := List.sizeOf_lt_of_mem hd
    have hv : sizeOf d.view ≤ sizeOf d := by cases d <;> simp [Declaration.view]
    simp
    omega
  · have := List.sizeOf_lt_of_mem hc
    simp
    omega

theorem sizeOf_child {v c : View} (h : c ∈ v.children) : sizeOf c < sizeOf v := by
  cases v with
  | expr e =>
    obtain ⟨x, hx, rfl⟩ := List.mem_map.1 h
    have := sizeOf_expr_child hx
    simp
    omega
  | stmt s => exact sizeOf_stmt_child h
  | function f =>
    simp only [children, List.mem_append, List.mem_map] at h
    rcases h with ⟨p, hp, rfl⟩ | ⟨s, hs, rfl⟩
    · have := List.sizeOf_lt_of_mem hp
      obtain ⟨node, name, params, body, variadic, minArgs⟩ := f
      simp at this ⊢
      omega
    · have := sizeOf_statements hs
      simp
      omega
  | param => simp [children] at h
  | directive d =>
    obtain ⟨x, hx, rfl⟩ := List.mem_map.1 h
    have := sizeOf_args hx
    simp
    omega
  | constant c =>
    simp only [children, List.mem_singleton] at h
    subst h
    obtain ⟨node, name, value, folded⟩ := c
    simp
    omega
  | script s => exact sizeOf_script_child h

def walk (v : View) : List View :=
  v :: v.children.attach.flatMap fun ⟨c, _h⟩ => c.walk
termination_by sizeOf v
decreasing_by exact sizeOf_child _h

theorem walk_eq (v : View) : v.walk = v :: v.children.flatMap walk := by
  rw [walk]
  simp [List.flatMap_def]

end View

end GameScript
