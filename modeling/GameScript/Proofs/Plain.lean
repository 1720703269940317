import GameScript.Tree.View

/-!
Trees with everything taken off that no reader would miss: numbers and locations of nodes, the case of
names, the spelling of literals that have a value, and the place of `default` among the labels of its
group. The values themselves are listed apart, because two floats may be unequal though nothing tells
them apart.
-/

namespace GameScript

def Node.plain : Node :=
  ⟨0, .zero⟩

def Ident.plain (n : Ident) : Ident :=
  ⟨lowerWord n.name, .zero⟩

def ModulePath.plain (p : ModulePath) : ModulePath :=
  p.map Ident.plain

def Qualifier.plain : Qualifier → Qualifier
  | unqualified => unqualified
  | own => own
  | path segments => path (ModulePath.plain segments)

def FunctionRef.plain (f : FunctionRef) : FunctionRef :=
  ⟨f.name.plain, f.qualifier.plain⟩

def Literal.plain (l : Literal) : Literal :=
  ⟨l.kind, if l.value.toOption.isSome then "" else l.raw, false⟩

namespace Expr

mutual

def plain : Expr → Expr
  | var _ name => var Node.plain name.plain
  | func _ target => func Node.plain target.plain
  | index _ target i => index Node.plain target.plain i.plain
  | member _ target name => member Node.plain target.plain name.plain
  | literal _ value => literal Node.plain value.plain
  | binary _ op left right => binary Node.plain op left.plain right.plain
  | unary _ op operand => unary Node.plain op operand.plain
  | suffix _ op operand => suffix Node.plain op operand.plain
  | group _ inner => group Node.plain inner.plain
  | truple _ x y z => truple Node.plain x.plain y.plain z.plain
  | array _ items => array Node.plain (plains items)
  | assign _ op target value => assign Node.plain op target.plain value.plain
  | call _ receiver modifier target args =>
    call Node.plain (plain? receiver) modifier target.plain (plains args)
  | pointerCall _ receiver modifier pointer args =>
    pointerCall Node.plain (plain? receiver) modifier pointer.plain (plains args)

def plain? : Option Expr → Option Expr
  | some e => some e.plain
  | none => none

def plains : List Expr → List Expr
  | [] => []
  | e :: es => e.plain :: plains es

end

@[simp] theorem plains_eq_map (es : List Expr) : plains es = es.map plain := by
  induction es with
  | nil => rfl
  | cons e es ih => simp [plains, ih]

@[simp] theorem plain?_eq_map (e : Option Expr) : plain? e = e.map plain := by
  cases e <;> rfl

theorem tag_plain (e : Expr) : e.plain.tag = e.tag := by
  cases e <;> rfl

end Expr

def FlowTarget.plain (t : FlowTarget) : FlowTarget :=
  ⟨t.kind, 0⟩

def Case.values (c : Case) : List Expr :=
  c.labels.filterMap CaseLabel.expr?

def Case.plain (c : Case) : Case :=
  ⟨.zero, c.offset, (c.values.map Expr.plain).map .value ++ (if c.isDefault then [.default .zero] else []), c.first,
    c.stop⟩

namespace Stmt

mutual

def plain : Stmt → Stmt
  | expr _ e => expr Node.plain e.plain
  | keywordCall _ keyword argument => keywordCall Node.plain keyword (argument.map Expr.plain)
  | flow _ kind target => flow Node.plain kind target.plain
  | block _ statements => block Node.plain (plains statements)
  | ifThen _ condition thenBranch => ifThen Node.plain condition.plain thenBranch.plain
  | ifElse _ condition thenBranch elseBranch =>
    ifElse Node.plain condition.plain thenBranch.plain elseBranch.plain
  | whileLoop _ condition body => whileLoop Node.plain condition.plain body.plain
  | forLoop _ first condition step body =>
    forLoop Node.plain (first.map Expr.plain) (condition.map Expr.plain) (step.map Expr.plain) body.plain
  | foreachLoop _ key value collection body =>
    foreachLoop Node.plain (key.map Ident.plain) value.plain collection.plain body.plain
  | switch _ subject _ statements cases =>
    switch Node.plain subject.plain Node.plain (plains statements) (cases.map Case.plain)

def plains : List Stmt → List Stmt
  | [] => []
  | s :: rest => s.plain :: plains rest

end

@[simp] theorem plains_eq_map (ss : List Stmt) : plains ss = ss.map plain := by
  induction ss with
  | nil => rfl
  | cons s ss ih => simp [plains, ih]

theorem tag_plain (s : Stmt) : s.plain.tag = s.tag := by
  cases s <;> rfl

end Stmt

def Block.plain (b : Block) : Block :=
  ⟨Node.plain, b.statements.map Stmt.plain⟩

def Param.plain (p : Param) : Param :=
  ⟨.zero, p.name.map Ident.plain, p.modifiers⟩

def FunctionDef.plain (f : FunctionDef) : FunctionDef :=
  ⟨Node.plain, f.name.plain, f.params.map Param.plain, f.body.map Block.plain, f.variadic, f.minArgs⟩

def DirectiveKind.plain : DirectiveKind → DirectiveKind
  | importScript path => importScript (ModulePath.plain path)
  | withArgs name args => withArgs name.plain (args.map Expr.plain)
  | bare name => bare name.plain

def Directive.plain (d : Directive) : Directive :=
  ⟨Node.plain, d.kind.plain⟩

def ConstantDecl.plain (c : ConstantDecl) : ConstantDecl :=
  ⟨Node.plain, c.name.plain, c.value.plain, none⟩

def Declaration.plain : Declaration → Declaration
  | function f => function f.plain
  | directive d => directive d.plain

def Script.plain (s : Script) : Script :=
  ⟨s.imports.map Directive.plain, s.declarations.map Declaration.plain, s.constants.map ConstantDecl.plain,
    s.globals.map Ident.plain, s.declarative⟩

def Graph.plain : Graph → Graph
  | script s => script s.plain
  | function f => function f.plain
  | expression e => expression e.plain

namespace View

def plain : View → View
  | expr e => expr e.plain
  | stmt s => stmt s.plain
  | function f => function f.plain
  | param p => param p.plain
  | directive d => directive d.plain
  | constant c => constant c.plain
  | script s => script s.plain

theorem tag_plain (v : View) : v.plain.tag = v.tag := by
  cases v with
  | expr e => exact e.tag_plain
  | stmt s => exact s.tag_plain
  | _ => rfl

/-- The value of the node itself, if there is a place for one. -/
def ownValue : View → List (Option Value)
  | expr (.literal _ l) => [l.value.toOption]
  | constant c => [c.folded]
  | _ => []

def values (v : View) : List (Option Value) :=
  v.walk.flatMap ownValue

theorem values_eq (v : View) : v.values = v.ownValue ++ v.children.flatMap values := by
  unfold values
  rw [walk_eq, List.flatMap_cons, List.flatMap_assoc]

end View

def Graph.values (g : Graph) : List (Option Value) :=
  g.view.values

theorem Graph.plain_view {g h : Graph} : g.view.plain = h.view.plain ↔ g.plain = h.plain := by
  cases g <;> cases h <;> simp [Graph.view, Graph.plain, View.plain]

end GameScript
