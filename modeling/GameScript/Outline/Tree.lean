import GameScript.Outline.Outline
import GameScript.Tree.Script

namespace GameScript

open Outline

def Operator.label : Operator → String
  | star => "Star"
  | slash => "Slash"
  | percent => "Percent"
  | plus => "Plus"
  | minus => "Minus"
  | shl => "Shl"
  | shr => "Shr"
  | lt => "Lt"
  | ltEq => "LtEq"
  | gt => "Gt"
  | gtEq => "GtEq"
  | eqEq => "EqEq"
  | notEq => "NotEq"
  | bitAnd => "BitAnd"
  | bitXor => "BitXor"
  | bitOr => "BitOr"
  | andAnd => "AndAnd"
  | orOr => "OrOr"
  | not => "Not"
  | negate => "Negate"
  | bitNot => "BitNot"
  | increment => "Increment"
  | decrement => "Decrement"
  | assign => "Assign"
  | plusEq => "PlusEq"
  | minusEq => "MinusEq"
  | starEq => "StarEq"
  | slashEq => "SlashEq"
  | percentEq => "PercentEq"
  | andEq => "AndEq"
  | orEq => "OrEq"
  | xorEq => "XorEq"
  | shlEq => "ShlEq"
  | shrEq => "ShrEq"

def LiteralKind.label : LiteralKind → String
  | integer => "Integer"
  | float => "Float"
  | string => "String"
  | localized => "LocalizedString"
  | resource => "Resource"
  | bool => "Bool"
  | undefined => "Undefined"

namespace Outline

def quoted (text : String) : Outline :=
  word (Quoted.string text)

def location (loc : Location) : Outline :=
  record "Location" [("line", nat loc.line), ("column", nat loc.column), ("offset", nat loc.offset)]

def nodeId (id : Nat) : Outline :=
  wrapped "NodeId" (nat id)

def nodeRecord (name : String) (n : Node) (fields : List (String × Outline)) : Outline :=
  record name (("id", nodeId n.id) :: ("loc", location n.loc) :: fields)

def node (case name : String) (n : Node) (fields : List (String × Outline)) : Outline :=
  wrapped case (nodeRecord name n fields)

def ident (name : Ident) : Outline :=
  record "Ident" [("name", quoted name.name), ("loc", location name.loc)]

def modulePath (path : ModulePath) : Outline :=
  record "ModulePath" [("segments", list (path.map ident))]

def functionRef (f : FunctionRef) : Outline :=
  let qualifier :=
    match f.qualifier with
    | .unqualified => word "None"
    | .own => word "Local"
    | .path segments => wrapped "Module" (modulePath segments)
  record "FunctionRef" [("name", ident f.name), ("qualifier", qualifier)]

def modifier : Option CallModifier → Outline
  | some .thread => wrapped "Some" (word "Thread")
  | some .childThread => wrapped "Some" (word "ChildThread")
  | none => word "None"

def float (x : Float) : Outline :=
  word (Decimal.format .value x)

def value : Value → Outline
  | .int i => wrapped "Int" (word (toString i.toInt))
  | .float x => wrapped "Float" (float x)
  | .string s => wrapped "String" (quoted s)
  | .localized s => wrapped "LocalizedString" (quoted s)
  | .resource s => wrapped "Resource" (quoted s)
  | .bool b => wrapped "Bool" (bool b)
  | .undefined => word "Undefined"
  | .vector x y z => wrapped "Vector" (list [float x, float y, float z])

def literalError : LiteralError → Outline
  | .outOfRange raw => wrapped "IntegerOutOfRange" (quoted raw)
  | .malformedNumber raw => wrapped "MalformedNumber" (quoted raw)
  | .unknownEscape c => wrapped "UnknownEscape" (word (Quoted.char c))
  | .malformed kind raw => record "Malformed" [("kind", quoted kind), ("raw", quoted raw)]

def literalValue (l : Literal) : Outline :=
  let content :=
    if l.folded then
      match l.value with
      | .ok v => wrapped "Ok" (value v)
      | .error e => wrapped "Err" (literalError e)
    else word "<uninit>"
  wrapped "OnceCell" content

def operator (op : Operator) : Outline :=
  word op.label

def reference (n : Node) (kind : Outline) : Outline :=
  node "Reference" "Reference" n [("kind", kind)]

mutual

def expr : Expr → Outline
  | .var n name => reference n (wrapped "Variable" (ident name))
  | .func n target => reference n (wrapped "Function" (functionRef target))
  | .index n target index =>
    reference n (record "Indexer" [("target", expr target), ("index", expr index)])
  | .member n target name =>
    reference n (record "Accessor" [("target", expr target), ("member", ident name)])
  | .literal n l =>
    node "Constant" "Constant" n
      [("kind", word l.kind.label), ("raw", quoted l.raw), ("value", literalValue l)]
  | .binary n op left right =>
    node "Binary" "BinaryOp" n
      [("op", operator op), ("left", expr left), ("right", expr right)]
  | .unary n op operand =>
    node "Unary" "UnaryOp" n [("op", operator op), ("operand", expr operand)]
  | .suffix n op operand =>
    node "Postfix" "PostfixOp" n [("op", operator op), ("operand", expr operand)]
  | .group n inner => node "Group" "Group" n [("inner", expr inner)]
  | .truple n x y z => node "Truple" "Truple" n [("items", list [expr x, expr y, expr z])]
  | .array n items => node "InlineArray" "InlineArray" n [("items", list (exprs items))]
  | .assign n op target value =>
    node "Assignment" "Assignment" n
      [("op", operator op), ("target", expr target), ("value", expr value)]
  | .call n receiver m target args =>
    node "Call" "FunctionCall" n
      [("self_expr", optionalExpr receiver), ("modifier", modifier m), ("target", functionRef target),
        ("args", list (exprs args))]
  | .pointerCall n receiver m pointer args =>
    node "PointerCall" "PointerCall" n
      [("self_expr", optionalExpr receiver), ("modifier", modifier m), ("pointer", expr pointer),
        ("args", list (exprs args))]

def optionalExpr : Option Expr → Outline
  | some e => wrapped "Some" (expr e)
  | none => word "None"

def exprs : List Expr → List Outline
  | [] => []
  | e :: es => expr e :: exprs es

end

def caseLabel : CaseLabel → Outline
  | .value e => wrapped "Value" (expr e)
  | .default loc => wrapped "Default" (location loc)

def case (c : Case) : Outline :=
  record "Case"
    [("loc", location c.loc), ("offset", nat c.offset), ("labels", list (c.labels.map caseLabel)),
      ("range", word (toString c.first ++ ".." ++ toString c.stop))]

def callKeyword : CallKeyword → Outline
  | .returnCall => word "Return"
  | .waitCall => word "Wait"
  | .waitTillFrameEndCall => word "WaitTillFrameEnd"
  | .breakpointCall => word "Breakpoint"

def flowKind : FlowKind → Outline
  | .breakFlow => word "Break"
  | .continueFlow => word "Continue"

def flowTarget (t : FlowTarget) : Outline :=
  let kind :=
    match t.kind with
    | .loop => "Loop"
    | .switch => "Switch"
  record "FlowTarget" [("kind", word kind), ("id", nodeId t.id)]

def block (n : Node) (statements : List Outline) : Outline :=
  nodeRecord "Block" n [("statements", list statements)]

def ifFields (condition : Expr) (thenBranch elseBranch : Outline) : List (String × Outline) :=
  [("condition", expr condition), ("then_branch", thenBranch), ("else_branch", elseBranch)]

mutual

def stmt : Stmt → Outline
  | .expr n e => node "Expr" "ExprStmt" n [("expr", expr e)]
  | .keywordCall n keyword argument =>
    node "KeywordCall" "KeywordCall" n
      [("keyword", callKeyword keyword), ("argument", optionalExpr argument)]
  | .flow n kind target =>
    node "FlowControl" "FlowControl" n [("kind", flowKind kind), ("target", flowTarget target)]
  | .block n statements => wrapped "Block" (block n (stmts statements))
  | .ifThen n condition thenBranch =>
    node "If" "IfStmt" n (ifFields condition (stmt thenBranch) (word "None"))
  | .ifElse n condition thenBranch elseBranch =>
    node "If" "IfStmt" n (ifFields condition (stmt thenBranch) (wrapped "Some" (stmt elseBranch)))
  | .whileLoop n condition body =>
    node "While" "WhileStmt" n [("condition", expr condition), ("body", stmt body)]
  | .forLoop n first condition step body =>
    node "For" "ForStmt" n
      [("init", optionalExpr first), ("condition", optionalExpr condition),
        ("step", optionalExpr step), ("body", stmt body)]
  | .foreachLoop n key value collection body =>
    node "Foreach" "ForeachStmt" n
      [("key", option (key.map ident)), ("value", ident value), ("collection", expr collection),
        ("body", stmt body)]
  | .switch n subject bodyNode statements cases =>
    node "Switch" "SwitchStmt" n
      [("subject", expr subject), ("body", block bodyNode (stmts statements)),
        ("cases", list (cases.map case))]

def stmts : List Stmt → List Outline
  | [] => []
  | s :: rest => stmt s :: stmts rest

end

def param (p : Param) : Outline :=
  record "Param"
    [("loc", location p.loc), ("name", option (p.name.map ident)),
      ("modifiers", record "ParamModifiers"
        [("by_ref", bool p.modifiers.byRef), ("variadic", bool p.modifiers.variadic),
          ("optional", bool p.modifiers.optional)])]

def function (f : FunctionDef) : Outline :=
  nodeRecord "FunctionDef" f.node
    [("name", ident f.name), ("params", list (f.params.map param)),
      ("body", option (f.body.map fun b => block b.node (stmts b.statements))),
      ("variadic", bool f.variadic), ("min_args", nat f.minArgs)]

def directive (d : Directive) : Outline :=
  let kind :=
    match d.kind with
    | .importScript path => wrapped "Import" (modulePath path)
    | .withArgs name args => record "Declarative" [("name", ident name), ("args", list (exprs args))]
    | .bare name => record "Listless" [("name", ident name)]
  nodeRecord "Directive" d.node [("kind", kind)]

def declaration : Declaration → Outline
  | .function f => wrapped "Function" (function f)
  | .directive d => wrapped "Directive" (directive d)

def constant (c : ConstantDecl) : Outline :=
  nodeRecord "ConstantDecl" c.node
    [("name", ident c.name), ("value", expr c.value), ("folded", option (c.folded.map value))]

def script (s : Script) : Outline :=
  record "Module"
    [("imports", list (s.imports.map directive)),
      ("declarations", list (s.declarations.map declaration)),
      ("constants", list (s.constants.map constant)), ("globals", list (s.globals.map ident)),
      ("declarative", bool s.declarative)]

end Outline

def Graph.outline : Graph → Outline
  | script s => .wrapped "Module" (Outline.script s)
  | function f => .wrapped "Function" (Outline.function f)
  | expression e => .wrapped "Expression" (Outline.expr e)

end GameScript
