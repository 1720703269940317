import GameScript.Proofs.Bodies
import GameScript.Proofs.Composed
import GameScript.Proofs.Noted

namespace GameScript

def Ident.IsWord (d : Dialect) (n : Ident) : Prop :=
  ∃ t : Token, t.text = n.name ∧ t.IsPlain d.mode ∧ t.Lexed d

def Expr.Readable (d : Dialect) (afterValue : Bool) (e : Expr) : Prop :=
  ∃ ts, Spells d.mode e ts ∧ (∀ t ∈ ts, t.Lexed d) ∧ ∀ t ∈ ts.head?, t.Readable d afterValue

theorem Expr.Composed.readable {config : ParserConfig} {context : ExprContext} {e : Expr}
    (h : e.Composed config context) : e.Readable config.dialect false := by
  obtain ⟨ts, hs, hl⟩ := h.spells
  exact ⟨ts, hs, hl, fun t ht => (hl t (List.mem_of_mem_head? ht)).readable⟩

theorem Expr.Readable.noteRead {d : Dialect} {afterValue : Bool} {e : Expr} (h : e.Readable d afterValue)
    (lookup : String → Option Value) : (Fold.noteRead lookup e).Readable d afterValue := by
  obtain ⟨ts, hs, hl⟩ := h
  exact ⟨ts, hs.noteRead lookup, hl⟩

section Statements

variable (config : ParserConfig) (cs : Constants)

/-- Labels and statements as they are read into the body of a switch, the latest statement first. -/
inductive SwitchBody : SwitchLabels → List Stmt → Prop
  | start : SwitchBody {} []
  | value {labels : SwitchLabels} {statements : List Stmt} {e : Expr} {v : Value}
      (h : SwitchBody labels statements) (he : e.Composed config .caseLabel)
      (hv : Fold.evaluate cs.lookup? e = .ok v)
      (hp : labelProblem? config.allowDefaultWithCase labels (labels.groupAt statements.length)
        (.value (Fold.noteRead cs.lookup? e)) (some v) = none) (loc : Location) :
      SwitchBody (labels.add statements.length (.value (Fold.noteRead cs.lookup? e)) (some v) loc) statements
  | default {labels : SwitchLabels} {statements : List Stmt} (h : SwitchBody labels statements) (loc : Location)
      (hp : labelProblem? config.allowDefaultWithCase labels (labels.groupAt statements.length)
        (.default loc) none = none) :
      SwitchBody (labels.add statements.length (.default loc) none loc) statements
  | statement {labels : SwitchLabels} {statements : List Stmt} (h : SwitchBody labels statements)
      (hg : labels.groups ≠ []) (s : Stmt) : SwitchBody labels (s :: statements)

inductive Stmt.Composed : Bool → Stmt → Prop
  | expr {behind : Bool} {node : Node} {e : Expr} (h : e.Composed config .statement)
      (hr : e.Readable config.dialect behind) (he : e.hasEffect = true) : Composed behind (.expr node e)
  | keywordCall {behind : Bool} {node : Node} {keyword : CallKeyword} {argument : Option Expr}
      (hk : keyword.keyword.reservedIn config.dialect.mode = true)
      (h : ∀ e ∈ argument, e.Composed config .keywordArg)
      (hp : Session.argumentProblem? node keyword argument = none) :
      Composed behind (.keywordCall node keyword argument)
  | flow {behind : Bool} {node : Node} {kind : FlowKind} {target : FlowTarget} :
      Composed behind (.flow node kind target)
  | block {behind : Bool} {node : Node} {statements : List Stmt} (h : ∀ s ∈ statements, Composed false s) :
      Composed behind (.block node statements)
  | ifThen {behind : Bool} {node : Node} {condition : Expr} {thenBranch : Stmt}
      (hc : condition.Composed config .condition) (h : Composed true thenBranch) :
      Composed behind (.ifThen node condition thenBranch)
  | ifElse {behind : Bool} {node : Node} {condition : Expr} {thenBranch elseBranch : Stmt}
      (hc : condition.Composed config .condition) (h : Composed true thenBranch) (h' : Composed false elseBranch) :
      Composed behind (.ifElse node condition thenBranch elseBranch)
  | whileLoop {behind : Bool} {node : Node} {condition : Expr} {body : Stmt}
      (hc : condition.Composed config .condition) (h : Composed true body) :
      Composed behind (.whileLoop node condition body)
  | forLoop {behind : Bool} {node : Node} {first condition step : Option Expr} {body : Stmt}
      (hf : ∀ e ∈ first, e.Composed config (.forClause .first))
      (hc : ∀ e ∈ condition, e.Composed config (.forClause .condition))
      (hs : ∀ e ∈ step, e.Composed config (.forClause .step)) (h : Composed true body) :
      Composed behind (.forLoop node first condition step body)
  | foreachLoop {behind : Bool} {node : Node} {key : Option Ident} {value : Ident} {collection : Expr} {body : Stmt}
      (hk : ∀ n ∈ key, n.IsWord config.dialect) (hv : value.IsWord config.dialect)
      (hc : collection.Composed config .foreachCollection) (h : Composed true body) :
      Composed behind (.foreachLoop node key value collection body)
  | switch {behind : Bool} {node bodyNode : Node} {subject : Expr} {statements : List Stmt} {labels : SwitchLabels}
      (hs : subject.Composed config .condition) (hb : SwitchBody config cs labels statements)
      (h : ∀ s ∈ statements, Composed false s) :
      Composed behind (.switch node subject bodyNode statements.reverse (closeGroups statements.length labels.groups))

end Statements

inductive ParamsComposed (d : Dialect) : List Param → Prop
  | nil : ParamsComposed d []
  | snoc {params : List Param} {p : Param} (h : ParamsComposed d params) (hn : ∀ n ∈ p.name, n.IsWord d)
      (hd : p.name = none → p.modifiers = { variadic := true })
      (hp : Session.paramProblem? params p = none) : ParamsComposed d (params ++ [p])

structure FunctionDef.Composed (config : ParserConfig) (cs : Constants) (declared : Bool) (f : FunctionDef) :
    Prop where
  header : ∃ header : FunctionHeader, f = header.define f.body
  name : f.name.IsWord config.dialect
  params : ParamsComposed config.dialect f.params
  body : f.body.isNone = declared
  statements : ∀ s ∈ f.statements, s.Composed config cs false

def DirectiveKind.Composed (config : ParserConfig) : DirectiveKind → Prop
  | .importScript _ => False
  | .withArgs name args => name.IsWord config.dialect ∧ DirectiveName.ofWord? name.name ≠ some .includeFile ∧
      ∀ e ∈ args, e.Composed config .directiveArgs
  | .bare name => name.IsWord config.dialect ∧ DirectiveName.ofWord? name.name = none

def DirectiveKind.IsImport (d : Dialect) (kind : DirectiveKind) : Prop :=
  ∃ path, kind = .importScript path ∧ path ≠ [] ∧ ∀ n ∈ path, n.IsWord d

def Declaration.IsMark (d : Dialect) (x : Declaration) : Prop :=
  ∃ node name, x = .directive ⟨node, .bare name⟩ ∧ Ident.IsWord d name ∧
    DirectiveName.ofWord? name.name = some .declarative

def Declaration.Composed (config : ParserConfig) (cs : Constants) (declared : Bool) : Declaration → Prop
  | function f => ∃ before, Constants.Extends cs before ∧ f.Composed config before declared
  | directive d => d.kind.Composed config

inductive ConstantsComposed (config : ParserConfig) : List ConstantDecl → Prop
  | nil : ConstantsComposed config []
  | snoc {cs : List ConstantDecl} {node : Node} {name : Ident} {e : Expr} {v : Value}
      (h : ConstantsComposed config cs) (hn : name.IsWord config.dialect)
      (hd : (cs.any fun c => c.name.same name) = false) (he : e.Composed config .constValue)
      (hv : Fold.evaluate (foldedConstants cs).lookup? e = .ok v) :
      ConstantsComposed config (cs ++ [⟨node, name, Fold.noteRead (foldedConstants cs).lookup? e, some v⟩])

structure Script.Composed (config : ParserConfig) (s : Script) : Prop where
  imports : ∀ d ∈ s.imports, d.kind.IsImport config.dialect
  globals : ∀ n ∈ s.globals, n.IsWord config.dialect
  constants : ConstantsComposed config s.constants
  declarations : ∃ marks ds, s.declarations = marks ++ ds ∧
    (s.declarative = false ∧ marks = [] ∨
      s.declarative = true ∧ ∃ mark : Declaration, mark.IsMark config.dialect ∧ marks = [mark]) ∧
    ∀ d ∈ ds, d.Composed config (foldedConstants s.constants) s.declarative
  functions : s.functions.Pairwise fun f g => f.name.same g.name = false

def Graph.Composed (config : ParserConfig) : Graph → Prop
  | script s => s.Composed config
  | function f => f.Composed config [] false
  | expression _ => True

end GameScript
