import GameScript.Layout.Format
import GameScript.Parser.Declaration
import GameScript.Parser.SwitchLabels
import GameScript.Tree.Relabel

namespace GameScript

namespace Relabel

def labels (r : Relabel) (l : SwitchLabels) : SwitchLabels :=
  ⟨l.groups.map r.switchCase, l.values, l.hasDefault⟩

def header (r : Relabel) (h : FunctionHeader) : FunctionHeader :=
  ⟨r.node h.node, r.ident h.name, h.params.map r.param⟩

variable (r : Relabel)

theorem text_path (p : ModulePath) : pathText (r.path p) = pathText p := by
  rw [pathText, path, List.map_map]
  rfl

theorem text_target (f : FunctionRef) : (r.target f).text = f.text := by
  obtain ⟨name, qualifier⟩ := f
  cases qualifier with
  | unqualified | own => rfl
  | path segments => simp only [FunctionRef.text, target, qualifier, text_path, ident]

mutual

theorem text_expr : ∀ e : Expr, (r.expr e).text = e.text
  | .var .. | .literal .. => rfl
  | .func _ target => r.text_target target
  | .index _ target index => by simp only [expr, Expr.text, text_expr target, text_expr index]
  | .member _ target name => by simp only [expr, Expr.text, text_expr target, ident]
  | .binary _ op left right => by simp only [expr, Expr.text, text_expr left, text_expr right]
  | .unary _ op operand => by simp only [expr, Expr.text, text_expr operand]
  | .suffix _ op operand => by simp only [expr, Expr.text, text_expr operand]
  | .group _ inner => by simp only [expr, Expr.text, text_expr inner]
  | .truple _ x y z => by simp only [expr, Expr.text, text_expr x, text_expr y, text_expr z]
  | .array _ items => by
    have harray : startsWithArray (r.exprs items) = startsWithArray items := by
      cases items with
      | nil => rfl
      | cons e es => cases e <;> rfl
    simp only [expr, Expr.text, harray, text_exprs items]
  | .assign _ op target value => by simp only [expr, Expr.text, text_expr target, text_expr value]
  | .call _ receiver modifier target args => by
    simp only [expr, Expr.text, text_target, text_expr? receiver, text_exprs args]
  | .pointerCall _ receiver modifier pointer args => by
    simp only [expr, Expr.text, text_expr pointer, text_expr? receiver, text_exprs args]

theorem text_expr? : ∀ e : Option Expr, receiverText (r.expr? e) = receiverText e
  | some e => by simp only [expr?, receiverText, text_expr e]
  | none => rfl

theorem text_exprs : ∀ es : List Expr, exprTexts (r.exprs es) = exprTexts es
  | [] => rfl
  | e :: es => by simp only [exprs, exprTexts, text_expr e, text_exprs es]

end

theorem isAssignable_expr (e : Expr) : (r.expr e).isAssignable = e.isAssignable := by
  cases e <;> rfl

theorem hasEffect_expr (e : Expr) : (r.expr e).hasEffect = e.hasEffect := by
  cases e <;> rfl

theorem same_ident (a b : Ident) : (r.ident a).same (r.ident b) = a.same b := rfl

theorem notConstant_expr (e : Expr) :
    (.error (.notConstant (r.expr e).text) : Fold.Result) = .error (.notConstant e.text) := by
  rw [text_expr]

theorem evaluate_expr (lookup : String → Option Value) :
    ∀ e : Expr, Fold.evaluate lookup (r.expr e) = Fold.evaluate lookup e
  | .literal .. | .var .. => rfl
  | .group _ inner => by simp only [expr, Fold.evaluate, evaluate_expr lookup inner]
  | .truple _ x y z => by
    simp only [expr, Fold.evaluate, evaluate_expr lookup x, evaluate_expr lookup y, evaluate_expr lookup z]
  | .unary _ op operand => by simp only [expr, Fold.evaluate, evaluate_expr lookup operand]
  | .binary _ op left right => by
    simp only [expr, Fold.evaluate, evaluate_expr lookup left, evaluate_expr lookup right]
  | .func n target => r.notConstant_expr (.func n target)
  | .index n target index => r.notConstant_expr (.index n target index)
  | .member n target name => r.notConstant_expr (.member n target name)
  | .suffix n op operand => r.notConstant_expr (.suffix n op operand)
  | .array n items => r.notConstant_expr (.array n items)
  | .assign n op target value =>
    r.notConstant_expr (.assign n op target value)
  | .call n receiver modifier target args =>
    r.notConstant_expr (.call n receiver modifier target args)
  | .pointerCall n receiver modifier pointer args =>
    r.notConstant_expr (.pointerCall n receiver modifier pointer args)

theorem noteRead_expr (lookup : String → Option Value) :
    ∀ e : Expr, Fold.noteRead lookup (r.expr e) = r.expr (Fold.noteRead lookup e)
  | .group _ inner => by simp only [expr, Fold.noteRead, noteRead_expr lookup inner]
  | .truple _ x y z => by
    simp only [expr, Fold.noteRead, evaluate_expr, noteRead_expr lookup x, noteRead_expr lookup y,
      noteRead_expr lookup z, apply_ite r.expr]
  | .unary _ op operand => by simp only [expr, Fold.noteRead, noteRead_expr lookup operand]
  | .binary _ op left right => by
    have hreach : Fold.reachesRight lookup op (r.expr left) = Fold.reachesRight lookup op left := by
      simp only [Fold.reachesRight, evaluate_expr]
    simp only [expr, Fold.noteRead, hreach, noteRead_expr lookup left, noteRead_expr lookup right, apply_ite r.expr]
  | .literal .. | .var .. | .func .. | .index .. | .member .. | .suffix .. | .array .. | .assign .. | .call ..
  | .pointerCall .. => rfl

theorem labelProblem?_label (allow : Bool) (l : SwitchLabels) (group : List CaseLabel) (label : CaseLabel)
    (value : Option Value) :
    labelProblem? allow (r.labels l) (group.map r.label) (r.label label) value =
      labelProblem? allow l group label value :=
  labelProblem?_map r.expr r.loc allow l group label value

theorem groupAt_labels (l : SwitchLabels) (place : Nat) : (r.labels l).groupAt place = (l.groupAt place).map r.label :=
  l.groupAt_map r.expr r.loc place

theorem add_labels (l : SwitchLabels) (place : Nat) (label : CaseLabel) (value : Option Value) (loc : Location) :
    (r.labels l).add place (r.label label) value (r.loc loc) = r.labels (l.add place label value loc) :=
  l.add_map r.expr r.loc place label value loc

theorem closeGroups_switchCase (stop : Nat) (groups : List Case) :
    closeGroups stop (groups.map r.switchCase) = (closeGroups stop groups).map r.switchCase :=
  closeGroups_map r.expr r.loc stop groups

theorem paramProblem?_param (params : List Param) (p : Param) :
    Session.paramProblem? (params.map r.param) (r.param p) =
      (Session.paramProblem? params p).map fun q => (q.1, r.loc q.2) := by
  have hsame (name : Ident) : ((params.map r.param).any fun q => (q.name.map fun n => n.same (r.ident name)).getD false) =
      params.any fun q => (q.name.map fun n => n.same name).getD false := by
    simp only [List.any_map, Function.comp_def, param, Option.map_map, same_ident]
  have hrepeated : ((r.param p).name.filter fun name =>
        (params.map r.param).any fun q => (q.name.map fun n => n.same name).getD false) =
      (p.name.filter fun name => params.any fun q => (q.name.map fun n => n.same name).getD false).map r.ident := by
    obtain ⟨loc, name, modifiers⟩ := p
    cases name with
    | none => rfl
    | some name => simp only [param, Option.map_some, Option.filter_some, hsame]; split <;> rfl
  unfold Session.paramProblem?
  simp only [hrepeated]
  cases p.name.filter _ with
  | some name => rfl
  | none =>
    have hvariadic : (fun q : Param => q.modifiers.variadic) ∘ r.param = fun q => q.modifiers.variadic := rfl
    have hoptional : (fun q : Param => q.modifiers.optional) ∘ r.param = fun q => q.modifiers.optional := rfl
    simp only [List.any_map, Option.map_none, hvariadic, hoptional, apply_ite (Option.map _), Option.map_some]
    rfl

theorem minArgs_param (params : List Param) : FunctionHeader.minArgs (params.map r.param) = FunctionHeader.minArgs params := by
  simp only [FunctionHeader.minArgs, List.findIdx?_map, List.filter_map, List.length_map]
  rfl

theorem define_header (h : FunctionHeader) (body : Option Block) :
    (r.header h).define (body.map r.block) = r.function (h.define body) := by
  simp only [FunctionHeader.define, header, function, minArgs_param, List.getLast?_map, Option.map_map]
  rfl

theorem findFunction?_script (s : Script) (name : String) :
    ((r.script s).findFunction? name).isSome = (s.findFunction? name).isSome := by
  have hfunctions : (r.script s).functions = s.functions.map r.function := by
    simp only [Script.functions, script, List.filterMap_map, List.map_filterMap]
    congr 1
    funext d
    cases d <;> rfl
  simp only [Script.findFunction?, hfunctions, List.find?_map, Option.isSome_map]
  rfl

theorem isFresh_script (s : Script) : Session.isFresh (r.script s) = Session.isFresh s := by
  simp [Session.isFresh, script]

theorem name_ident (n : Ident) : (r.ident n).name = n.name := rfl

theorem names_idents (ns : List Ident) : (ns.map r.ident).map Ident.name = ns.map Ident.name := by
  rw [List.map_map]
  rfl

theorem text_directive (d : Directive) : (r.directive d).text = d.text := by
  obtain ⟨node, kind⟩ := d
  cases kind with
  | importScript path => simp only [directive, directiveKind, Directive.text, text_path]
  | withArgs name args => simp only [directive, directiveKind, Directive.text, text_exprs, name_ident]
  | bare name => rfl

theorem text_param (p : Param) : (r.param p).text = p.text := by
  obtain ⟨loc, name, modifiers⟩ := p
  cases name <;> rfl

theorem text_label (l : CaseLabel) : Layout.labelText (r.label l) = Layout.labelText l := by
  cases l with
  | value e => simp only [label, Layout.labelText, text_expr]
  | default => rfl

theorem text_clause (e : Option Expr) : Layout.clauseText (e.map r.expr) = Layout.clauseText e := by
  cases e with
  | none => rfl
  | some e => simp only [Option.map_some, Layout.clauseText, text_expr]

theorem text_forHeader (first condition step : Option Expr) :
    Layout.forHeader (first.map r.expr) (condition.map r.expr) (step.map r.expr) =
      Layout.forHeader first condition step := by
  have hfirst : ((first.map r.expr).map Expr.text).getD "" = (first.map Expr.text).getD "" := by
    cases first with
    | none => rfl
    | some e => simp only [Option.map_some, text_expr]
  simp only [Layout.forHeader, hfirst, text_clause]

theorem text_foreachHeader (key : Option Ident) (value : Ident) (collection : Expr) :
    Layout.foreachHeader (key.map r.ident) (r.ident value) (r.expr collection) =
      Layout.foreachHeader key value collection := by
  cases key <;> simp only [Layout.foreachHeader, Option.map_none, Option.map_some, text_expr, name_ident]

theorem lines_case (depth : Nat) (groups : List (List Line)) (c : Case) :
    Layout.caseLines depth groups (r.switchCase c) = Layout.caseLines depth groups c := by
  simp only [Layout.caseLines, switchCase, List.map_map, Function.comp_def, text_label]

mutual

theorem lines_stmt (style : BraceStyle) (depth : Nat) (place : Layout.Place) :
    ∀ s : Stmt, Layout.stmtLines style depth place (r.stmt s) = Layout.stmtLines style depth place s
  | .expr _ e => by simp only [stmt, Layout.stmtLines, text_expr]
  | .keywordCall _ keyword argument => by simp only [stmt, Layout.stmtLines, expr?_eq_map, text_clause]
  | .flow .. => rfl
  | .block _ statements => by simp only [stmt, Layout.stmtLines, lines_group style (depth + 1) statements]
  | .ifThen _ condition thenBranch => by
    simp only [stmt, Layout.stmtLines, text_expr, lines_stmt style _ _ thenBranch]
  | .ifElse _ condition thenBranch elseBranch => by
    have hblock : Layout.isBlock (r.stmt thenBranch) = Layout.isBlock thenBranch := by cases thenBranch <;> rfl
    simp only [stmt, Layout.stmtLines, Layout.beforeElse, text_expr, hblock, lines_stmt style _ _ thenBranch,
      lines_stmt style _ _ elseBranch]
  | .whileLoop _ condition body => by simp only [stmt, Layout.stmtLines, text_expr, lines_stmt style _ _ body]
  | .forLoop _ first condition step body => by
    simp only [stmt, Layout.stmtLines, expr?_eq_map, text_forHeader, lines_stmt style _ _ body]
  | .foreachLoop _ key value collection body => by
    simp only [stmt, Layout.stmtLines, text_foreachHeader, lines_stmt style _ _ body]
  | .switch _ subject _ statements cases => by
    simp only [stmt, Layout.stmtLines, text_expr, lines_group style _ statements, List.flatMap_map, lines_case]

theorem lines_group (style : BraceStyle) (depth : Nat) :
    ∀ ss : List Stmt, Layout.groupLines style depth (r.stmts ss) = Layout.groupLines style depth ss
  | [] => rfl
  | s :: ss => by simp only [stmts, Layout.groupLines, lines_stmt style depth .alone s, lines_group style depth ss]

end

theorem lines_function (style : BraceStyle) (f : FunctionDef) :
    Layout.functionLines style (r.function f) = Layout.functionLines style f := by
  obtain ⟨node, name, params, body, variadic, minArgs⟩ := f
  have hparams : (params.map r.param).map Param.text = params.map Param.text := by
    simp only [List.map_map, Function.comp_def, text_param]
  cases body with
  | none => simp only [Layout.functionLines, function, hparams, Option.map_none, name_ident]
  | some b => simp only [Layout.functionLines, function, hparams, Option.map_some, name_ident, block, lines_group]

theorem item_declaration (style : BraceStyle) (d : Declaration) :
    Layout.declarationItem style (r.declaration d) = Layout.declarationItem style d := by
  cases d with
  | directive d => simp only [declaration, Layout.declarationItem, text_directive]
  | function f => simp only [declaration, Layout.declarationItem, lines_function]

theorem leading_script (s : Script) : Layout.leading (r.script s) = Layout.leading s := by
  obtain ⟨imports, declarations, constants, globals, declarative⟩ := s
  cases declarations with
  | nil => rfl
  | cons d ds => cases d <;> rfl

theorem item_import (d : Directive) : Layout.importItem (r.directive d) = Layout.importItem d := by
  simp only [Layout.importItem, text_directive]

theorem item_constant (c : ConstantDecl) : Layout.constantItem (r.constant c) = Layout.constantItem c := by
  simp only [Layout.constantItem, constant, text_expr, name_ident]

theorem items_globals (ns : List Ident) : Layout.globalItems (ns.map r.ident) = Layout.globalItems ns := by
  simp only [Layout.globalItems, List.isEmpty_map, names_idents]

theorem items_script (style : BraceStyle) (s : Script) : Layout.items style (r.script s) = Layout.items style s := by
  have hdeclarations : Layout.declarationItem style ∘ r.declaration = Layout.declarationItem style :=
    funext (r.item_declaration style)
  have himports : Layout.importItem ∘ r.directive = Layout.importItem := funext r.item_import
  have hconstants : Layout.constantItem ∘ r.constant = Layout.constantItem := funext r.item_constant
  rw [Layout.items, Layout.items, r.leading_script s]
  simp only [script, ← List.map_take, ← List.map_drop, List.map_map, hdeclarations, himports, hconstants, items_globals]

theorem lines_graph (config : FormatConfig) (g : Graph) :
    Layout.graphLines config (r.graph g) = Layout.graphLines config g := by
  cases g with
  | script s => simp only [graph, Layout.graphLines, items_script]
  | function f => simp only [graph, Layout.graphLines, lines_function]
  | expression e => simp only [graph, Layout.graphLines, text_expr]

theorem formatGraph_graph (config : FormatConfig) (g : Graph) :
    formatGraph config (r.graph g) = formatGraph config g := by
  rw [formatGraph, lines_graph, formatGraph]

end Relabel

end GameScript
