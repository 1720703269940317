import GameScript.Parser.Declaration
import GameScript.Parser.SwitchLabels

/-!
The statement automaton. A finished statement completes every statement that waits for it as a body,
until an open block takes it.
-/

namespace GameScript.Session

/-! Completion -/

/-- The block takes a statement, unless it is a switch body without a label so far. -/
def addToBlock (s : Session) (b : PendingBlock) (rest : List PendingStmt) (stmt : Stmt) : Session :=
  let add : Session := { s with stmts := .block { b with statements := stmt :: b.statements } :: rest }
  match b.role with
  | .switchBody labels =>
    if labels.groups.isEmpty then { s with stmts := .block b :: rest }.report .statementBeforeCase stmt.loc
    else add
  | _ => add

def bind (s : Session) : List PendingStmt → Stmt → Session
  | [], _ => { s with stmts := [] }
  | top :: rest, stmt =>
    match top with
    | .block b => s.addToBlock b rest stmt
    | .ifStmt node (.thenBranch condition) =>
      { s with stmts := .ifStmt node (.awaitElse condition stmt) :: rest }
    | top =>
      if top.awaitsBody then
        match top.complete? stmt with
        | some whole => s.bind rest whole
        | none => { s with stmts := rest, panicked := true }
      else { s with stmts := top :: rest }

def finishStmt (s : Session) (stmt : Stmt) : Session :=
  s.bind s.stmts stmt

def bindEmptyBody (s : Session) (loc : Location) : Session :=
  let (node, s) := s.withNode loc
  s.finishStmt (.block node [])

/-! Switch labels -/

def addLabel (s : Session) (label : CaseLabel) (value : Option Value) (loc : Location) : Session :=
  match s.stmts with
  | .block ⟨node, .switchBody labels, statements⟩ :: rest =>
    let place := statements.length
    match labelProblem? s.config.allowDefaultWithCase labels (labels.groupAt place) label value with
    | some problem => s.report problem loc
    | none =>
      let labels := labels.add place label value loc
      { s with stmts := .block ⟨node, .switchBody labels, statements⟩ :: rest }
  | _ => s

/-! Closing braces -/

def closeSwitch (s : Session) (b : PendingBlock) (labels : SwitchLabels) (t : Token) : Session :=
  match s.stmts with
  | .switch node (.body subject) :: rest =>
    let s := { s with stmts := rest }
    let cases := closeGroups b.statements.length labels.groups
    let s := if cases.isEmpty then s.report .emptySwitch node.loc else s
    let s :=
      match redundantBreak? node.id b.statements with
      | some loc => s.report (.redundantBreak t.loc) loc
      | none => s
    s.finishStmt (.switch node subject b.node b.statements.reverse cases)
  | stmts => { s with stmts := stmts.tail }

def closeFunction (s : Session) (b : PendingBlock) : Session :=
  match s.mode with
  | .body header =>
    ({ s with stmts := [] }.inRoot .idle).defineFunction
      (header.define (some ⟨b.node, b.statements.reverse⟩))
  | _ => { s with stmts := [] }.inRoot .idle

def closeBlock (s : Session) (b : PendingBlock) (t : Token) : Session :=
  let s := s.popStmt
  match b.role with
  | .nested => s.finishStmt (.block b.node b.statements.reverse)
  | .switchBody labels => s.closeSwitch b labels t
  | .functionBody => s.closeFunction b

def closeBrace (s : Session) (t : Token) : Session :=
  let complain (s : Session) : Session := s.report (.unexpected "`\x7d`" "a statement") t.loc
  match s.stmts with
  | .block b :: _ => s.closeBlock b t
  | top :: _ => if top.awaitsBody then ((complain s).bindEmptyBody t.loc).defer else complain s
  | [] => complain s

/-! Expressions that statements wait for -/

def statementDone (s : Session) (completed : Completed) (t : Token) : Session :=
  match completed with
  | .value e =>
    if e.hasEffect then
      s.expect t ';' false fun s =>
        let (node, s) := s.withNode e.loc
        s.finishStmt (.expr node e)
    else (s.report (.noEffect e.text) e.loc).expect t ';' false fun s => s
  | .empty => s.rejectToken t "a statement"
  | .failed => s.expect t ';' true fun s => s

def required (s : Session) (completed : Completed) (t : Token) (missing : Problem)
    (next : Session → Expr → Session) : Session :=
  let s :=
    match completed with
    | .empty => s.report missing t.loc
    | _ => s
  s.expect t ')' completed.isFailed fun s =>
    match completed with
    | .value e => next s e
    | _ =>
      let (e, s) := s.placeholder t.loc
      next s e

def conditionDone (s : Session) (completed : Completed) (t : Token) : Session :=
  s.required completed t .missingCondition fun s e =>
    match s.stmts with
    | .ifStmt node _ :: _ => s.replaceStmt (.ifStmt node (.thenBranch e))
    | .whileLoop node _ :: _ => s.replaceStmt (.whileLoop node (.body e))
    | .switch node _ :: _ => s.replaceStmt (.switch node (.body e))
    | _ => s

def collectionDone (s : Session) (completed : Completed) (t : Token) : Session :=
  s.required completed t .missingCollection fun s e =>
    match s.stmts with
    | .foreachLoop node (.collection key value) :: _ =>
      s.replaceStmt (.foreachLoop node (.body key value e))
    | _ => s

def nextForPhase (clause : ForClause) (first condition e : Option Expr) : ForPhase :=
  match clause with
  | .first => .clause .condition e none
  | .condition => .clause .step first e
  | .step => .body first condition e

def forClauseDone (s : Session) (clause : ForClause) (completed : Completed) (t : Token) : Session :=
  s.expect t (if clause = .step then ')' else ';') completed.isFailed fun s =>
    let s :=
      match s.stmts with
      | .forLoop node (.clause _ first condition) :: _ =>
        s.replaceStmt
          (.forLoop node (nextForPhase clause first condition completed.value?))
      | _ => s
    match clause with
    | .first => s.beginExpr (.forClause .condition)
    | .condition => s.beginExpr (.forClause .step)
    | .step => s

def argumentProblem? (node : Node) (keyword : CallKeyword) (argument : Option Expr) :
    Option (Problem × Location) :=
  match keyword, argument with
  | .waitCall, none => some (.waitWithoutDuration, node.loc)
  | .waitTillFrameEndCall, some e | .breakpointCall, some e =>
    some (.unwantedArgument keyword.text, e.loc)
  | _, _ => none

def keywordArgDone (s : Session) (completed : Completed) (t : Token) : Session :=
  match s.stmts with
  | .keywordCall node keyword :: _ =>
    s.popStmt.expect t ';' completed.isFailed fun s =>
      if completed.isFailed then s
      else
        match argumentProblem? node keyword completed.value? with
        | some (problem, loc) => s.report problem loc
        | none => s.finishStmt (.keywordCall node keyword completed.value?)
  | _ => s.popStmt

/-- A case value must be a constant; the label stays even if it is none. -/
def caseValue (s : Session) (e : Expr) (loc : Location) : Session :=
  let label := CaseLabel.value (Fold.noteRead s.constants.lookup? e)
  match Fold.evaluate s.constants.lookup? e with
  | .ok v => s.addLabel label (some v) loc
  | .error reason => (s.report (.caseNotConstant e.text reason) e.loc).addLabel label none loc

def caseLabelDone (s : Session) (completed : Completed) (t : Token) : Session :=
  match s.stmts with
  | .caseLabel loc :: _ =>
    s.popStmt.expect t ':' completed.isFailed fun s =>
      match completed with
      | .value e => s.caseValue e loc
      | .empty => s.report .missingCaseValue t.loc
      | .failed => s
  | _ => s.popStmt

/-! Headers -/

def openHeader (s : Session) : Session :=
  match s.stmts with
  | .ifStmt node _ :: _ => (s.replaceStmt (.ifStmt node .condition)).beginExpr .condition
  | .whileLoop node _ :: _ => (s.replaceStmt (.whileLoop node .condition)).beginExpr .condition
  | .switch node _ :: _ => (s.replaceStmt (.switch node .condition)).beginExpr .condition
  | .forLoop node _ :: _ =>
    (s.replaceStmt (.forLoop node (.clause .first none none))).beginExpr (.forClause .first)
  | .foreachLoop node _ :: _ => s.replaceStmt (.foreachLoop node (.names .none))
  | _ => s

def bindsIterator (stmts : List PendingStmt) (name : Ident) : Bool :=
  stmts.any fun p => p.iterators.any fun n => n.same name

def iteratorName (s : Session) (node : Node) (names : IteratorNames) (name : Ident) : Session :=
  let s := if bindsIterator s.stmts name then s.report (.shadowedIterator name.name) name.loc else s
  s.replaceStmt (.foreachLoop node (.names names))

def beginCollection (s : Session) (node : Node) (key : Option Ident) (value : Ident) : Session :=
  (s.replaceStmt (.foreachLoop node (.collection key value))).beginExpr .foreachCollection

def iteratorToken (s : Session) (node : Node) (names : IteratorNames) (t : Token) : Session :=
  let isIn := t.isKeyword .inKw s.gameMode
  match names, s.plainName? t with
  | .none, some name => s.iteratorName node (.one name) name
  | .oneMore key, some name => s.iteratorName node (.two key name) name
  | .none, none | .oneMore _, none => s.rejectToken t "an iterator name"
  | .one _, some _ | .two .., some _ => s.rejectToken t "`,` or `in`"
  | .one name, none =>
    if t.isSymbol ',' then s.replaceStmt (.foreachLoop node (.names (.oneMore name)))
    else if isIn then s.beginCollection node none name
    else s.rejectToken t "`,` or `in`"
  | .two key value, none =>
    if isIn then s.beginCollection node (some key) value else s.rejectToken t "`,` or `in`"

def openSwitchBody (s : Session) (t : Token) : Session :=
  s.expect t '\x7b' false fun s =>
    let (node, s) := s.withNode t.loc
    s.pushStmt (.block ⟨node, .switchBody {}, []⟩)

def headerToken? (s : Session) (t : Token) : Option Session :=
  match s.stmts with
  | .ifStmt _ .start :: _ | .whileLoop _ .start :: _ | .switch _ .start :: _
  | .forLoop _ .start :: _ | .foreachLoop _ .start :: _ => some (s.expect t '(' false openHeader)
  | .foreachLoop node (.names names) :: _ => some (s.iteratorToken node names t)
  | .switch _ (.body _) :: _ => some (s.openSwitchBody t)
  | .flow node kind target :: _ =>
    some (s.expect t ';' false fun s => s.popStmt.finishStmt (.flow node kind target))
  | .defaultLabel loc :: _ =>
    some (s.expect t ':' false fun s => s.popStmt.addLabel (.default loc) none loc)
  | _ => none

/-! Starts of statements -/

def startKeywordCall (s : Session) (keyword : CallKeyword) (loc : Location) : Session :=
  let (node, s) := s.withNode loc
  (s.pushStmt (.keywordCall node keyword)).beginExpr .keywordArg

/-- The innermost loop or switch for `break`, the innermost loop for `continue`. -/
def flowTarget? (stmts : List PendingStmt) (kind : FlowKind) : Option FlowTarget :=
  (stmts.filterMap PendingStmt.flowTarget?).find? fun target =>
    kind == .breakFlow || target.kind == .loop

def startFlow (s : Session) (kind : FlowKind) (loc : Location) : Session :=
  match flowTarget? s.stmts kind with
  | none => (s.report (.flowOutside kind) loc).enterRecovery
  | some target =>
    let (node, s) := s.withNode loc
    s.pushStmt (.flow node kind target)

def inSwitchBody (s : Session) : Bool :=
  match s.stmts with
  | .block ⟨_, .switchBody _, _⟩ :: _ => true
  | _ => false

def startLabel (s : Session) (k : Keyword) (loc : Location) (next : Session → Session) : Session :=
  if s.inSwitchBody then next s else (s.report (.labelOutsideSwitch k.spelling) loc).enterRecovery

def pushNew (s : Session) (loc : Location) (stmt : Node → PendingStmt) : Session :=
  let (node, s) := s.withNode loc
  s.pushStmt (stmt node)

def startKeyword? (s : Session) (k : Keyword) (loc : Location) : Option Session :=
  match k with
  | .ifKw => some (s.pushNew loc (.ifStmt · .start))
  | .whileKw => some (s.pushNew loc (.whileLoop · .start))
  | .forKw => some (s.pushNew loc (.forLoop · .start))
  | .foreachKw => some (s.pushNew loc (.foreachLoop · .start))
  | .switchKw => some (s.pushNew loc (.switch · .start))
  | .returnKw => some (s.startKeywordCall .returnCall loc)
  | .waitKw => some (s.startKeywordCall .waitCall loc)
  | .waitTillFrameEndKw => some (s.startKeywordCall .waitTillFrameEndCall loc)
  | .breakpointKw => some (s.startKeywordCall .breakpointCall loc)
  | .breakKw => some (s.startFlow .breakFlow loc)
  | .continueKw => some (s.startFlow .continueFlow loc)
  | .caseKw =>
    some (s.startLabel k loc fun s => (s.pushStmt (.caseLabel loc)).beginExpr .caseLabel)
  | .defaultKw => some (s.startLabel k loc fun s => s.pushStmt (.defaultLabel loc))
  | .elseKw => some ((s.report .elseWithoutIf loc).enterRecovery)
  | _ => none

def straySemicolon (s : Session) (t : Token) : Session :=
  let s := s.report .straySemicolon t.loc
  match s.stmts with
  | top :: _ => if top.awaitsBody then s.bindEmptyBody t.loc else s
  | [] => s

def awaitElse (s : Session) (node : Node) (condition : Expr) (thenBranch : Stmt) (t : Token) :
    Session :=
  if t.isKeyword .elseKw s.gameMode then
    s.replaceStmt (.ifStmt node (.elseBranch condition thenBranch))
  else (s.popStmt.finishStmt (.ifThen node condition thenBranch)).defer

end GameScript.Session
