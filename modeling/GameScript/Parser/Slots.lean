import GameScript.Parser.Step

/-!
The statement automaton over entries whose stage and slots are written apart: nothing in an entry keeps a
stage from being ahead of what has been filled in, and to seal an entry can fail.
-/

namespace GameScript

inductive IfStage
  | start
  | condition
  | thenBranch
  | awaitElse
  | elseBranch
deriving DecidableEq, Repr

inductive HeaderStage
  | start
  | condition
  | body
deriving DecidableEq, Repr

inductive ForStage
  | start
  | clause (clause : ForClause)
  | body
deriving DecidableEq, Repr

inductive ForeachStage
  | start
  | names (comma : Bool)
  | collection
  | body
deriving DecidableEq, Repr

inductive SlotRole
  | functionBody
  | nested
  | switchBody
deriving DecidableEq, Repr

structure SlotBlock where
  node : Node
  role : SlotRole
  statements : List Stmt := []
  labels : Option SwitchLabels := none

inductive SlotStmt
  | block (b : SlotBlock)
  | ifStmt (node : Node) (stage : IfStage) (condition : Option Expr) (thenBranch : Option Stmt)
  | whileLoop (node : Node) (stage : HeaderStage) (condition : Option Expr)
  | forLoop (node : Node) (stage : ForStage) (first condition step : Option Expr)
  | foreachLoop (node : Node) (stage : ForeachStage) (names : List Ident) (collection : Option Expr)
  | switch (node : Node) (stage : HeaderStage) (subject : Option Expr)
  | keywordCall (node : Node) (keyword : CallKeyword)
  | flow (node : Node) (kind : FlowKind) (target : FlowTarget)
  | caseLabel (loc : Location)
  | defaultLabel (loc : Location)

namespace SlotStmt

def inHeader : SlotStmt → Bool
  | block _ => false
  | ifStmt _ stage .. => stage = .start || stage = .condition
  | whileLoop _ stage _ => stage ≠ .body
  | switch .. => true
  | forLoop _ stage .. => stage ≠ .body
  | foreachLoop _ stage .. => stage ≠ .body
  | keywordCall .. | flow .. | caseLabel _ | defaultLabel _ => true

def awaitsBody : SlotStmt → Bool
  | ifStmt _ stage .. => stage = .thenBranch || stage = .elseBranch
  | whileLoop _ stage _ => stage = .body
  | forLoop _ stage .. => stage = .body
  | foreachLoop _ stage .. => stage = .body
  | _ => false

def flowTarget? : SlotStmt → Option FlowTarget
  | whileLoop node .body _ | forLoop node .body .. | foreachLoop node .body .. => some ⟨.loop, node.id⟩
  | switch node .body _ => some ⟨.switch, node.id⟩
  | _ => none

/-- The statement with the given body, if the slots that it needs are filled. The last name of a `foreach` is
its value, and the one before that its key. -/
def seal? (body : Stmt) : SlotStmt → Option Stmt
  | ifStmt node .elseBranch (some condition) (some thenBranch) => some (.ifElse node condition thenBranch body)
  | whileLoop node _ (some condition) => some (.whileLoop node condition body)
  | forLoop node _ first condition step => some (.forLoop node first condition step body)
  | foreachLoop node _ names (some collection) =>
    names.getLast?.map fun value => .foreachLoop node names.dropLast.getLast? value collection body
  | _ => none

def iterators : SlotStmt → List Ident
  | foreachLoop _ .body names _ => names
  | _ => []

def outline (p : SlotStmt) : PendingStmt :=
  if p.inHeader then .caseLabel .zero else .block ⟨⟨0, .zero⟩, .nested, []⟩

end SlotStmt

/-! Phases, taken apart -/

def BlockRole.slotRole : BlockRole → SlotRole
  | functionBody => .functionBody
  | nested => .nested
  | switchBody _ => .switchBody

def BlockRole.labels? : BlockRole → Option SwitchLabels
  | switchBody labels => some labels
  | _ => none

namespace IfPhase

def stage : IfPhase → IfStage
  | start => .start
  | condition => .condition
  | thenBranch _ => .thenBranch
  | awaitElse .. => .awaitElse
  | elseBranch .. => .elseBranch

def condition? : IfPhase → Option Expr
  | thenBranch c | awaitElse c _ | elseBranch c _ => some c
  | _ => none

def thenBranch? : IfPhase → Option Stmt
  | awaitElse _ stmt | elseBranch _ stmt => some stmt
  | _ => none

end IfPhase

namespace HeaderPhase

def stage : HeaderPhase → HeaderStage
  | start => .start
  | condition => .condition
  | body _ => .body

def expr? : HeaderPhase → Option Expr
  | body e => some e
  | _ => none

end HeaderPhase

namespace ForPhase

def stage : ForPhase → ForStage
  | start => .start
  | clause c _ _ => .clause c
  | body .. => .body

/-- A clause that is still to be read has left nothing. -/
def first? : ForPhase → Option Expr
  | clause .condition first _ | clause .step first _ | body first _ _ => first
  | _ => none

def condition? : ForPhase → Option Expr
  | clause .step _ c | body _ c _ => c
  | _ => none

def step? : ForPhase → Option Expr
  | body _ _ step => step
  | _ => none

end ForPhase

namespace IteratorNames

def list : IteratorNames → List Ident
  | none => []
  | one name | oneMore name => [name]
  | two key value => [key, value]

def behindComma : IteratorNames → Bool
  | oneMore _ => true
  | _ => false

end IteratorNames

namespace ForeachPhase

def stage : ForeachPhase → ForeachStage
  | start => .start
  | names ns => .names ns.behindComma
  | collection .. => .collection
  | body .. => .body

def iterators : ForeachPhase → List Ident
  | start => []
  | names ns => ns.list
  | collection key value | body key value _ => key.toList ++ [value]

def collection? : ForeachPhase → Option Expr
  | body _ _ e => some e
  | _ => none

end ForeachPhase

def PendingStmt.slotted : PendingStmt → SlotStmt
  | .block b => .block ⟨b.node, b.role.slotRole, b.statements, b.role.labels?⟩
  | .ifStmt node phase => .ifStmt node phase.stage phase.condition? phase.thenBranch?
  | .whileLoop node phase => .whileLoop node phase.stage phase.expr?
  | .forLoop node phase => .forLoop node phase.stage phase.first? phase.condition? phase.step?
  | .foreachLoop node phase => .foreachLoop node phase.stage phase.iterators phase.collection?
  | .switch node phase => .switch node phase.stage phase.expr?
  | .keywordCall node keyword => .keywordCall node keyword
  | .flow node kind target => .flow node kind target
  | .caseLabel loc => .caseLabel loc
  | .defaultLabel loc => .defaultLabel loc

/-- A session whose stack is one of such entries; that of `base` is empty. -/
structure SlotSession where
  base : Session
  stmts : List SlotStmt := []

def Session.slotted (s : Session) : SlotSession :=
  ⟨{ s with stmts := [] }, s.stmts.map PendingStmt.slotted⟩

namespace SlotSession

def ofTokens (tokens : List Token) (config : ParserConfig) : SlotSession :=
  ⟨.ofTokens tokens config, []⟩

def report (s : SlotSession) (p : Problem) (loc : Location) : SlotSession :=
  { s with base := s.base.report p loc }

def withNode (s : SlotSession) (loc : Location) : Node × SlotSession :=
  ((s.base.withNode loc).1, { s with base := (s.base.withNode loc).2 })

def beginExpr (s : SlotSession) (context : ExprContext) : SlotSession :=
  { s with base := s.base.beginExpr context }

def defer (s : SlotSession) : SlotSession :=
  { s with base := s.base.defer }

def pushStmt (s : SlotSession) (p : SlotStmt) : SlotSession :=
  { s with stmts := p :: s.stmts }

def replaceStmt (s : SlotSession) (p : SlotStmt) : SlotSession :=
  { s with stmts := p :: s.stmts.tail }

def popStmt (s : SlotSession) : SlotSession :=
  { s with stmts := s.stmts.tail }

/-- Outside of function bodies nothing is on the stack but what is pushed there and then. -/
def outside (s : SlotSession) (f : Session → Session) : SlotSession :=
  ⟨{ f s.base with stmts := [] }, (f s.base).stmts.map PendingStmt.slotted ++ s.stmts⟩

/-! Recovery -/

def enterRecovery (s : SlotSession) : SlotSession :=
  match s.base.mode with
  | .body _ => ⟨s.base.enterRecovery, s.stmts.dropWhile SlotStmt.inHeader⟩
  | _ => { s with base := s.base.enterRecovery }

def recoverToken (s : SlotSession) (r : Recovery) (t : Token) : SlotSession :=
  { s with base := s.base.recoverToken r t }

def resync (s : SlotSession) (t : Token) : SlotSession :=
  let s := s.enterRecovery
  match s.base.recovery with
  | some r => s.recoverToken r t
  | none => s

def rejectToken (s : SlotSession) (t : Token) (expected : String) : SlotSession :=
  (s.report (.unexpected t.describe expected) t.loc).resync t

def expect (s : SlotSession) (t : Token) (expected : Char) (quiet : Bool) (next : SlotSession → SlotSession) :
    SlotSession :=
  if t.isSymbol expected then next s
  else if quiet then s.resync t
  else (s.report (Session.wrongTerminator t expected) t.loc).resync t

/-! Completion -/

def addToBlock (s : SlotSession) (b : SlotBlock) (rest : List SlotStmt) (stmt : Stmt) : SlotSession :=
  if b.labels.any fun labels => labels.groups.isEmpty then
    { s with stmts := .block b :: rest }.report .statementBeforeCase stmt.loc
  else { s with stmts := .block { b with statements := stmt :: b.statements } :: rest }

/-- An entry that waits for its body and cannot be sealed is a case that must not be met. -/
def bind (s : SlotSession) : List SlotStmt → Stmt → SlotSession
  | [], _ => { s with stmts := [] }
  | top :: rest, stmt =>
    match top with
    | .block b => s.addToBlock b rest stmt
    | .ifStmt node .thenBranch condition _ =>
      { s with stmts := .ifStmt node .awaitElse condition (some stmt) :: rest }
    | top =>
      if top.awaitsBody then
        match top.seal? stmt with
        | some whole => s.bind rest whole
        | none => ⟨{ s.base with panicked := true }, rest⟩
      else { s with stmts := top :: rest }

def finishStmt (s : SlotSession) (stmt : Stmt) : SlotSession :=
  s.bind s.stmts stmt

def bindEmptyBody (s : SlotSession) (loc : Location) : SlotSession :=
  let (node, s) := s.withNode loc
  s.finishStmt (.block node [])

def addLabel (s : SlotSession) (label : CaseLabel) (value : Option Value) (loc : Location) : SlotSession :=
  match s.stmts with
  | .block ⟨node, role, statements, some labels⟩ :: rest =>
    let place := statements.length
    match labelProblem? s.base.config.allowDefaultWithCase labels (labels.groupAt place) label value with
    | some problem => s.report problem loc
    | none => { s with stmts := .block ⟨node, role, statements, some (labels.add place label value loc)⟩ :: rest }
  | _ => s

/-! Closing braces -/

def closeSwitch (s : SlotSession) (b : SlotBlock) (t : Token) : SlotSession :=
  match s.stmts with
  | .switch node _ (some subject) :: rest =>
    let s := { s with stmts := rest }
    let cases := closeGroups b.statements.length (b.labels.getD {}).groups
    let s := if cases.isEmpty then s.report .emptySwitch node.loc else s
    let s :=
      match redundantBreak? node.id b.statements with
      | some loc => s.report (.redundantBreak t.loc) loc
      | none => s
    s.finishStmt (.switch node subject b.node b.statements.reverse cases)
  | stmts => { s with stmts := stmts.tail }

def closeBlock (s : SlotSession) (b : SlotBlock) (t : Token) : SlotSession :=
  let s := s.popStmt
  match b.role with
  | .nested => s.finishStmt (.block b.node b.statements.reverse)
  | .switchBody => s.closeSwitch b t
  | .functionBody => ⟨s.base.closeFunction ⟨b.node, .functionBody, b.statements⟩, []⟩

def closeBrace (s : SlotSession) (t : Token) : SlotSession :=
  let complain (s : SlotSession) : SlotSession := s.report (.unexpected "`\x7d`" "a statement") t.loc
  match s.stmts with
  | .block b :: _ => s.closeBlock b t
  | top :: _ => if top.awaitsBody then ((complain s).bindEmptyBody t.loc).defer else complain s
  | [] => complain s

/-! Expressions that statements wait for -/

def statementDone (s : SlotSession) (completed : Completed) (t : Token) : SlotSession :=
  match completed with
  | .value e =>
    if e.hasEffect then
      s.expect t ';' false fun s =>
        let (node, s) := s.withNode e.loc
        s.finishStmt (.expr node e)
    else (s.report (.noEffect e.text) e.loc).expect t ';' false fun s => s
  | .empty => s.rejectToken t "a statement"
  | .failed => s.expect t ';' true fun s => s

def required (s : SlotSession) (completed : Completed) (t : Token) (missing : Problem)
    (next : SlotSession → Expr → SlotSession) : SlotSession :=
  let s :=
    match completed with
    | .empty => s.report missing t.loc
    | _ => s
  s.expect t ')' completed.isFailed fun s =>
    match completed with
    | .value e => next s e
    | _ => next { s with base := (s.base.placeholder t.loc).2 } (s.base.placeholder t.loc).1

def conditionDone (s : SlotSession) (completed : Completed) (t : Token) : SlotSession :=
  s.required completed t .missingCondition fun s e =>
    match s.stmts with
    | .ifStmt node _ _ thenBranch :: _ => s.replaceStmt (.ifStmt node .thenBranch (some e) thenBranch)
    | .whileLoop node _ _ :: _ => s.replaceStmt (.whileLoop node .body (some e))
    | .switch node _ _ :: _ => s.replaceStmt (.switch node .body (some e))
    | _ => s

def collectionDone (s : SlotSession) (completed : Completed) (t : Token) : SlotSession :=
  s.required completed t .missingCollection fun s e =>
    match s.stmts with
    | .foreachLoop node _ names _ :: _ => s.replaceStmt (.foreachLoop node .body names (some e))
    | _ => s

def fillClause (node : Node) (clause : ForClause) (first condition step e : Option Expr) : SlotStmt :=
  match clause with
  | .first => .forLoop node (.clause .condition) e condition step
  | .condition => .forLoop node (.clause .step) first e step
  | .step => .forLoop node .body first condition e

def forClauseDone (s : SlotSession) (clause : ForClause) (completed : Completed) (t : Token) : SlotSession :=
  s.expect t (if clause = .step then ')' else ';') completed.isFailed fun s =>
    let s :=
      match s.stmts with
      | .forLoop node _ first condition step :: _ =>
        s.replaceStmt (fillClause node clause first condition step completed.value?)
      | _ => s
    match clause with
    | .first => s.beginExpr (.forClause .condition)
    | .condition => s.beginExpr (.forClause .step)
    | .step => s

def keywordArgDone (s : SlotSession) (completed : Completed) (t : Token) : SlotSession :=
  match s.stmts with
  | .keywordCall node keyword :: _ =>
    s.popStmt.expect t ';' completed.isFailed fun s =>
      if completed.isFailed then s
      else
        match Session.argumentProblem? node keyword completed.value? with
        | some (problem, loc) => s.report problem loc
        | none => s.finishStmt (.keywordCall node keyword completed.value?)
  | _ => s.popStmt

def caseValue (s : SlotSession) (e : Expr) (loc : Location) : SlotSession :=
  let label := CaseLabel.value (Fold.noteRead s.base.constants.lookup? e)
  match Fold.evaluate s.base.constants.lookup? e with
  | .ok v => s.addLabel label (some v) loc
  | .error reason => (s.report (.caseNotConstant e.text reason) e.loc).addLabel label none loc

def caseLabelDone (s : SlotSession) (completed : Completed) (t : Token) : SlotSession :=
  match s.stmts with
  | .caseLabel loc :: _ =>
    s.popStmt.expect t ':' completed.isFailed fun s =>
      match completed with
      | .value e => s.caseValue e loc
      | .empty => s.report .missingCaseValue t.loc
      | .failed => s
  | _ => s.popStmt

def exprDone (s : SlotSession) (context : ExprContext) (completed : Completed) (t : Token) : SlotSession :=
  match context with
  | .statement => s.statementDone completed t
  | .condition => s.conditionDone completed t
  | .forClause clause => s.forClauseDone clause completed t
  | .foreachCollection => s.collectionDone completed t
  | .keywordArg => s.keywordArgDone completed t
  | .caseLabel => s.caseLabelDone completed t
  | .constValue => s.outside (·.constValueDone completed t)
  | .directiveArgs => s.outside (·.directiveArgDone completed t)
  | .topLevel => s.outside (·.topLevelDone completed t)

/-- An expression that is given up takes the unfinished headers off the stack, and nothing else. -/
def exprToken (s : SlotSession) (x : ExprState) (t : Token) : SlotSession × ExprFlow :=
  let (r, flow) := { s.base with stmts := s.stmts.map SlotStmt.outline }.exprToken x t
  (⟨{ r with stmts := [] }, s.stmts.drop (s.stmts.length - r.stmts.length)⟩, flow)

def feedExpr (s : SlotSession) (t : Token) : SlotSession :=
  match s.base.expr with
  | none => s
  | some x =>
    match s.exprToken x t with
    | (s, .consumed) => s
    | (s, .terminated) =>
      let (base, completed) := s.base.finishExpr (s.base.expr.getD x) t
      exprDone { s with base := base } x.context completed t

/-! Headers -/

def openHeader (s : SlotSession) : SlotSession :=
  match s.stmts with
  | .ifStmt node _ condition thenBranch :: _ =>
    (s.replaceStmt (.ifStmt node .condition condition thenBranch)).beginExpr .condition
  | .whileLoop node _ condition :: _ => (s.replaceStmt (.whileLoop node .condition condition)).beginExpr .condition
  | .switch node _ subject :: _ => (s.replaceStmt (.switch node .condition subject)).beginExpr .condition
  | .forLoop node _ first condition step :: _ =>
    (s.replaceStmt (.forLoop node (.clause .first) first condition step)).beginExpr (.forClause .first)
  | .foreachLoop node _ names collection :: _ => s.replaceStmt (.foreachLoop node (.names false) names collection)
  | _ => s

def bindsIterator (stmts : List SlotStmt) (name : Ident) : Bool :=
  stmts.any fun p => p.iterators.any fun n => n.same name

def iteratorToken (s : SlotSession) (node : Node) (comma : Bool) (names : List Ident) (collection : Option Expr)
    (t : Token) : SlotSession :=
  match s.base.plainName? t with
  | some name =>
    if names.length ≠ 0 ∧ ¬(comma = true ∧ names.length = 1) then s.rejectToken t "`,` or `in`"
    else
      let s := if bindsIterator s.stmts name then s.report (.shadowedIterator name.name) name.loc else s
      s.replaceStmt (.foreachLoop node (.names false) (names ++ [name]) collection)
  | none =>
    if t.isSymbol ',' = true ∧ names.length = 1 ∧ comma = false then
      s.replaceStmt (.foreachLoop node (.names true) names collection)
    else if t.isKeyword .inKw s.base.gameMode = true ∧ 0 < names.length ∧ comma = false then
      (s.replaceStmt (.foreachLoop node .collection names collection)).beginExpr .foreachCollection
    else s.rejectToken t (if names.length = 0 ∨ comma = true then "an iterator name" else "`,` or `in`")

def openSwitchBody (s : SlotSession) (t : Token) : SlotSession :=
  s.expect t '\x7b' false fun s =>
    let (node, s) := s.withNode t.loc
    s.pushStmt (.block ⟨node, .switchBody, [], some {}⟩)

def headerToken? (s : SlotSession) (t : Token) : Option SlotSession :=
  match s.stmts with
  | .ifStmt _ .start .. :: _ | .whileLoop _ .start _ :: _ | .switch _ .start _ :: _ | .forLoop _ .start .. :: _
  | .foreachLoop _ .start .. :: _ => some (s.expect t '(' false openHeader)
  | .foreachLoop node (.names comma) names collection :: _ => some (s.iteratorToken node comma names collection t)
  | .switch _ .body _ :: _ => some (s.openSwitchBody t)
  | .flow node kind target :: _ =>
    some (s.expect t ';' false fun s => s.popStmt.finishStmt (.flow node kind target))
  | .defaultLabel loc :: _ => some (s.expect t ':' false fun s => s.popStmt.addLabel (.default loc) none loc)
  | _ => none

/-! Starts of statements -/

def startKeywordCall (s : SlotSession) (keyword : CallKeyword) (loc : Location) : SlotSession :=
  let (node, s) := s.withNode loc
  (s.pushStmt (.keywordCall node keyword)).beginExpr .keywordArg

def flowTarget? (stmts : List SlotStmt) (kind : FlowKind) : Option FlowTarget :=
  (stmts.filterMap SlotStmt.flowTarget?).find? fun target => kind == .breakFlow || target.kind == .loop

def startFlow (s : SlotSession) (kind : FlowKind) (loc : Location) : SlotSession :=
  match flowTarget? s.stmts kind with
  | none => (s.report (.flowOutside kind) loc).enterRecovery
  | some target =>
    let (node, s) := s.withNode loc
    s.pushStmt (.flow node kind target)

def inSwitchBody (s : SlotSession) : Bool :=
  match s.stmts with
  | .block ⟨_, .switchBody, _, _⟩ :: _ => true
  | _ => false

def startLabel (s : SlotSession) (k : Keyword) (loc : Location) (next : SlotSession → SlotSession) : SlotSession :=
  if s.inSwitchBody then next s else (s.report (.labelOutsideSwitch k.spelling) loc).enterRecovery

def pushNew (s : SlotSession) (loc : Location) (stmt : Node → SlotStmt) : SlotSession :=
  let (node, s) := s.withNode loc
  s.pushStmt (stmt node)

def startKeyword? (s : SlotSession) (k : Keyword) (loc : Location) : Option SlotSession :=
  match k with
  | .ifKw => some (s.pushNew loc (.ifStmt · .start none none))
  | .whileKw => some (s.pushNew loc (.whileLoop · .start none))
  | .forKw => some (s.pushNew loc (.forLoop · .start none none none))
  | .foreachKw => some (s.pushNew loc (.foreachLoop · .start [] none))
  | .switchKw => some (s.pushNew loc (.switch · .start none))
  | .returnKw => some (s.startKeywordCall .returnCall loc)
  | .waitKw => some (s.startKeywordCall .waitCall loc)
  | .waitTillFrameEndKw => some (s.startKeywordCall .waitTillFrameEndCall loc)
  | .breakpointKw => some (s.startKeywordCall .breakpointCall loc)
  | .breakKw => some (s.startFlow .breakFlow loc)
  | .continueKw => some (s.startFlow .continueFlow loc)
  | .caseKw => some (s.startLabel k loc fun s => (s.pushStmt (.caseLabel loc)).beginExpr .caseLabel)
  | .defaultKw => some (s.startLabel k loc fun s => s.pushStmt (.defaultLabel loc))
  | .elseKw => some ((s.report .elseWithoutIf loc).enterRecovery)
  | _ => none

def straySemicolon (s : SlotSession) (t : Token) : SlotSession :=
  let s := s.report .straySemicolon t.loc
  match s.stmts with
  | top :: _ => if top.awaitsBody then s.bindEmptyBody t.loc else s
  | [] => s

def startExprStmt (s : SlotSession) (t : Token) : SlotSession :=
  (s.beginExpr .statement).feedExpr t

def startStmt (s : SlotSession) (t : Token) : SlotSession :=
  if t.isSymbol '\x7b' then s.pushNew t.loc fun node => .block ⟨node, .nested, [], none⟩
  else if t.isSymbol '\x7d' then s.closeBrace t
  else if t.isSymbol ';' then s.straySemicolon t
  else if t.isEof then s.report .unbalancedBraces t.loc
  else
    match t.keyword? s.base.gameMode with
    | some k =>
      match s.startKeyword? k t.loc with
      | some s => s
      | none => s.startExprStmt t
    | none => s.startExprStmt t

def awaitElse (s : SlotSession) (node : Node) (condition : Option Expr) (thenBranch : Option Stmt) (t : Token) :
    SlotSession :=
  if t.isKeyword .elseKw s.base.gameMode then s.replaceStmt (.ifStmt node .elseBranch condition thenBranch)
  else
    match condition, thenBranch with
    | some condition, some thenBranch => (s.popStmt.finishStmt (.ifThen node condition thenBranch)).defer
    | _, _ => s.popStmt.defer

/-! Steps -/

def bodyToken (s : SlotSession) (t : Token) : SlotSession :=
  match s.stmts with
  | .ifStmt node .awaitElse condition thenBranch :: _ => s.awaitElse node condition thenBranch t
  | _ =>
    match s.headerToken? t with
    | some s => s
    | none => s.startStmt t

def dispatch (s : SlotSession) (t : Token) : SlotSession :=
  match s.base.recovery with
  | some r => s.recoverToken r t
  | none =>
    if s.base.expr.isSome then s.feedExpr t
    else
      match s.base.mode with
      | .body _ => s.bodyToken t
      | _ => s.outside (·.dispatch t)

def step (s : SlotSession) : SlotSession :=
  if s.base.isFinished then s
  else
    let (t, stream) := s.base.stream.read
    let s := { s with base := { s.base with stream := stream } }
    if t.isTrivia then s else s.dispatch t

def steps : Nat → SlotSession → SlotSession
  | 0, s => s
  | n + 1, s => if s.base.isFinished then s else steps n s.step

end SlotSession

end GameScript
