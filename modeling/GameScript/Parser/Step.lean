import GameScript.Lexer.Lexer
import GameScript.Parser.Expression
import GameScript.Parser.Statement

namespace GameScript

namespace Session

/-! Expressions and their owners -/

def topLevelDone (s : Session) (completed : Completed) (t : Token) : Session :=
  let s :=
    match completed with
    | .value e => { s with output := some (.expression e) }
    | .empty => s.report .missingExpression t.loc
    | .failed => s
  if t.isSymbol ';' then { s with mode := .expressionEnd }
  else
    let s := if t.isEof then s else s.reportUnexpected t "`;` or end of input"
    { s with mode := .done }

def exprDone (s : Session) (context : ExprContext) (completed : Completed) (t : Token) : Session :=
  match context with
  | .statement => s.statementDone completed t
  | .condition => s.conditionDone completed t
  | .forClause clause => s.forClauseDone clause completed t
  | .foreachCollection => s.collectionDone completed t
  | .keywordArg => s.keywordArgDone completed t
  | .caseLabel => s.caseLabelDone completed t
  | .constValue => s.constValueDone completed t
  | .directiveArgs => s.directiveArgDone completed t
  | .topLevel => s.topLevelDone completed t

def feedExpr (s : Session) (t : Token) : Session :=
  match s.expr with
  | none => s
  | some x =>
    match s.exprToken x t with
    | (s, .consumed) => s
    | (s, .terminated) =>
      let (s, completed) := s.finishExpr (s.expr.getD x) t
      s.exprDone x.context completed t

/-! Function bodies -/

def startExprStmt (s : Session) (t : Token) : Session :=
  (s.beginExpr .statement).feedExpr t

def startStmt (s : Session) (t : Token) : Session :=
  if t.isSymbol '\x7b' then s.pushNew t.loc fun node => .block ⟨node, .nested, []⟩
  else if t.isSymbol '\x7d' then s.closeBrace t
  else if t.isSymbol ';' then s.straySemicolon t
  else if t.isEof then s.report .unbalancedBraces t.loc
  else
    match t.keyword? s.gameMode with
    | some k =>
      match s.startKeyword? k t.loc with
      | some s => s
      | none => s.startExprStmt t
    | none => s.startExprStmt t

def bodyToken (s : Session) (t : Token) : Session :=
  match s.stmts with
  | .ifStmt node (.awaitElse condition thenBranch) :: _ => s.awaitElse node condition thenBranch t
  | _ =>
    match s.headerToken? t with
    | some s => s
    | none => s.startStmt t

/-! Lone expressions -/

def expressionStart (s : Session) (t : Token) : Session :=
  if t.isEof then { s.report .missingExpression t.loc with mode := .done }
  else (s.beginExpr .topLevel).feedExpr t

def expressionEnd (s : Session) (t : Token) : Session :=
  let s := if t.isEof then s else s.reportUnexpected t "end of input"
  { s with mode := .done }

/-! Steps -/

def dispatch (s : Session) (t : Token) : Session :=
  match s.recovery with
  | some r => s.recoverToken r t
  | none =>
    if s.expr.isSome then s.feedExpr t
    else
      match s.mode with
      | .root phase => s.rootToken phase t
      | .body _ => s.bodyToken t
      | .expression => s.expressionStart t
      | .expressionEnd => s.expressionEnd t
      | .done => s

def step (s : Session) : Session :=
  if s.isFinished then s
  else
    let (t, stream) := s.stream.read
    let s := { s with stream := stream }
    if t.isTrivia then s else s.dispatch t

def steps : Nat → Session → Session
  | 0, s => s
  | n + 1, s => if s.isFinished then s else steps n s.step

/-- More steps than any session takes: each token is read once, and it is delivered again at most
once for every phase that it takes off an unfinished statement. -/
def stepBound (s : Session) : Nat :=
  16 * (s.stream.size + s.stmts.length + 2)

def run (s : Session) : Session :=
  steps s.stepBound s

def progress (s : Session) : Float32 :=
  s.stream.progress

end Session

structure ParseOutput where
  graph : Option Graph
  warnings : List Diagnostic
  errors : List Diagnostic
  halted : Bool

namespace ParseOutput

def isSuccess (o : ParseOutput) : Bool :=
  o.graph.isSome && o.errors.isEmpty

end ParseOutput

def Session.finish (s : Session) : ParseOutput :=
  if s.halted then ⟨none, s.warnings.toList, s.errors.toList, true⟩
  else if s.isFinished then ⟨s.output, s.warnings.toList, s.errors.toList, false⟩
  else
    let d := Problem.unfinishedSession.diagnose s.stream.peek.loc
    ⟨none, s.warnings.toList, (s.errors.push d).toList, false⟩

def parse (tokens : List Token) (config : ParserConfig) : ParseOutput :=
  (Session.ofTokens tokens config).run.finish

def parseSource (source : String) (config : ParserConfig) : Except LexError ParseOutput :=
  (lex source config.dialect).map fun tokens => parse tokens config

end GameScript
