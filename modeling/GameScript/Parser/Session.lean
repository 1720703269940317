import GameScript.Config
import GameScript.Diagnostic.Problem
import GameScript.Fold.Evaluate
import GameScript.Parser.Pending
import GameScript.TokenStream

namespace GameScript

structure Session where
  stream : TokenStream
  config : ParserConfig
  mode : Mode
  recovery : Option Recovery := none
  expr : Option ExprState := none
  stmts : List PendingStmt := []
  script : Script := {}
  constants : Constants := []
  output : Option Graph := none
  warned : Array Complaint := #[]
  failed : Array Complaint := #[]
  halted : Bool := false
  nextId : Nat := 0
  /-- A case was met that no session should meet. -/
  panicked : Bool := false

namespace Session

def ofTokens (tokens : List Token) (config : ParserConfig) : Session :=
  let mode :=
    match config.target with
    | .script | .function => Mode.root .idle
    | .expression => .expression
  { stream := .ofList tokens, config := config, mode := mode }

def gameMode (s : Session) : GameMode :=
  s.config.dialect.mode

def isFinished (s : Session) : Bool :=
  s.halted ||
    match s.mode with
    | .done => true
    | _ => false

def warnings (s : Session) : Array Diagnostic :=
  s.warned.map Complaint.diagnostic

def errors (s : Session) : Array Diagnostic :=
  s.failed.map Complaint.diagnostic

def record (s : Session) (c : Complaint) : Session :=
  match c.severity with
  | .warning => { s with warned := s.warned.push c }
  | .error => { s with failed := s.failed.push c }
  | .fatal => { s with failed := s.failed.push c, halted := true }

def raises (config : ParserConfig) (p : Problem) : Bool :=
  p.severity = .error && config.breakOnFirstError

def report (s : Session) (p : Problem) (loc : Location) : Session :=
  s.record ⟨p, loc, raises s.config p⟩

def reportUnexpected (s : Session) (t : Token) (expected : String) : Session :=
  s.report (.unexpected t.describe expected) t.loc

def withId (s : Session) : Nat × Session :=
  (s.nextId, { s with nextId := s.nextId + 1 })

def withNode (s : Session) (loc : Location) : Node × Session :=
  (⟨s.nextId, loc⟩, { s with nextId := s.nextId + 1 })

def placeholder (s : Session) (loc : Location) : Expr × Session :=
  (.literal ⟨s.nextId, loc⟩ ⟨.undefined, "undefined", false⟩, { s with nextId := s.nextId + 1 })

def beginExpr (s : Session) (context : ExprContext) : Session :=
  { s with expr := some { context := context } }

def clearExpr (s : Session) : Session :=
  { s with expr := none }

def pushStmt (s : Session) (p : PendingStmt) : Session :=
  { s with stmts := p :: s.stmts }

def replaceStmt (s : Session) (p : PendingStmt) : Session :=
  { s with stmts := p :: s.stmts.tail }

def popStmt (s : Session) : Session :=
  { s with stmts := s.stmts.tail }

def inRoot (s : Session) (phase : RootPhase) : Session :=
  { s with mode := .root phase }

def defer (s : Session) : Session :=
  { s with stream := s.stream.defer }

def plainName? (s : Session) (t : Token) : Option Ident :=
  if t.kind = .identifier ∧ (t.keyword? s.gameMode).isNone then some ⟨t.text, t.loc⟩ else none

end Session

end GameScript
