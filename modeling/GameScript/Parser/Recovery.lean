import GameScript.Parser.Session

namespace GameScript.Session

/-- Keywords at which a fresh statement begins. `else`, `case` and `default` only continue one. -/
def isSyncKeyword (s : Session) (t : Token) : Bool :=
  match t.keyword? s.gameMode with
  | some k => k.startsStatement && k != .elseKw && k != .caseKw && k != .defaultKw
  | none => false

/-- Gives up the current construct. Open blocks and statements that wait for a body stay open. -/
def enterRecovery (s : Session) : Session :=
  let s := s.clearExpr
  match s.mode with
  | .body _ =>
    { s with stmts := s.stmts.dropWhile PendingStmt.inHeader, recovery := some .statement }
  | .root _ => { s with mode := .root .idle, recovery := some (.root 0) }
  | .expression | .expressionEnd => { s with mode := .done }
  | .done => s

def recoverToken (s : Session) (r : Recovery) (t : Token) : Session :=
  match r with
  | .statement =>
    if t.isSymbol ';' then { s with recovery := none }
    else if t.isSymbol '\x7b' || t.isSymbol '\x7d' || t.isEof || s.isSyncKeyword t then
      { s with recovery := none }.defer
    else s
  | .root depth =>
    if t.isEof then { s with recovery := none }.defer
    else if t.isSymbol '\x7b' then { s with recovery := some (.root (depth + 1)) }
    else if t.isSymbol '\x7d' then
      { s with recovery := if depth ≤ 1 then none else some (.root (depth - 1)) }
    else if t.isSymbol ';' && depth == 0 then { s with recovery := none }
    else s

def resync (s : Session) (t : Token) : Session :=
  let s := s.enterRecovery
  match s.recovery with
  | some r => s.recoverToken r t
  | none => s

def rejectToken (s : Session) (t : Token) (expected : String) : Session :=
  (s.reportUnexpected t expected).resync t

def wrongTerminator (t : Token) (expected : Char) : Problem :=
  if expected = ';' then .missingSemicolon
  else .unexpected t.describe ("`" ++ expected.toString ++ "`")

/-- Goes on with `next` if the token is the expected symbol; otherwise complains, unless an error
has been reported before, and recovers. -/
def expect (s : Session) (t : Token) (expected : Char) (quiet : Bool) (next : Session → Session) :
    Session :=
  if t.isSymbol expected then next s
  else if quiet then s.resync t
  else (s.report (wrongTerminator t expected) t.loc).resync t

end GameScript.Session
