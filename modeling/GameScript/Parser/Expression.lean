import GameScript.Parser.Recovery

/-!
The expression automaton. A token opens an unfinished part, completes the operand in the slot, joins
finished operators, or ends the expression. Symbols of several characters are assembled here, from
adjacent tokens only.
-/

namespace GameScript

inductive ExprFlow
  | consumed
  /-- The token belongs to whatever the expression is for. -/
  | terminated
deriving DecidableEq, Repr

/-- The state of the session with the expression under construction set apart. -/
abbrev ExprMove := Session × ExprFlow

namespace ExprState

def calleeAllowed (x : ExprState) : Bool :=
  x.slot.isNone &&
    match x.stack with
    | top :: _ => !top.refusesCallee
    | [] => true

def topIsLead (x : ExprState) : Bool :=
  match x.stack with
  | top :: _ => top.isLead
  | [] => false

def operandAllowed (x : ExprState) : Bool :=
  x.calleeAllowed && !x.topIsLead

def push (x : ExprState) (p : PendingExpr) : ExprState :=
  { x with stack := p :: x.stack, slot := none }

def close (x : ExprState) (e : Expr) : ExprState :=
  { x with stack := x.stack.tail, slot := some e }

/-- Joins the operators at the top that `p` selects with the operand; nothing else can be joined. -/
def foldStack (p : PendingExpr → Bool) :
    List PendingExpr → Expr → Nat → Option (List PendingExpr × Expr × Nat)
  | [], operand, id => some ([], operand, id)
  | top :: rest, operand, id =>
    if p top then (top.complete? id operand).bind fun e => foldStack p rest e (id + 1)
    else some (top :: rest, operand, id)

def bindsBefore (op : Operator) : PendingExpr → Bool
  | .unary .. => true
  | .binary top _ => op.precedence ≤ top.precedence
  | _ => false

end ExprState

namespace Session

def keep (s : Session) (x : ExprState) : ExprMove :=
  ({ s with expr := some x }, .consumed)

def ended (s : Session) (x : ExprState) : ExprMove :=
  ({ s with expr := some x }, .terminated)

def fail (s : Session) (p : Problem) (loc : Location) (t : Token) : ExprMove :=
  (((s.report p loc).clearExpr).resync t, .consumed)

def failUnexpected (s : Session) (t : Token) (expected : String) : ExprMove :=
  s.fail (.unexpected t.describe expected) t.loc t

def failFound (s : Session) (t : Token) (found expected : String) : ExprMove :=
  s.fail (.unexpected found expected) t.loc t

def foldWhile (s : Session) (x : ExprState) (p : PendingExpr → Bool) (t : Token) :
    Except Problem (Session × ExprState) :=
  match x.stack with
  | [] => .ok (s, x)
  | top :: _ =>
    if p top then
      match x.slot with
      | none => .error (.missingOperand t.describe)
      | some operand =>
        match ExprState.foldStack p x.stack operand s.nextId with
        | some (stack, e, id) =>
          .ok ({ s with nextId := id }, { x with stack := stack, slot := some e })
        | none => .ok ({ s with panicked := true }, x)
    else .ok (s, x)

def folded (s : Session) (x : ExprState) (t : Token) (next : Session → ExprState → ExprMove) :
    ExprMove :=
  match s.foldWhile x PendingExpr.isOperator t with
  | .ok (s, x) => next s x
  | .error p => s.fail p t.loc t

def lookahead (s : Session) (allowed : List Char) (limit : Nat) : List Char × Session :=
  let (run, stream) := s.stream.symbols allowed limit
  (run, { s with stream := stream })

def discard (s : Session) (n : Nat) : Session :=
  { s with stream := s.stream.commit n }

/-! Operands -/

def literalToken (s : Session) (x : ExprState) (kind : LiteralKind) (t : Token) : ExprMove :=
  if x.operandAllowed then
    let (node, s) := s.withNode t.loc
    s.keep { x with slot := some (.literal node ⟨kind, t.text, false⟩) }
  else s.failUnexpected t (if x.slot.isSome then "an operator" else "a function name")

def setVariable (s : Session) (x : ExprState) (name : Ident) : ExprMove :=
  let (node, s) := s.withNode name.loc
  s.keep { x with slot := some (.var node name) }

def nameToken (s : Session) (x : ExprState) (t : Token) : ExprMove :=
  let name : Ident := ⟨t.text, t.loc⟩
  match x.stack, x.slot with
  | .member target :: _, _ =>
    let (node, s) := s.withNode target.loc
    s.keep (x.close (.member node target name))
  | .path loc segments true :: rest, _ =>
    s.keep { x with stack := .path loc (segments ++ [name]) false :: rest }
  | .qualified loc qualifier :: _, _ =>
    let (node, s) := s.withNode loc
    s.keep (x.close (.func node ⟨name, qualifier⟩))
  | stack, some receiver =>
    match stack with
    | .lead .. :: _ | .pointerReady .. :: _ | .path .. :: _ => s.failUnexpected t "`(`"
    | _ => s.setVariable (x.push (.lead receiver.loc ⟨some receiver, none⟩)) name
  | _, none => if x.calleeAllowed then s.setVariable x name else s.failUnexpected t "`(`"

def modifierToken (s : Session) (x : ExprState) (modifier : CallModifier) (t : Token) : ExprMove :=
  match x.slot, x.stack with
  | some receiver, _ =>
    if x.topIsLead then s.failUnexpected t "`(`"
    else s.keep (x.push (.lead receiver.loc ⟨some receiver, some modifier⟩))
  | none, .lead loc lead :: rest =>
    if lead.modifier.isSome then s.fail (.duplicateModifier modifier.text) t.loc t
    else s.keep { x with stack := .lead loc { lead with modifier := some modifier } :: rest }
  | none, _ =>
    if x.operandAllowed then s.keep (x.push (.lead t.loc ⟨none, some modifier⟩))
    else s.failUnexpected t "an identifier"

/-- Behind a point every word is a name. Elsewhere most keywords end the expression. -/
def identifierToken (s : Session) (x : ExprState) (t : Token) : ExprMove :=
  match x.stack with
  | .member _ :: _ => s.nameToken x t
  | _ =>
    match t.keyword? s.gameMode with
    | none => s.nameToken x t
    | some .trueKw | some .falseKw => s.literalToken x .bool t
    | some .undefinedKw => s.literalToken x .undefined t
    | some .threadKw => s.modifierToken x .thread t
    | some .childThreadKw => s.modifierToken x .childThread t
    | some _ => s.ended x

/-! Brackets and lists -/

def callTarget? : Expr → Option FunctionRef
  | .var _ name => some ⟨name, .unqualified⟩
  | .func _ target => some target
  | _ => none

def openCall (x : ExprState) (loc : Location) (callee : Callee) : ExprState :=
  match x.stack with
  | .lead loc lead :: rest => { x with stack := .call loc lead callee [] :: rest, slot := none }
  | stack => { x with stack := .call loc {} callee [] :: stack, slot := none }

def openParen (s : Session) (x : ExprState) (t : Token) : ExprMove :=
  match x.stack, x.slot with
  | .pointerReady loc lead pointer :: rest, _ =>
    s.keep { x with stack := .call loc lead (.pointer pointer) [] :: rest }
  | _, none =>
    if x.operandAllowed then s.keep (x.push (.group t.loc []))
    else s.failUnexpected t "a function name"
  | _, some e =>
    match callTarget? e with
    | some target => s.keep (openCall x e.loc (.function target))
    | none => s.fail (.notCallable e.text) e.loc t

def sealCall (node : Node) (lead : CallLead) (callee : Callee) (args : List Expr) : Expr :=
  match callee with
  | .function target => .call node lead.receiver lead.modifier target args
  | .pointer e => .pointerCall node lead.receiver lead.modifier e args

def closeGroup (s : Session) (x : ExprState) (loc : Location) (items : List Expr) (item : Expr) :
    ExprMove :=
  let (node, s) := s.withNode loc
  match items with
  | [] => s.keep (x.close (.group node item))
  | [a, b] => s.keep (x.close (.truple node a b item))
  | a :: rest =>
    (s.report (.trupleLength (rest.length + 2)) loc).keep (x.close (.group node a))

def closeParen (s : Session) (x : ExprState) (t : Token) : ExprMove :=
  s.folded x t fun s x =>
    match x.stack with
    | [] => s.ended x
    | .group loc items :: _ =>
      match x.slot with
      | some item => s.closeGroup x loc items item
      | none => s.fail (if items.isEmpty then .emptyParens else .missingBefore ")") t.loc t
    | .call loc lead callee args :: _ =>
      if x.slot.isNone && !args.isEmpty then s.fail .missingArgument t.loc t
      else
        let (node, s) := s.withNode loc
        s.keep (x.close (sealCall node lead callee (args ++ x.slot.toList)))
    | _ => s.failFound t "`)`" "an expression"

def comma (s : Session) (x : ExprState) (t : Token) : ExprMove :=
  s.folded x t fun s x =>
    match x.stack, x.slot with
    | [], _ => s.ended x
    | .group loc items :: rest, some item =>
      if items.length = 2 then ((s.report .trupleOverflow t.loc).clearExpr, .consumed)
      else s.keep { x with stack := .group loc (items ++ [item]) :: rest, slot := none }
    | .call loc lead callee args :: rest, some item =>
      s.keep { x with stack := .call loc lead callee (args ++ [item]) :: rest, slot := none }
    | .array loc items :: rest, some item =>
      s.keep { x with stack := .array loc (items ++ [item]) :: rest, slot := none }
    | .group .. :: _, none | .call .. :: _, none | .array .. :: _, none =>
      s.fail (.missingBefore ",") t.loc t
    | _, _ => s.failFound t "`,`" "an expression"

def openPointer (s : Session) (x : ExprState) (t : Token) : ExprMove :=
  match x.slot, x.stack with
  | some receiver, _ =>
    if x.topIsLead then s.failFound t "`[[`" "`(`"
    else s.keep (x.push (.pointerOpen receiver.loc ⟨some receiver, none⟩))
  | none, .lead loc lead :: rest => s.keep { x with stack := .pointerOpen loc lead :: rest }
  | none, _ =>
    if x.operandAllowed then s.keep (x.push (.pointerOpen t.loc {}))
    else s.failFound t "`[[`" "an expression"

def openBracket (s : Session) (x : ExprState) (t : Token) : ExprMove :=
  let (run, s) := s.lookahead ['['] 1
  if run.length = 1 then (s.discard 1).openPointer x t
  else
    match x.slot with
    | some target => s.keep (x.push (.index target))
    | none =>
      if x.operandAllowed then s.keep (x.push (.array t.loc []))
      else s.failFound t "`[`" "a function name"

def closePointer (s : Session) (x : ExprState) (loc : Location) (lead : CallLead)
    (rest : List PendingExpr) (t : Token) : ExprMove :=
  let (run, s) := s.lookahead [']'] 1
  if run.length ≠ 1 then s.failFound t "`]`" "`]]`"
  else
    let s := s.discard 1
    match x.slot with
    | some pointer => s.keep { x with stack := .pointerReady loc lead pointer :: rest, slot := none }
    | none => s.fail .missingPointer t.loc t

def closeBracket (s : Session) (x : ExprState) (t : Token) : ExprMove :=
  s.folded x t fun s x =>
    match x.stack with
    | [] => s.ended x
    | .pointerOpen loc lead :: rest => s.closePointer x loc lead rest t
    | .index target :: _ =>
      match x.slot with
      | some index =>
        let (node, s) := s.withNode target.loc
        s.keep (x.close (.index node target index))
      | none => s.fail .missingIndex t.loc t
    | .array loc items :: _ =>
      if x.slot.isNone && !items.isEmpty then s.fail (.missingBefore "]") t.loc t
      else
        let (node, s) := s.withNode loc
        s.keep (x.close (.array node (items ++ x.slot.toList)))
    | _ => s.failFound t "`]`" "an expression"

/-! Names -/

def point (s : Session) (x : ExprState) (t : Token) : ExprMove :=
  match x.slot with
  | some target => s.keep (x.push (.member target))
  | none => s.failFound t "`.`" "an expression"

def pathSeparator (s : Session) (x : ExprState) (t : Token) : ExprMove :=
  match x.stack, x.slot with
  | .path loc segments false :: rest, none =>
    s.keep { x with stack := .path loc segments true :: rest }
  | _, some (.var node first) => s.keep (x.push (.path node.loc [first] true))
  | _, _ => s.failFound t "`\\`" "a module path"

def colon (s : Session) (x : ExprState) (t : Token) : ExprMove :=
  let (run, s) := s.lookahead [':'] 1
  if run.length ≠ 1 then s.ended x
  else
    let s := s.discard 1
    match x.stack, x.slot with
    | .path loc segments false :: rest, none =>
      s.keep { x with stack := .qualified loc (.path segments) :: rest }
    | _, some (.var node first) => s.keep (x.push (.qualified node.loc (.path [first])))
    | _, none =>
      if x.calleeAllowed then s.keep (x.push (.qualified t.loc .own))
      else s.failFound t "`::`" "an operator"
    | _, some _ => s.failFound t "`::`" "an operator"

/-! Operators -/

/-- In front of an operand only the first character counts. -/
def unaryToken (s : Session) (x : ExprState) (first : Char) (t : Token) : ExprMove :=
  match Operator.ofSpelling? first.toString .before with
  | none => s.failUnexpected t "an expression"
  | some op =>
    if x.operandAllowed then s.keep (x.push (.unary t.loc op))
    else s.failUnexpected t "an identifier"

def suffixToken (s : Session) (x : ExprState) (op : Operator) (operand : Expr) (t : Token) :
    ExprMove :=
  if operand.isAssignable then
    let (node, s) := s.withNode operand.loc
    s.keep { x with slot := some (.suffix node op operand) }
  else s.fail (.notAssignable operand.text) operand.loc t

def assignTarget (s : Session) (x : ExprState) (op : Operator) (target : Expr) (t : Token) :
    ExprMove :=
  if !(x.stack.isEmpty && x.context.takesAssignment) && !s.config.allowAssignmentExpressions then
    ((s.report .assignmentExpression t.loc).clearExpr, .consumed)
  else if target.isAssignable then s.keep (x.push (.assign op target))
  else s.fail (.notAssignable target.text) target.loc t

def assignToken (s : Session) (x : ExprState) (op : Operator) (target : Expr) (t : Token) :
    ExprMove :=
  match x.stack with
  | .binary .. :: _ | .unary .. :: _ => s.fail (.assignsOperator op.spelling) t.loc t
  | .lead .. :: _ => s.failUnexpected t "`(`"
  | _ => s.assignTarget x op target t

def binaryToken (s : Session) (x : ExprState) (op : Operator) (t : Token) : ExprMove :=
  match s.foldWhile x (ExprState.bindsBefore op) t with
  | .error p => s.fail p t.loc t
  | .ok (s, x) =>
    match x.slot with
    | some left => s.keep (x.push (.binary op left))
    | none => s.keep x

def operatorBehind? (run : List Char) : Option Operator :=
  let spelling := String.ofList (run.take (Symbol.longestLength run))
  (Operator.ofSpelling? spelling .after).or (Operator.ofSpelling? spelling .between)

def operatorToken (s : Session) (x : ExprState) (first : Char) (t : Token) : ExprMove :=
  let (run, s) := s.lookahead Operator.spellingChars (Operator.maxSpellingLength - 1)
  match x.slot with
  | none => s.unaryToken x first t
  | some operand =>
    match operatorBehind? (first :: run) with
    | none => s.failUnexpected t "an operator"
    | some op =>
      let s := s.discard (op.spelling.length - 1)
      match op.fixity with
      | .after => s.suffixToken x op operand t
      | .assigning => s.assignToken x op operand t
      | .between => s.binaryToken x op t
      | .before => s.failUnexpected t "an operator"

/-! Dispatch -/

def symbolCharToken (s : Session) (x : ExprState) (c : Char) (t : Token) : ExprMove :=
  if c = '(' then s.openParen x t
  else if c = ')' then s.closeParen x t
  else if c = ',' then s.comma x t
  else if c = '[' then s.openBracket x t
  else if c = ']' then s.closeBracket x t
  else if c = '.' then s.point x t
  else if c = '\\' then s.pathSeparator x t
  else if c = ':' then s.colon x t
  else if Operator.spellingChars.contains c then s.operatorToken x c t
  else s.ended x

def symbolToken (s : Session) (x : ExprState) (t : Token) : ExprMove :=
  match t.symbol? with
  | none => s.ended x
  | some c =>
    match x.stack with
    | [] => s.symbolCharToken x c t
    | top :: _ =>
      if top.expectsName then s.failUnexpected t "an identifier"
      else
        match top with
        | .path .. => if c = '\\' ∨ c = ':' then s.symbolCharToken x c t else s.failUnexpected t "`::`"
        | .pointerReady .. => if c = '(' then s.symbolCharToken x c t else s.failUnexpected t "`(`"
        | _ => s.symbolCharToken x c t

def numberKind (text : String) : LiteralKind :=
  if text.toList.contains '.' then .float else .integer

def started (m : ExprMove) : ExprMove :=
  match m with
  | (s, .consumed) => ({ s with expr := s.expr.map fun x => { x with started := true } }, .consumed)
  | m => m

def exprToken (s : Session) (x : ExprState) (t : Token) : ExprMove :=
  started <|
    match t.kind with
    | .identifier => s.identifierToken x t
    | .number => s.literalToken x (numberKind t.text) t
    | .string => s.literalToken x .string t
    | .metaString => s.literalToken x .localized t
    | .resource => s.literalToken x .resource t
    | .symbol => s.symbolToken x t
    | .eof | .comment | .whitespace => s.ended x

/-- Ends the expression before a token: joins all operators, and nothing may be open. -/
def finishExpr (s : Session) (x : ExprState) (t : Token) : Session × Completed :=
  let s := s.clearExpr
  match s.foldWhile x PendingExpr.isOperator t with
  | .error p => (s.report p t.loc, .failed)
  | .ok (s, x) =>
    match x.stack with
    | top :: _ => (s.report (.openExpression top.complaint t.describe) t.loc, .failed)
    | [] =>
      match x.slot with
      | some e => (s, .value e)
      | none => (s, if x.started then .failed else .empty)

end Session

end GameScript
