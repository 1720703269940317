import GameScript.Fold.Arithmetic
import GameScript.Location
import GameScript.Tree.Stmt

namespace GameScript

inductive Severity
  | warning
  | error
  | fatal
deriving DecidableEq, Repr

def Severity.text : Severity → String
  | warning => "warning"
  | error => "error"
  | fatal => "fatal error"

structure Diagnostic where
  severity : Severity
  message : String
  loc : Location
  length : Nat := 1
  notes : List String := []
  hints : List String := []
deriving DecidableEq, Repr

inductive Problem
  | unexpected (found expected : String)
  | missingSemicolon
  | straySemicolon
  | unbalancedBraces
  | unfinishedSession
  -- Expressions
  | missingExpression
  | openExpression (what ended : String)
  | missingOperand (before : String)
  | duplicateModifier (modifier : String)
  | notCallable (text : String)
  | emptyParens
  | missingBefore (closer : String)
  | missingArgument
  | trupleLength (count : Nat)
  | trupleOverflow
  | missingPointer
  | missingIndex
  | notAssignable (text : String)
  | assignsOperator (spelling : String)
  | assignmentExpression
  -- Statements
  | noEffect (text : String)
  | shadowedIterator (name : String)
  | labelOutsideSwitch (spelling : String)
  | elseWithoutIf
  | flowOutside (kind : FlowKind)
  | statementBeforeCase
  | emptySwitch
  | redundantBreak (closed : Location)
  | duplicateDefault
  | defaultWithCase
  | duplicateCase (value : String)
  | missingCondition
  | missingCollection
  | waitWithoutDuration
  | unwantedArgument (keyword : String)
  | missingCaseValue
  | caseNotConstant (text : String) (reason : FoldError)
  -- Declarations
  | missingFunction
  | lateDeclarative (spelling : String)
  | constantWithoutValue (name : String)
  | duplicateConstant (name : String)
  | constantNotFolded (name : String) (reason : FoldError)
  | repeatedModifier (found : String)
  | duplicateParam (name : String)
  | variadicNotLast
  | requiredAfterOptional
  | bodyInDeclarative
  | missingBody (name : String)
  | duplicateFunction (name : String)

namespace Problem

def quote (text : String) : String :=
  "`" ++ text ++ "`"

def severity : Problem → Severity
  | straySemicolon | shadowedIterator _ | emptySwitch | redundantBreak _ => .warning
  | unbalancedBraces | assignmentExpression | trupleOverflow => .fatal
  | _ => .error

def message : Problem → String
  | unexpected found expected => "unexpected " ++ found ++ ", expected " ++ expected
  | missingSemicolon => "expected `;`"
  | straySemicolon => "stray `;`"
  | unbalancedBraces => "unexpected end of input: unbalanced braces"
  | unfinishedSession => "parse session ended before the end of input"
  | missingExpression => "expected an expression"
  | openExpression what _ => what
  | missingOperand before => "missing operand before " ++ before
  | duplicateModifier modifier => "duplicate call modifier " ++ quote modifier
  | notCallable text => quote text ++ " is not callable"
  | emptyParens => "empty parentheses"
  | missingBefore closer => "expected an expression before " ++ quote closer
  | missingArgument => "expected an argument after `,`"
  | trupleLength _ | trupleOverflow => "a truple takes exactly three items"
  | missingPointer => "expected a function pointer inside `[[ ]]`"
  | missingIndex => "expected an index inside `[]`"
  | notAssignable text => "cannot assign to " ++ quote text
  | assignsOperator spelling => quote spelling ++ " needs a variable on its left"
  | assignmentExpression => "assignment used as an expression"
  | noEffect text => "expression " ++ quote text ++ " has no effect"
  | shadowedIterator name => "iterator " ++ quote name ++ " shadows an enclosing foreach iterator"
  | labelOutsideSwitch spelling => quote spelling ++ " label outside of a switch body"
  | elseWithoutIf => "`else` without a matching `if`"
  | flowOutside .breakFlow => "`break` outside of a loop or switch"
  | flowOutside .continueFlow => "`continue` outside of a loop"
  | statementBeforeCase => "statement before the first `case` label"
  | emptySwitch => "empty switch"
  | redundantBreak _ => "redundant `break` at the end of a switch"
  | duplicateDefault => "duplicate `default` label"
  | defaultWithCase => "`default` grouped with `case` labels"
  | duplicateCase value => "duplicate case value " ++ quote value
  | missingCondition => "expected a condition"
  | missingCollection => "expected a collection after `in`"
  | waitWithoutDuration => "`wait` needs a duration"
  | unwantedArgument keyword => quote keyword ++ " takes no argument"
  | missingCaseValue => "expected a case value"
  | caseNotConstant text _ => "case label " ++ quote text ++ " is not a constant"
  | missingFunction => "expected a function definition"
  | lateDeclarative spelling => quote spelling ++ " must come before every other declaration"
  | constantWithoutValue name => "constant " ++ quote name ++ " needs a value"
  | duplicateConstant name => "constant " ++ quote name ++ " is already defined"
  | constantNotFolded name _ =>
    "value of constant " ++ quote name ++ " is not a constant expression"
  | repeatedModifier found => "repeated parameter modifier " ++ found
  | duplicateParam name => "duplicate parameter " ++ quote name
  | variadicNotLast => "a variadic parameter must be the last parameter"
  | requiredAfterOptional => "required parameter after an optional one"
  | bodyInDeclarative => "function bodies are not allowed in a declarative module"
  | missingBody name => "function " ++ quote name ++ " has no body"
  | duplicateFunction name => "function " ++ quote name ++ " is already defined"

def length : Problem → Nat
  | noEffect text | notAssignable text => text.utf8ByteSize
  | shadowedIterator name | duplicateConstant name | duplicateParam name
  | duplicateFunction name => name.utf8ByteSize
  | labelOutsideSwitch spelling | lateDeclarative spelling => spelling.utf8ByteSize
  | elseWithoutIf | waitWithoutDuration => 4
  | redundantBreak _ => 5
  | emptySwitch => 6
  | _ => 1

def notes : Problem → List String
  | openExpression _ ended => ["the expression ended at " ++ ended]
  | trupleLength count => ["found " ++ toString count ++ " items"]
  | notAssignable _ => ["only variables, indexers and member accesses can be assigned"]
  | assignmentExpression =>
    ["enable `allow_assignment_expressions` to accept chained assignments"]
  | redundantBreak closed => ["the switch ends at " ++ closed.text]
  | caseNotConstant _ reason | constantNotFolded _ reason => [reason.message]
  | missingBody _ => ["forward declarations are only allowed after `#declarative;`"]
  | _ => []

def hints : Problem → List String
  | missingSemicolon => ["statements end with `;`"]
  | straySemicolon => ["remove the empty statement"]
  | unbalancedBraces => ["add the missing `\x7d`"]
  | duplicateModifier _ => ["a call takes at most one of `thread` and `childthread`"]
  | notCallable _ => ["call a function pointer with `[[pointer]](args)`"]
  | assignsOperator _ =>
    ["an operator on the left of an assignment binds tighter than the assignment"]
  | assignmentExpression => ["split the assignment into its own statement"]
  | noEffect _ => ["only assignments, calls and `++`/`--` can stand alone"]
  | defaultWithCase =>
    ["give `default` its own statements, or enable `allow_default_with_case`"]
  | requiredAfterOptional =>
    ["mark it optional with `?`, or move it before the optional parameters"]
  | _ => []

def diagnose (p : Problem) (loc : Location) : Diagnostic :=
  ⟨p.severity, p.message, loc, p.length, p.notes, p.hints⟩

end Problem

structure Complaint where
  problem : Problem
  loc : Location
  raised : Bool

namespace Complaint

def severity (c : Complaint) : Severity :=
  if c.raised then .fatal else c.problem.severity

def diagnostic (c : Complaint) : Diagnostic :=
  { c.problem.diagnose c.loc with severity := c.severity }

end Complaint

end GameScript
