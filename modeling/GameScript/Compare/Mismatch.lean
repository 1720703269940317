import GameScript.Tree.View

namespace GameScript.Mismatch

def reportIf (differs : Bool) (message : String) : Option String :=
  if differs then some message else none

def counts (what : String) (left right : Nat) : Option String :=
  reportIf (left != right)
    (what ++ " count differs (" ++ toString left ++ " vs " ++ toString right ++ ")")

def names (what : String) (left right : Ident) : Option String :=
  reportIf (!left.same right) (what ++ " differs")

def sameName? : Option Ident → Option Ident → Bool
  | some x, some y => x.same y
  | none, none => true
  | _, _ => false

def sameFunction (left right : FunctionRef) : Bool :=
  left.name.same right.name &&
    match left.qualifier, right.qualifier with
    | .unqualified, .unqualified | .own, .own => true
    | .path a, .path b => samePath a b
    | _, _ => false

/-- Literals that do not decode are compared as text. -/
def sameLiteral (left right : Literal) : Bool :=
  match left.value, right.value with
  | .ok x, .ok y => x.same y
  | _, _ => left.raw == right.raw

def literals (left right : Literal) : Option String :=
  if left.kind ≠ right.kind then some "literal kind differs"
  else reportIf (!sameLiteral left right) "literal value differs"

def callShapes (leftReceiver rightReceiver : Option Expr) (leftModifier rightModifier : Option CallModifier)
    (leftArgs rightArgs : List Expr) : Option String :=
  if leftReceiver.isSome != rightReceiver.isSome then some "call self-expression differs"
  else if leftModifier != rightModifier then some "call modifier differs"
  else counts "argument" leftArgs.length rightArgs.length

def exprs : Expr → Expr → Option String
  | .var _ x, .var _ y => names "variable name" x y
  | .func _ x, .func _ y => reportIf (!sameFunction x y) "function reference differs"
  | .member _ _ x, .member _ _ y => names "member name" x y
  | .literal _ x, .literal _ y => literals x y
  | .binary _ p _ _, .binary _ q _ _ | .unary _ p _, .unary _ q _ | .suffix _ p _, .suffix _ q _ =>
    reportIf (p != q) "operator differs"
  | .assign _ p _ _, .assign _ q _ _ => reportIf (p != q) "assignment operator differs"
  | .array _ xs, .array _ ys => counts "array item" xs.length ys.length
  | .call _ r m f xs, .call _ s n g ys =>
    if sameFunction f g then callShapes r s m n xs ys else some "call target differs"
  | .pointerCall _ r m _ xs, .pointerCall _ s n _ ys => callShapes r s m n xs ys
  | _, _ => none

def rangeText (c : Case) : String :=
  toString c.first ++ ".." ++ toString c.stop

def cases (left right : Case) : Option String :=
  if left.first != right.first || left.stop != right.stop then
    some ("case range differs (" ++ rangeText left ++ " vs " ++ rangeText right ++ ")")
  else
    reportIf (left.labels.length != right.labels.length || left.isDefault != right.isDefault)
      "case labels differ"

def stmts : Stmt → Stmt → Option String
  | .keywordCall _ k x, .keywordCall _ l y =>
    if k ≠ l then some "keyword differs"
    else reportIf (x.isSome != y.isSome) "keyword argument differs"
  | .flow _ k s, .flow _ l t => reportIf (k != l || s.kind != t.kind) "flow control differs"
  | .block _ xs, .block _ ys => counts "statement" xs.length ys.length
  | .ifThen .., .ifElse .. | .ifElse .., .ifThen .. => some "else branch differs"
  | .forLoop _ a b c _, .forLoop _ x y z _ =>
    reportIf (a.isSome != x.isSome || b.isSome != y.isSome || c.isSome != z.isSome)
      "for clauses differ"
  | .foreachLoop _ k v _ _, .foreachLoop _ l w _ _ =>
    if sameName? k l then names "foreach iterator" v w else some "foreach key differs"
  | .switch _ _ _ xs cs, .switch _ _ _ ys ds =>
    (counts "case" cs.length ds.length).or <|
      (counts "statement" xs.length ys.length).or <|
        (cs.zip ds).findSome? fun (c, d) => cases c d
  | _, _ => none

def functions (left right : FunctionDef) : Option String :=
  (names "function name" left.name right.name).or <|
    (counts "parameter" left.params.length right.params.length).or <|
      (reportIf (left.body.isSome != right.body.isSome) "function body presence differs").or <|
        counts "statement" left.statements.length right.statements.length

def params (left right : Param) : Option String :=
  if sameName? left.name right.name then
    reportIf (left.modifiers != right.modifiers) "parameter modifiers differ"
  else some "parameter name differs"

def directives (left right : Directive) : Option String :=
  match left.kind, right.kind with
  | .importScript a, .importScript b => reportIf (!samePath a b) "import path differs"
  | .withArgs x xs, .withArgs y ys =>
    (names "directive name" x y).or (counts "directive argument" xs.length ys.length)
  | .bare x, .bare y => names "directive name" x y
  | _, _ => some "directive kind differs"

def sameFolded : Option Value → Option Value → Bool
  | some x, some y => x.same y
  | none, none => true
  | _, _ => false

def constants (left right : ConstantDecl) : Option String :=
  if left.name.same right.name then
    reportIf (!sameFolded left.folded right.folded) "folded constant value differs"
  else some "constant name differs"

def scripts (left right : Script) : Option String :=
  (reportIf (left.declarative != right.declarative) "declarative flag differs").or <|
    (counts "import" left.imports.length right.imports.length).or <|
      (counts "declaration" left.declarations.length right.declarations.length).or <|
        (counts "constant" left.constants.length right.constants.length).or <|
          (counts "global" left.globals.length right.globals.length).or <|
            (left.globals.zip right.globals).findSome? fun (x, y) => names "global name" x y

def views : View → View → Option String
  | .expr a, .expr b => exprs a b
  | .stmt a, .stmt b => stmts a b
  | .function a, .function b => functions a b
  | .param a, .param b => params a b
  | .directive a, .directive b => directives a b
  | .constant a, .constant b => constants a b
  | .script a, .script b => scripts a b
  | _, _ => none

end GameScript.Mismatch
