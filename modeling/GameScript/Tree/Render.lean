import GameScript.Tree.Expr
import GameScript.Vocabulary.Operator

namespace GameScript

def commaList (texts : List String) : String :=
  String.intercalate ", " texts

def pathText (path : ModulePath) : String :=
  String.intercalate "\\" (path.map Ident.name)

def FunctionRef.text (f : FunctionRef) : String :=
  match f.qualifier with
  | .unqualified => f.name.name
  | .own => "::" ++ f.name.name
  | .path segments => pathText segments ++ "::" ++ f.name.name

def CallModifier.text (m : CallModifier) : String :=
  m.keyword.spelling

def modifierText : Option CallModifier → String
  | some m => m.text ++ " "
  | none => ""

def unaryText (op : Operator) (operand : String) : String :=
  let joins :=
    match operand.toList with
    | c :: _ => Symbol.extends? op.spelling && Operator.isSpelling (op.spelling ++ c.toString)
    | [] => false
  if joins then op.spelling ++ " " ++ operand else op.spelling ++ operand

def indexText (target index : String) : String :=
  target ++ "[" ++ (if index.toList.head? = some '[' then " " else "") ++ index ++ "]"

def startsWithArray : List Expr → Bool
  | .array .. :: _ => true
  | _ => false

mutual

def Expr.text : Expr → String
  | .var _ name => name.name
  | .func _ target => target.text
  | .index _ target index => indexText target.text index.text
  | .member _ target name => target.text ++ "." ++ name.name
  | .literal _ value => value.raw
  | .binary _ op left right => left.text ++ " " ++ op.spelling ++ " " ++ right.text
  | .unary _ op operand => unaryText op operand.text
  | .suffix _ op operand => operand.text ++ op.spelling
  | .group _ inner => "(" ++ inner.text ++ ")"
  | .truple _ x y z => "(" ++ x.text ++ ", " ++ y.text ++ ", " ++ z.text ++ ")"
  | .array _ items =>
    "[" ++ (if startsWithArray items then " " else "") ++ commaList (exprTexts items) ++ "]"
  | .assign _ op target value => target.text ++ " " ++ op.spelling ++ " " ++ value.text
  | .call _ receiver modifier target args =>
    receiverText receiver ++ modifierText modifier ++ target.text ++ "("
      ++ commaList (exprTexts args) ++ ")"
  | .pointerCall _ receiver modifier pointer args =>
    receiverText receiver ++ modifierText modifier ++ "[[" ++ pointer.text ++ "]]("
      ++ commaList (exprTexts args) ++ ")"

def receiverText : Option Expr → String
  | some e => e.text ++ " "
  | none => ""

def exprTexts : List Expr → List String
  | [] => []
  | e :: es => e.text :: exprTexts es

end

theorem exprTexts_eq_map (es : List Expr) : exprTexts es = es.map Expr.text := by
  induction es with
  | nil => rfl
  | cons e es ih => simp [exprTexts, ih]

end GameScript
