import GameScript.Config
import GameScript.Tree.View

namespace GameScript

structure Line where
  depth : Nat
  text : String
deriving DecidableEq, Repr

def Line.render (width : Nat) (line : Line) : String :=
  String.ofList (List.replicate (line.depth * width) ' ') ++ line.text ++ "\n"

namespace Layout

def openBrace : String := "\x7b"

def closeBrace : String := "\x7d"

def braced (style : BraceStyle) (depth : Nat) (header : String) (body : List Line) : List Line :=
  match style with
  | .nextLine => ⟨depth, header⟩ :: ⟨depth, openBrace⟩ :: body ++ [⟨depth, closeBrace⟩]
  | .sameLine => ⟨depth, header ++ " " ++ openBrace⟩ :: body ++ [⟨depth, closeBrace⟩]

def clauseText (clause : Option Expr) : String :=
  match clause with
  | some e => " " ++ e.text
  | none => ""

def forHeader (first condition step : Option Expr) : String :=
  "for (" ++ ((first.map Expr.text).getD "") ++ ";" ++ clauseText condition ++ ";"
    ++ clauseText step ++ ")"

def foreachHeader (key : Option Ident) (value : Ident) (collection : Expr) : String :=
  let names :=
    match key with
    | some k => k.name ++ ", " ++ value.name
    | none => value.name
  "foreach (" ++ names ++ " in " ++ collection.text ++ ")"

def labelText : CaseLabel → String
  | .value e => "case " ++ e.text ++ ":"
  | .default _ => "default:"

def isBlock : Stmt → Bool
  | .block .. => true
  | _ => false

inductive Place
  | alone
  | under (header : String)
  | afterElse (lead : String)

namespace Place

def opening (depth : Nat) : Place → List Line
  | alone => []
  | under header => [⟨depth, header⟩]
  | afterElse lead => [⟨depth, lead⟩]

def inner (depth : Nat) : Place → Nat
  | alone => depth
  | under _ => depth + 1
  | afterElse _ => depth + 1

def ifOpening (depth : Nat) : Place → List Line
  | afterElse _ => []
  | place => place.opening depth

def ifInner (depth : Nat) : Place → Nat
  | afterElse _ => depth
  | place => place.inner depth

def ifLead : Place → String
  | afterElse lead => lead ++ " "
  | _ => ""

def single (depth : Nat) (place : Place) (text : String) : List Line :=
  place.opening depth ++ [⟨place.inner depth, text⟩]

def block (style : BraceStyle) (depth : Nat) (place : Place) (body : List Line) : List Line :=
  match place with
  | alone => ⟨depth, openBrace⟩ :: body ++ [⟨depth, closeBrace⟩]
  | under header => braced style depth header body
  | afterElse lead => braced style depth lead body

end Place

/-- The lines of a then branch without the brace that shares its line with `else`, and what that
line begins with. -/
def beforeElse (style : BraceStyle) (thenBranch : Stmt) (lines : List Line) : List Line × String :=
  if isBlock thenBranch ∧ style = .sameLine then (lines.dropLast, closeBrace ++ " else")
  else (lines, "else")

def caseLines (depth : Nat) (groups : List (List Line)) (c : Case) : List Line :=
  c.labels.map (fun l => ⟨depth, labelText l⟩) ++ ((groups.take c.stop).drop c.first).flatten

mutual

def stmtLines (style : BraceStyle) (depth : Nat) (place : Place) : Stmt → List Line
  | .expr _ e => place.single depth (e.text ++ ";")
  | .keywordCall _ keyword argument =>
    place.single depth (keyword.text ++ clauseText argument ++ ";")
  | .flow _ kind _ => place.single depth (kind.text ++ ";")
  | .block _ statements =>
    place.block style depth (groupLines style (depth + 1) statements).flatten
  | .ifThen _ condition thenBranch =>
    let header := place.ifLead ++ "if (" ++ condition.text ++ ")"
    place.ifOpening depth ++ stmtLines style (place.ifInner depth) (.under header) thenBranch
  | .ifElse _ condition thenBranch elseBranch =>
    let header := place.ifLead ++ "if (" ++ condition.text ++ ")"
    let lines := stmtLines style (place.ifInner depth) (.under header) thenBranch
    let (lines, lead) := beforeElse style thenBranch lines
    place.ifOpening depth ++ lines
      ++ stmtLines style (place.ifInner depth) (.afterElse lead) elseBranch
  | .whileLoop _ condition body =>
    let header := "while (" ++ condition.text ++ ")"
    place.opening depth ++ stmtLines style (place.inner depth) (.under header) body
  | .forLoop _ first condition step body =>
    let header := forHeader first condition step
    place.opening depth ++ stmtLines style (place.inner depth) (.under header) body
  | .foreachLoop _ key value collection body =>
    let header := foreachHeader key value collection
    place.opening depth ++ stmtLines style (place.inner depth) (.under header) body
  | .switch _ subject _ statements cases =>
    let inner := place.inner depth
    let groups := groupLines style (inner + 2) statements
    place.opening depth ++ braced style inner ("switch (" ++ subject.text ++ ")")
      (cases.flatMap (caseLines (inner + 1) groups))

def groupLines (style : BraceStyle) (depth : Nat) : List Stmt → List (List Line)
  | [] => []
  | s :: rest => stmtLines style depth .alone s :: groupLines style depth rest

end

def functionLines (style : BraceStyle) (f : FunctionDef) : List Line :=
  let header := f.name.name ++ "(" ++ commaList (f.params.map Param.text) ++ ")"
  match f.body with
  | some b => braced style 0 header (groupLines style 1 b.statements).flatten
  | none => [⟨0, header ++ ";"⟩]

end Layout

end GameScript
