import GameScript.Layout.Format
import GameScript.Proofs.Pieces
import GameScript.Proofs.Turn

/-!
The pieces of formatted source. A line begins with a piece that stands apart, and so does every brace,
whichever line it is in; so a tree has the same pieces in every layout.
-/

namespace GameScript

def keywordPiece (apart : Bool) (k : Keyword) : Piece :=
  wordPiece apart k.spelling

def commaPieces {α : Type} (f : Bool → α → List Piece) (apart : Bool) : List α → List Piece
  | [] => []
  | a :: as => f apart a ++ as.flatMap fun a => symbolPiece false ',' :: f true a

theorem commaPieces_snoc {α : Type} (f : Bool → α → List Piece) (apart : Bool) {as : List α} (a : α) (h : as ≠ []) :
    commaPieces f apart (as ++ [a]) = commaPieces f apart as ++ symbolPiece false ',' :: f true a := by
  cases as with
  | nil => exact absurd rfl h
  | cons b as => simp [commaPieces]

def clausePieces (apart : Bool) (clause : Option Expr) : List Piece :=
  (clause.map (Expr.pieces apart)).getD []

def headerPieces (k : Keyword) (e : Expr) : List Piece :=
  keywordPiece true k :: symbolPiece true '(' :: e.pieces false ++ [symbolPiece false ')']

def forPieces (first condition step : Option Expr) : List Piece :=
  keywordPiece true .forKw :: symbolPiece true '(' :: clausePieces false first ++
    symbolPiece false ';' :: clausePieces true condition ++ symbolPiece false ';' :: clausePieces true step ++
    [symbolPiece false ')']

def iteratorPieces (key : Option Ident) (value : Ident) : List Piece :=
  match key with
  | some k => [wordPiece false k.name, symbolPiece false ',', wordPiece true value.name]
  | none => [wordPiece false value.name]

def foreachPieces (key : Option Ident) (value : Ident) (collection : Expr) : List Piece :=
  keywordPiece true .foreachKw :: symbolPiece true '(' :: iteratorPieces key value ++
    keywordPiece true .inKw :: collection.pieces true ++ [symbolPiece false ')']

def CaseLabel.pieces : CaseLabel → List Piece
  | value e => keywordPiece true .caseKw :: e.pieces true ++ [symbolPiece false ':']
  | default _ => [keywordPiece true .defaultKw, symbolPiece false ':']

def casePieces (groups : List (List Piece)) (c : Case) : List Piece :=
  c.labels.flatMap CaseLabel.pieces ++ ((groups.take c.stop).drop c.first).flatten

def bracedPieces (body : List Piece) : List Piece :=
  symbolPiece true '\x7b' :: body ++ [symbolPiece true '\x7d']

mutual

def Stmt.pieces : Stmt → List Piece
  | .expr _ e => e.pieces true ++ [symbolPiece false ';']
  | .keywordCall _ keyword argument =>
    keywordPiece true keyword.keyword :: clausePieces true argument ++ [symbolPiece false ';']
  | .flow _ kind _ => [keywordPiece true kind.keyword, symbolPiece false ';']
  | .block _ statements => bracedPieces (groupPieces statements).flatten
  | .ifThen _ condition thenBranch => headerPieces .ifKw condition ++ thenBranch.pieces
  | .ifElse _ condition thenBranch elseBranch =>
    headerPieces .ifKw condition ++ thenBranch.pieces ++ keywordPiece true .elseKw :: elseBranch.pieces
  | .whileLoop _ condition body => headerPieces .whileKw condition ++ body.pieces
  | .forLoop _ first condition step body => forPieces first condition step ++ body.pieces
  | .foreachLoop _ key value collection body => foreachPieces key value collection ++ body.pieces
  | .switch _ subject _ statements cases =>
    headerPieces .switchKw subject ++ bracedPieces (cases.flatMap (casePieces (groupPieces statements)))

def groupPieces : List Stmt → List (List Piece)
  | [] => []
  | s :: rest => s.pieces :: groupPieces rest

end

theorem groupPieces_eq_map (ss : List Stmt) : groupPieces ss = ss.map Stmt.pieces := by
  induction ss with
  | nil => rfl
  | cons s ss ih => simp [groupPieces, ih]

def Param.marks (p : Param) : List Char :=
  (if p.modifiers.byRef then ['&'] else []) ++ (if p.modifiers.optional then ['?'] else []) ++
    (if p.modifiers.variadic then ['.', '.', '.'] else [])

def Param.pieces (apart : Bool) (p : Param) : List Piece :=
  symbolPieces apart p.marks ++ (p.name.map fun n => wordPiece (apart && p.marks.isEmpty) n.name).toList

def FunctionDef.pieces (f : FunctionDef) : List Piece :=
  wordPiece true f.name.name :: symbolPiece false '(' :: commaPieces Param.pieces false f.params ++
    symbolPiece false ')' ::
      match f.body with
      | some b => bracedPieces (groupPieces b.statements).flatten
      | none => [symbolPiece false ';']

def DirectiveKind.pieces : DirectiveKind → List Piece
  | .importScript path =>
    symbolPiece true '#' :: wordPiece false "include" :: pathPieces true path ++ [symbolPiece false ';']
  | .withArgs name args => symbolPiece true '#' :: wordPiece false name.name :: symbolPiece false '(' ::
      exprPieces false args ++ [symbolPiece false ')', symbolPiece false ';']
  | .bare name => [symbolPiece true '#', wordPiece false name.name, symbolPiece false ';']

def Declaration.pieces : Declaration → List Piece
  | function f => f.pieces
  | directive d => d.kind.pieces

def globalPieces (globals : List Ident) : List Piece :=
  if globals.isEmpty then []
  else keywordPiece true .globalKw :: commaPieces (fun apart n => [wordPiece apart n.name]) true globals ++
    [symbolPiece false ';']

def ConstantDecl.pieces (c : ConstantDecl) : List Piece :=
  keywordPiece true .constKw :: wordPiece true c.name.name :: symbolPiece true '=' :: c.value.pieces true ++
    [symbolPiece false ';']

def Script.pieces (s : Script) : List Piece :=
  (s.declarations.take (Layout.leading s)).flatMap Declaration.pieces ++ s.imports.flatMap (fun d => d.kind.pieces) ++
    globalPieces s.globals ++ s.constants.flatMap ConstantDecl.pieces ++
    (s.declarations.drop (Layout.leading s)).flatMap Declaration.pieces

def Graph.pieces : Graph → List Piece
  | script s => s.pieces
  | function f => f.pieces
  | expression e => e.pieces true

end GameScript
