import GameScript.Layout.Lines

namespace GameScript

namespace Layout

inductive ItemKind
  | directive
  | global
  | constant
  | function
deriving DecidableEq, Repr

structure Item where
  kind : ItemKind
  lines : List Line

def declarationItem (style : BraceStyle) : Declaration → Item
  | .directive d => ⟨.directive, [⟨0, d.text⟩]⟩
  | .function f => ⟨.function, functionLines style f⟩

def importItem (d : Directive) : Item :=
  ⟨.directive, [⟨0, d.text⟩]⟩

def globalItems (globals : List Ident) : List Item :=
  if globals.isEmpty then []
  else [⟨.global, [⟨0, "global " ++ commaList (globals.map Ident.name) ++ ";"⟩]⟩]

def constantItem (c : ConstantDecl) : Item :=
  ⟨.constant, [⟨0, "const " ++ c.name.name ++ " = " ++ c.value.text ++ ";"⟩]⟩

def leading (s : Script) : Nat :=
  match s.declarations with
  | .directive _ :: _ => if s.declarative then 1 else 0
  | _ => 0

def items (style : BraceStyle) (s : Script) : List Item :=
  let n := leading s
  (s.declarations.take n).map (declarationItem style) ++ s.imports.map importItem
    ++ globalItems s.globals ++ s.constants.map constantItem
    ++ (s.declarations.drop n).map (declarationItem style)

def gap (between : Nat) (previous item : ItemKind) : Nat :=
  if previous = item then if item = .function then between else 0 else 1

def separated (between : Nat) : List Item → List Line
  | [] => []
  | [item] => item.lines
  | item :: next :: rest =>
    item.lines ++ List.replicate (gap between item.kind next.kind) ⟨0, ""⟩
      ++ separated between (next :: rest)

def graphLines (config : FormatConfig) : Graph → List Line
  | .script s => separated config.blankLinesBetweenFunctions (items config.braceStyle s)
  | .function f => functionLines config.braceStyle f
  | .expression e => [⟨0, e.text⟩]

end Layout

def formatGraph (config : FormatConfig) (g : Graph) : String :=
  String.join ((Layout.graphLines config g).map (Line.render config.indentWidth))

end GameScript
