import GameScript.Lexer.Dialect

namespace GameScript

inductive ParseTarget
  | script
  | function
  | expression
deriving DecidableEq, Repr

structure ParserConfig where
  target : ParseTarget := .script
  dialect : Dialect := {}
  allowAssignmentExpressions : Bool := false
  allowDefaultWithCase : Bool := false
  /-- The first error ends the parse. -/
  breakOnFirstError : Bool := false
deriving DecidableEq, Repr

inductive BraceStyle
  | nextLine
  | sameLine
deriving DecidableEq, Repr

structure FormatConfig where
  indentWidth : Nat := 4
  braceStyle : BraceStyle := .nextLine
  blankLinesBetweenFunctions : Nat := 1
  parser : ParserConfig := {}
deriving DecidableEq, Repr

end GameScript
