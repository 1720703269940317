import GameScript.Diagnostic.Excerpt
import GameScript.Diagnostic.Problem

namespace GameScript

structure Palette where
  red : String := ""
  yellow : String := ""
  cyan : String := ""
  bold : String := ""
  reset : String := ""

namespace Palette

def plain : Palette := {}

def ansi : Palette :=
  { red := "\x1b[31m", yellow := "\x1b[33m", cyan := "\x1b[36m", bold := "\x1b[1m",
    reset := "\x1b[0m" }

def severity (p : Palette) : Severity → String
  | .warning => p.yellow
  | .error | .fatal => p.red

end Palette

namespace Diagnostic

def marginLine (p : Palette) (margin text : String) : String :=
  "  " ++ p.cyan ++ margin ++ p.reset ++ text ++ "\n"

def blankPrefix (x : Excerpt) : List Char :=
  (x.text.take (x.column - 1)).map fun c => if c = '\t' then '\t' else ' '

def underlineLength (d : Diagnostic) (x : Excerpt) : Nat :=
  max 1 (min d.length (x.text.length - (x.column - 1)))

def render (p : Palette) (file source : String) (d : Diagnostic) : String :=
  let x := Excerpt.ofOffset source d.loc.offset
  let number := toString x.line
  let empty := Text.padLeft number.length "" ++ " |"
  let place := " " ++ file ++ ":" ++ number ++ ":" ++ toString x.column
  let marks := String.ofList (List.replicate (d.underlineLength x) '^')
  p.bold ++ p.severity d.severity ++ d.severity.text ++ p.reset ++ p.bold ++ ": " ++ d.message
    ++ p.reset ++ "\n"
    ++ marginLine p "-->" place
    ++ marginLine p empty ""
    ++ marginLine p (number ++ " |") (" " ++ String.ofList x.text)
    ++ marginLine p empty
      (" " ++ String.ofList (blankPrefix x) ++ p.severity d.severity ++ marks ++ p.reset)
    ++ String.join (d.notes.map fun note => marginLine p "= note:" (" " ++ note))
    ++ String.join (d.hints.map fun hint => marginLine p "= hint:" (" " ++ hint))

def code (d : Diagnostic) : String :=
  match d.severity with
  | .warning => "gscript::parse::warning"
  | .error => "gscript::parse::error"
  | .fatal => "gscript::parse::fatal"

def help (d : Diagnostic) : Option String :=
  if d.hints.isEmpty then none else some ("\n".intercalate d.hints)

def isFatal (d : Diagnostic) : Bool :=
  d.severity = .fatal

def label (d : Diagnostic) : String :=
  d.notes.head?.getD (d.severity.text ++ " here")

end Diagnostic

end GameScript
