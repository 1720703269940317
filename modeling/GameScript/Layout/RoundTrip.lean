import GameScript.Compare.Divergence
import GameScript.Layout.Format
import GameScript.Layout.Pack
import GameScript.Parser.Step
import GameScript.Text.Basic

namespace GameScript

inductive Stage
  | formatted
  | packed
deriving DecidableEq, Repr

def Stage.text : Stage → String
  | formatted => "formatted"
  | packed => "packed"

inductive FormatError
  | lex (e : LexError)
  | parse (errors : List Diagnostic)
  | reparse (stage : Stage) (reason : String)
  | diverged (stage : Stage) (divergences : List Divergence)

def FormatError.message : FormatError → String
  | lex e => e.message
  | parse errors => "source has " ++ toString errors.length ++ " parse error(s)"
  | reparse stage reason => stage.text ++ " output does not parse back: " ++ reason
  | diverged stage divergences =>
    stage.text ++ " output diverges from the source in " ++ toString divergences.length
      ++ " place(s)"

def ParseOutput.accepted (o : ParseOutput) : Except (List Diagnostic) Graph :=
  match o.graph, o.errors with
  | some g, [] => .ok g
  | _, errors => .error errors

def parseAccepted (tokens : List Token) (config : ParserConfig) : Except FormatError Graph :=
  (parse tokens config).accepted.mapError .parse

def formatSource (source : String) (config : FormatConfig) : Except FormatError String := do
  let tokens ← (lex source config.parser.dialect).mapError .lex
  let g ← parseAccepted tokens config.parser
  return formatGraph config g

def readBack (stage : Stage) (text : String) (config : ParserConfig) : Except FormatError Graph := do
  let tokens ← (lex text config.dialect).mapError fun e => FormatError.reparse stage e.message
  match (parse tokens config).accepted with
  | .ok g => return g
  | .error [] => throw (.reparse stage "no output")
  | .error (d :: _) => throw (.reparse stage (d.message ++ " at " ++ d.loc.text))

def checkStage (stage : Stage) (tree : Graph) (text : String) (config : ParserConfig) :
    Except FormatError Unit := do
  let g ← readBack stage text config
  match compareGraphs tree g with
  | [] => return ()
  | divergences => throw (.diverged stage divergences)

def verifyRoundTrip (source : String) (config : FormatConfig) :
    Except FormatError (String × String) := do
  let tokens ← (lex source config.parser.dialect).mapError .lex
  let tree ← parseAccepted tokens config.parser
  let formatted := formatGraph config tree
  let packed := packTokens tokens
  checkStage .formatted tree formatted config.parser
  checkStage .packed tree packed config.parser
  return (formatted, packed)

def describeDivergences (divergences : List Divergence) : String :=
  String.join (divergences.map fun d => "  " ++ d.text ++ "\n")

namespace Diff

def changedLine (mark : String) (number : Nat) (line : String) : String :=
  if line.isEmpty then ""
  else mark ++ Text.padLeft 4 (toString number) ++ " | " ++ line ++ "\n"

def lines (number : Nat) : List String → List String → List String
  | [], [] => []
  | l :: ls, [] => changedLine "-" number l :: lines (number + 1) ls []
  | [], r :: rs => changedLine "+" number r :: lines (number + 1) [] rs
  | l :: ls, r :: rs =>
    (if l = r then "" else changedLine "-" number l ++ changedLine "+" number r)
      :: lines (number + 1) ls rs

end Diff

def diff? (source formatted : String) : Option String :=
  if source = formatted then none
  else some (String.join (Diff.lines 1 (Text.lines source) (Text.lines formatted)))

end GameScript
