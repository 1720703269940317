import GameScript.Diagnostic.Report
import GameScript.Layout.RoundTrip

namespace GameScript

namespace CommandLine

def wrapWords (width : Nat) (margin : String) (used : Nat) : List String → String
  | [] => ""
  | word :: rest =>
    if used + 1 + word.length ≤ width then
      " " ++ word ++ wrapWords width margin (used + 1 + word.length) rest
    else "\n" ++ margin ++ word ++ wrapWords width margin (margin.length + word.length) rest

def paragraph (title text : String) : String :=
  let margin := String.ofList (List.replicate title.length ' ')
  match text.splitOn " " with
  | [] => title ++ "\n"
  | word :: rest =>
    title ++ word ++ wrapWords 78 margin (title.length + word.length) rest ++ "\n"

def lexErrorText (e : LexError) : String :=
  e.code ++ "\n\n  × " ++ e.message ++ "\n"
    ++ match e.help with
      | some help => paragraph "  help: " help
      | none => ""

def diagnosticTexts (palette : Palette) (path source : String) (ds : List Diagnostic) : String :=
  "\n".intercalate (ds.map (Diagnostic.render palette path source))

def formatErrorText (palette : Palette) (path source : String) (e : FormatError) : String :=
  match e with
  | .lex e => lexErrorText e
  | .parse errors => diagnosticTexts palette path source errors
  | .diverged stage divergences =>
    path ++ ": " ++ stage.text ++ " output diverges from the source\n"
      ++ describeDivergences divergences
  | .reparse .. => path ++ ": " ++ e.message

end CommandLine

end GameScript
