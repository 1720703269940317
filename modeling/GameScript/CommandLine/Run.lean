import GameScript.CommandLine.Entry
import GameScript.CommandLine.ErrorText
import GameScript.CommandLine.Request
import GameScript.Layout.RoundTrip
import GameScript.Outline.Tree

namespace GameScript

structure Outcome where
  /-- The exit status: 0 for success, 1 for a failure, 2 for a bad command line. -/
  code : Nat := 0
  out : String := ""
  err : String := ""
  writes : List (String × String) := []
deriving DecidableEq, Repr

namespace Outcome

def print (o : Outcome) (text : String) : Outcome :=
  { o with out := o.out ++ text ++ "\n" }

def warn (o : Outcome) (text : String) : Outcome :=
  { o with err := o.err ++ text ++ "\n" }

def fail (o : Outcome) (message : String) : Outcome :=
  { (if message.isEmpty then o else o.warn message) with code := 1 }

def write (o : Outcome) (path content : String) : Outcome :=
  { o with writes := o.writes ++ [(path, content)] }

def failure (message : String) : Outcome :=
  fail {} message

end Outcome

def TokenKind.label : TokenKind → String
  | identifier => "Identifier"
  | number => "Number"
  | string => "String"
  | metaString => "MetaString"
  | resource => "ResourceVar"
  | symbol => "Symbol"
  | comment => "Comment"
  | whitespace => "WhiteSpace"
  | eof => "Eof"

def Token.listing (t : Token) : String :=
  Text.padLeft 4 (toString t.loc.line) ++ ":" ++ Text.padRight 3 (toString t.loc.column) ++ " "
    ++ Text.padRight 12 t.kind.label ++ " " ++ Quoted.string t.text

def Lexer.readable (x : Lexer) : List Token × Option LexError :=
  match _h : x.next with
  | (_, .error e) => ([], some e)
  | (_, .ok none) => ([], none)
  | (y, .ok (some t)) => (t :: y.readable.1, y.readable.2)
termination_by x.remaining
decreasing_by all_goals exact next_remaining _h

def Session.openSteps : Nat → Nat → Session → Nat
  | 0, count, _ => count
  | n + 1, count, s => if s.step.isFinished then count else openSteps n (count + 1) s.step

namespace CommandLine

def maxSourceSize : Nat := 16 * 1024 * 1024

def sourceOf (path : String) (content : Content) : Except String String :=
  match content with
  | .error e => .error ("Error reading file '" ++ path ++ "': " ++ e.text)
  | .ok source =>
    if maxSourceSize < source.utf8ByteSize then
      .error ("Source file '" ++ path ++ "' is too large (" ++ toString source.utf8ByteSize
        ++ " bytes, max " ++ toString maxSourceSize ++ " bytes)")
    else .ok source

def sourceAt (path : String) : Entry → Except String String
  | .missing e => .error ("Cannot access file '" ++ path ++ "': " ++ e.text)
  | .file content => sourceOf path content
  | .folder _ => sourceOf path (.error .isFolder)

def lexCommand (dialect : Dialect) (trivia : Bool) (source : String) : Outcome :=
  let (tokens, error) := (Lexer.ofText source dialect).readable
  let shown := tokens.filter fun t => trivia || !t.isTrivia
  let o := shown.foldl (fun o t => o.print t.listing) ({} : Outcome)
  match error with
  | some e => o.fail (lexErrorText e)
  | none => o

def packCommand (dialect : Dialect) (source : String) : Outcome :=
  match packSource source dialect with
  | .ok text => Outcome.print {} text
  | .error e => .failure (lexErrorText e)

def parseCommand (config : ParserConfig) (steps : Bool) (path source : String) : Outcome :=
  match lex source config.dialect with
  | .error e => .failure (lexErrorText e)
  | .ok tokens =>
    let session := Session.ofTokens tokens config
    let output := session.run.finish
    let o : Outcome := {}
    let o :=
      match output.graph with
      | some g => o.print (g.outline.render 0)
      | none => o
    let o :=
      if steps then o.print (toString (session.openSteps session.stepBound 0) ++ " step(s)") else o
    let o :=
      if output.warnings.isEmpty then o
      else o.warn (diagnosticTexts .plain path source output.warnings)
    if output.isSuccess then o else o.fail (diagnosticTexts .plain path source output.errors)

structure FormatRun where
  outcome : Outcome := {}
  pending : Bool := false
  written : Nat := 0
  failed : Nat := 0

namespace FormatRun

def fail (r : FormatRun) (message : String) : FormatRun :=
  { r with outcome := r.outcome.warn message, failed := r.failed + 1 }

def change (check diff : Bool) (r : FormatRun) (path source formatted : String) : FormatRun :=
  let o := r.outcome
  let o :=
    if diff then (o.print ("--- " ++ path)).print ((diff? source formatted).getD "") else o
  if check then { r with outcome := o.print ("Would reformat: " ++ path), pending := true }
  else if diff then { r with outcome := o, pending := true }
  else
    { r with
      outcome := (o.write path formatted).print ("Formatted: " ++ path)
      written := r.written + 1 }

def file (config : FormatConfig) (check diff : Bool) (r : FormatRun) (path : String)
    (content : Content) : FormatRun :=
  match sourceOf path content with
  | .error message => r.fail message
  | .ok source =>
    match formatSource source config with
    | .error e => r.fail (formatErrorText .plain path source e)
    | .ok formatted =>
      if source = formatted then r else change check diff r path source formatted

def finish (check diff : Bool) (count : Nat) (r : FormatRun) : Outcome :=
  if (check || diff) && r.pending then
    r.outcome.fail ("\n" ++ toString count ++ " file(s) "
      ++ if diff then "need formatting" else "would be reformatted")
  else
    let o :=
      if check || diff then r.outcome.print ("✓ " ++ toString count ++ " file(s) already formatted")
      else
        r.outcome.print ("\n✓ " ++ toString r.written ++ " file(s) formatted, " ++ toString r.failed
          ++ " error(s)")
    if r.failed = 0 then o else o.fail ""

end FormatRun

def noScripts : Outcome :=
  .failure "No script files found"

def formatCommand (config : FormatConfig) (check diff : Bool) (files : List (String × Content)) :
    Outcome :=
  if files.isEmpty then noScripts
  else
    (files.foldl (fun r f => FormatRun.file config check diff r f.1 f.2) {}).finish check diff
      files.length

def verifyFiles (config : FormatConfig) (o : Outcome) (failed : Nat) :
    List (String × Content) → Except Outcome (Outcome × Nat)
  | [] => .ok (o, failed)
  | (path, content) :: rest =>
    match sourceOf path content with
    | .error message => .error (o.fail message)
    | .ok source =>
      match verifyRoundTrip source config with
      | .ok _ => verifyFiles config o failed rest
      | .error e => verifyFiles config (o.warn (formatErrorText .plain path source e)) (failed + 1) rest

def verifyCommand (config : FormatConfig) (files : List (String × Content)) : Outcome :=
  if files.isEmpty then noScripts
  else
    match verifyFiles config {} 0 files with
    | .error o => o
    | .ok (o, 0) => o.print ("✓ " ++ toString files.length ++ " file(s) round-trip")
    | .ok (o, failed) =>
      o.fail ("\n" ++ toString failed ++ " of " ++ toString files.length
        ++ " file(s) failed verification")

def formatConfig (parser : ParserConfig) (layout : LayoutOptions) : FormatConfig :=
  { indentWidth := layout.indent
    braceStyle := if layout.sameLineBraces then .sameLine else .nextLine
    parser := parser }

def onSource (path : String) (entry : Entry) (command : String → Outcome) : Outcome :=
  match sourceAt path entry with
  | .ok source => command source
  | .error message => .failure message

end CommandLine

def Invocation.run (i : Invocation) (entry : Entry) : Outcome :=
  match i.command with
  | .lex trivia => CommandLine.onSource i.path entry (CommandLine.lexCommand i.parser.dialect trivia)
  | .pack => CommandLine.onSource i.path entry (CommandLine.packCommand i.parser.dialect)
  | .parse _ steps =>
    CommandLine.onSource i.path entry (CommandLine.parseCommand i.parser steps i.path)
  | .format check diff layout =>
    CommandLine.formatCommand (CommandLine.formatConfig i.parser layout) check diff
      (entry.scripts i.path)
  | .verify layout =>
    CommandLine.verifyCommand (CommandLine.formatConfig i.parser layout) (entry.scripts i.path)

end GameScript
