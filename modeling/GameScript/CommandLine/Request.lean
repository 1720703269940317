import GameScript.CommandLine.Option

namespace GameScript

inductive UsageError
  | missingCommand
  | unknownCommand (word : String)
  | unknownOption (word : String)
  | unexpectedValue (option : String)
  | missingValue (option : String)
  | badValue (option value : String)
  | repeatedOption (option : String)
  | unexpectedArgument (word : String)
  | missingPath
deriving DecidableEq, Repr

def UsageError.message : UsageError → String
  | missingCommand => "a command is required"
  | unknownCommand word => "unknown command '" ++ word ++ "'"
  | unknownOption word => "unexpected option '" ++ word ++ "'"
  | unexpectedValue option => "option '--" ++ option ++ "' takes no value"
  | missingValue option => "option '--" ++ option ++ "' needs a value"
  | badValue option value => "invalid value '" ++ value ++ "' for '" ++ option ++ "'"
  | repeatedOption option => "option '--" ++ option ++ "' cannot be used more than once"
  | unexpectedArgument word => "unexpected argument '" ++ word ++ "'"
  | missingPath => "a path is required"

structure LayoutOptions where
  indent : Nat
  sameLineBraces : Bool
deriving DecidableEq, Repr

inductive Command
  | lex (trivia : Bool)
  | parse (target : ParseTarget) (steps : Bool)
  | format (check diff : Bool) (layout : LayoutOptions)
  | pack
  | verify (layout : LayoutOptions)
deriving DecidableEq, Repr

structure Invocation where
  command : Command
  path : String
  parser : ParserConfig
deriving DecidableEq, Repr

inductive Request
  | run (i : Invocation)
  | help
  | version
deriving DecidableEq, Repr

structure Arguments where
  flags : List Flag := []
  target : Option ParseTarget := none
  indent : Option Nat := none
  path : Option String := none
deriving DecidableEq, Repr

inductive Reading
  | arguments (a : Arguments)
  | help
  | version

namespace Arguments

def addFlag (a : Arguments) (f : Flag) : Except UsageError Arguments :=
  if f ∈ a.flags then .error (.repeatedOption f.spelling) else .ok { a with flags := f :: a.flags }

def addSetting (a : Arguments) (s : Setting) (value : String) : Except UsageError Arguments :=
  match s with
  | .target =>
    match targetOfWord? value with
    | none => .error (.badValue s.spelling value)
    | some t =>
      if a.target.isSome then .error (.repeatedOption s.spelling) else .ok { a with target := some t }
  | .indent =>
    match countOfWord? value with
    | none => .error (.badValue s.spelling value)
    | some n =>
      if a.indent.isSome then .error (.repeatedOption s.spelling) else .ok { a with indent := some n }

def addPath (a : Arguments) (word : String) : Except UsageError Arguments :=
  if a.path.isSome then .error (.unexpectedArgument word)
  else if word.isEmpty then .error (.badValue "path" word)
  else .ok { a with path := some word }

def addPaths (a : Arguments) (words : List String) : Except UsageError Arguments :=
  words.foldlM addPath a

def splitValue (word : List Char) : String × Option String :=
  match word.dropWhile (· ≠ '=') with
  | [] => (String.ofList word, none)
  | _ :: value => (String.ofList (word.takeWhile (· ≠ '=')), some (String.ofList value))

def isOption (word : String) : Bool :=
  match word.toList with
  | '-' :: _ :: _ => true
  | _ => false

def readShort (command : Option CommandName) (word : String) : Except UsageError Reading :=
  match word.toList with
  | _ :: 'h' :: _ => .ok .help
  | _ :: 'V' :: _ => if command.isNone then .ok .version else .error (.unknownOption word)
  | _ => .error (.unknownOption word)

def read (command : CommandName) (a : Arguments) : List String → Except UsageError Reading
  | [] => .ok (.arguments a)
  | word :: rest =>
    match word.toList with
    | ['-', '-'] => (a.addPaths rest).map .arguments
    | '-' :: '-' :: long =>
      let (name, value) := splitValue long
      match LongOption.ofName? name (some command), value with
      | none, _ => .error (.unknownOption word)
      | some .help, none => .ok .help
      | some .version, none => .ok .version
      | some (.flag f), none =>
        match a.addFlag f with
        | .ok a => a.read command rest
        | .error e => .error e
      | some (.setting s), some v =>
        match a.addSetting s v with
        | .ok a => a.read command rest
        | .error e => .error e
      | some (.setting s), none =>
        match rest with
        | [] => .error (.missingValue s.spelling)
        | v :: rest =>
          if isOption v then .error (.missingValue s.spelling)
          else
            match a.addSetting s v with
            | .ok a => a.read command rest
            | .error e => .error e
      | some _, some _ => .error (.unexpectedValue name)
    | '-' :: _ :: _ => readShort (some command) word
    | _ =>
      match a.addPath word with
      | .ok a => a.read command rest
      | .error e => .error e

def dialect (flags : List Flag) : Dialect :=
  { hexLiterals := !flags.contains .noHex
    singleQuoteStrings := flags.contains .singleQuotes
    mode := if flags.contains .singleplayer then .singleplayer else .multiplayer
    unknownAsLetters := flags.contains .unknownAsLetters }

def parser (a : Arguments) (flags : List Flag) : ParserConfig :=
  { target := a.target.getD .script
    dialect := dialect flags
    allowAssignmentExpressions := flags.contains .assignmentExpressions
    allowDefaultWithCase := flags.contains .defaultWithCase
    breakOnFirstError := flags.contains .breakOnFirstError }

def layout (a : Arguments) : LayoutOptions :=
  ⟨a.indent.getD 4, a.flags.contains .sameLineBraces⟩

def command (a : Arguments) : CommandName → Command
  | .lex => .lex (a.flags.contains .trivia)
  | .parse => .parse (a.target.getD .script) (a.flags.contains .steps)
  | .format => .format (a.flags.contains .check) (a.flags.contains .diff) a.layout
  | .pack => .pack
  | .verify => .verify a.layout

def invocation (a : Arguments) (name : CommandName) (front : List Flag) :
    Except UsageError Invocation :=
  match a.path.or name.defaultPath? with
  | some path => .ok ⟨a.command name, path, a.parser (front ++ a.flags)⟩
  | none => .error .missingPath

end Arguments

namespace Request

def readHelp : List String → Except UsageError Request
  | [] => .ok .help
  | word :: rest =>
    if (CommandName.ofWord? word).isSome ∨ word = "help" then
      match rest with
      | [] => .ok .help
      | next :: _ => .error (.unknownCommand next)
    else .error (.unknownCommand word)

def ofReading (name : CommandName) (front : List Flag) : Reading → Except UsageError Request
  | .help => .ok .help
  | .version => .ok .version
  | .arguments a => (a.invocation name front).map .run

def read (front : List Flag) : List String → Except UsageError Request
  | [] => .error .missingCommand
  | word :: rest =>
    match CommandName.ofWord? word with
    | some name => (Arguments.read name {} rest).bind (ofReading name front)
    | none =>
      if word = "help" then readHelp rest
      else
        match word.toList with
        | ['-', '-'] =>
          match rest with
          | [] => .error .missingCommand
          | next :: _ => .error (.unexpectedArgument next)
        | '-' :: '-' :: long =>
          let (name, value) := Arguments.splitValue long
          match LongOption.ofName? name none, value with
          | some .help, none => .ok .help
          | some .version, none => .ok .version
          | some (.flag f), none =>
            if f ∈ front then .error (.repeatedOption f.spelling) else read (f :: front) rest
          | some _, some _ => .error (.unexpectedValue name)
          | _, _ => .error (.unknownOption word)
        | '-' :: _ :: _ => (Arguments.readShort none word).bind fun
          | .version => .ok .version
          | _ => .ok .help
        | _ => .error (.unknownCommand word)

def ofWords (words : List String) : Except UsageError Request :=
  read [] words

end Request

end GameScript
