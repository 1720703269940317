import GameScript.Config

namespace GameScript

inductive CommandName
  | lex
  | parse
  | format
  | pack
  | verify
deriving DecidableEq, Repr

namespace CommandName

def all : List CommandName := [lex, parse, format, pack, verify]

def spelling : CommandName → String
  | lex => "lex"
  | parse => "parse"
  | format => "fmt"
  | pack => "pack"
  | verify => "verify"

def ofWord? (word : String) : Option CommandName :=
  all.find? fun c => c.spelling == word

def defaultPath? : CommandName → Option String
  | format | verify => some "."
  | lex | parse | pack => none

theorem ofWord?_spelling (c : CommandName) : ofWord? c.spelling = some c := by
  cases c <;> decide +kernel

end CommandName

inductive Flag
  | singleplayer
  | noHex
  | singleQuotes
  | unknownAsLetters
  | assignmentExpressions
  | defaultWithCase
  | breakOnFirstError
  | trivia
  | steps
  | check
  | diff
  | sameLineBraces
deriving DecidableEq, Repr

namespace Flag

def all : List Flag :=
  [singleplayer, noHex, singleQuotes, unknownAsLetters, assignmentExpressions, defaultWithCase,
    breakOnFirstError, trivia, steps, check, diff, sameLineBraces]

def spelling : Flag → String
  | singleplayer => "singleplayer"
  | noHex => "no-hex"
  | singleQuotes => "single-quotes"
  | unknownAsLetters => "unknown-as-letters"
  | assignmentExpressions => "assignment-expressions"
  | defaultWithCase => "default-with-case"
  | breakOnFirstError => "break-on-first-error"
  | trivia => "trivia"
  | steps => "steps"
  | check => "check"
  | diff => "diff"
  | sameLineBraces => "same-line-braces"

def allowed (f : Flag) (command : Option CommandName) : Bool :=
  match f with
  | trivia => command == some .lex
  | steps => command == some .parse
  | check | diff => command == some .format
  | sameLineBraces => command == some .format || command == some .verify
  | _ => true

end Flag

inductive Setting
  | target
  | indent
deriving DecidableEq, Repr

namespace Setting

def all : List Setting := [target, indent]

def spelling : Setting → String
  | target => "target"
  | indent => "indent"

def allowed (s : Setting) (command : Option CommandName) : Bool :=
  match s with
  | target => command == some .parse
  | indent => command == some .format || command == some .verify

end Setting

inductive LongOption
  | help
  | version
  | flag (f : Flag)
  | setting (s : Setting)
deriving DecidableEq, Repr

def LongOption.ofName? (name : String) (command : Option CommandName) : Option LongOption :=
  if name = "help" then some .help
  else if name = "version" ∧ command = none then some .version
  else
    match Flag.all.find? fun f => f.spelling == name && f.allowed command with
    | some f => some (.flag f)
    | none => (Setting.all.find? fun s => s.spelling == name && s.allowed command).map .setting

def targetOfWord? (word : String) : Option ParseTarget :=
  match word with
  | "module" => some .script
  | "function" => some .function
  | "expression" => some .expression
  | _ => none

def countOfWord? (word : String) : Option Nat :=
  let digits :=
    match word.toList with
    | '+' :: cs => cs
    | cs => cs
  if digits.isEmpty || !digits.all Char.isDigit then none
  else
    let n := digits.foldl (fun n c => 10 * n + (c.toNat - '0'.toNat)) 0
    if n < Nat.pow 2 64 then some n else none

end GameScript
