import GameScript.Text.Basic
import GameScript.Vocabulary.Punctuation

namespace GameScript

inductive Keyword
  | ifKw | elseKw | whileKw | forKw | foreachKw | inKw | switchKw | caseKw | defaultKw
  | breakKw | continueKw
  | returnKw | waitKw | waitTillFrameEndKw | breakpointKw
  | threadKw | childThreadKw
  | trueKw | falseKw | undefinedKw
  | constKw | globalKw
deriving DecidableEq, Repr

inductive GameMode
  | singleplayer
  | multiplayer
deriving DecidableEq, Repr

inductive Availability
  | both
  | singleplayerOnly
  | multiplayerOnly
deriving DecidableEq, Repr

def Availability.includes : Availability → GameMode → Bool
  | .both, _ => true
  | .singleplayerOnly, mode => mode == .singleplayer
  | .multiplayerOnly, mode => mode == .multiplayer

inductive KeywordCategory
  | controlFlow
  | keywordCall
  | callModifier
  | literal
  | declaration
deriving DecidableEq, Repr

namespace Keyword

def all : List Keyword :=
  [ifKw, elseKw, whileKw, forKw, foreachKw, inKw, switchKw, caseKw, defaultKw, breakKw,
    continueKw, returnKw, waitKw, waitTillFrameEndKw, breakpointKw, threadKw, childThreadKw,
    trueKw, falseKw, undefinedKw, constKw, globalKw]

def spelling : Keyword → String
  | ifKw => "if"
  | elseKw => "else"
  | whileKw => "while"
  | forKw => "for"
  | foreachKw => "foreach"
  | inKw => "in"
  | switchKw => "switch"
  | caseKw => "case"
  | defaultKw => "default"
  | breakKw => "break"
  | continueKw => "continue"
  | returnKw => "return"
  | waitKw => "wait"
  | waitTillFrameEndKw => "waittillframeend"
  | breakpointKw => "breakpoint"
  | threadKw => "thread"
  | childThreadKw => "childthread"
  | trueKw => "true"
  | falseKw => "false"
  | undefinedKw => "undefined"
  | constKw => "const"
  | globalKw => "global"

def category : Keyword → KeywordCategory
  | returnKw | waitKw | waitTillFrameEndKw | breakpointKw => .keywordCall
  | threadKw | childThreadKw => .callModifier
  | trueKw | falseKw | undefinedKw => .literal
  | constKw | globalKw => .declaration
  | _ => .controlFlow

def availability : Keyword → Availability
  | breakpointKw => .singleplayerOnly
  | childThreadKw => .multiplayerOnly
  | _ => .both

def stability : Keyword → Stability
  | breakpointKw => .deprecated
  | _ => .stable

def examples : Keyword → List Usage
  | foreachKw =>
    [⟨"foreach (key, value in level.players) \x7b value notify(\"go\"); \x7d",
      some "The key binding is optional."⟩]
  | waitKw => [⟨"wait 0.05;", some "Yield the current thread for one server frame."⟩]
  | _ => []

def reservedIn (k : Keyword) (mode : GameMode) : Bool :=
  k.availability.includes mode

def ofWord? (word : String) (mode : GameMode) : Option Keyword :=
  let lowered := lowerWord word
  all.find? fun k => k.spelling == lowered && k.reservedIn mode

def startsStatement : Keyword → Bool
  | ifKw | elseKw | whileKw | forKw | foreachKw | switchKw | caseKw | defaultKw | breakKw
  | continueKw | returnKw | waitKw | waitTillFrameEndKw | breakpointKw => true
  | _ => false

theorem mem_all (k : Keyword) : k ∈ all := by
  cases k <;> decide

theorem ofWord?_lower {a b : String} (h : lowerWord a = lowerWord b) (mode : GameMode) :
    ofWord? a mode = ofWord? b mode := by
  simp [ofWord?, h]

theorem ofWord?_spelling (k : Keyword) (mode : GameMode) (h : k.reservedIn mode = true) :
    ofWord? k.spelling mode = some k := by
  revert h
  cases k <;> cases mode <;> decide +kernel

end Keyword

end GameScript
