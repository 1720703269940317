import GameScript.Text.Basic
import GameScript.Vocabulary.Punctuation

namespace GameScript

inductive DirectiveName
  | includeFile
  | declarative
deriving DecidableEq, Repr

namespace DirectiveName

def all : List DirectiveName := [includeFile, declarative]

def spelling : DirectiveName → String
  | includeFile => "include"
  | declarative => "declarative"

def examples : DirectiveName → List Usage
  | includeFile => [⟨"#include maps\\mp\\_utility;", none⟩]
  | declarative =>
    [⟨"#declarative;\nspawn(origin, angles);",
      some "Must precede every other declaration; functions in the module have no bodies."⟩]

def ofWord? (word : String) : Option DirectiveName :=
  let lowered := lowerWord word
  all.find? fun d => d.spelling == lowered

theorem ofWord?_lower {a b : String} (h : lowerWord a = lowerWord b) : ofWord? a = ofWord? b := by
  simp [ofWord?, h]

end DirectiveName

end GameScript
