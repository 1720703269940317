namespace GameScript

inductive Outline
  | word (text : String)
  | record (name : String) (fields : List (String × Outline))
  | wrapped (name : String) (item : Outline)
  | list (items : List Outline)

namespace Outline

def indent (depth : Nat) : String :=
  String.ofList (List.replicate (4 * depth) ' ')

def bracketed (depth : Nat) (opening lines closing : String) : String :=
  if lines.isEmpty then opening ++ closing
  else opening ++ "\n" ++ lines ++ indent depth ++ closing

mutual

def render (depth : Nat) : Outline → String
  | word text => text
  | record name fields => bracketed depth (name ++ " \x7b") (renderFields (depth + 1) fields) "\x7d"
  | wrapped name item =>
    bracketed depth (name ++ "(") (indent (depth + 1) ++ item.render (depth + 1) ++ ",\n") ")"
  | list items => bracketed depth "[" (renderItems (depth + 1) items) "]"

def renderFields (depth : Nat) : List (String × Outline) → String
  | [] => ""
  | (label, item) :: rest =>
    indent depth ++ label ++ ": " ++ item.render depth ++ ",\n" ++ renderFields depth rest

def renderItems (depth : Nat) : List Outline → String
  | [] => ""
  | item :: rest => indent depth ++ item.render depth ++ ",\n" ++ renderItems depth rest

end

def option : Option Outline → Outline
  | some item => wrapped "Some" item
  | none => word "None"

def nat (n : Nat) : Outline :=
  word (toString n)

def bool (b : Bool) : Outline :=
  word (if b then "true" else "false")

end Outline

end GameScript
