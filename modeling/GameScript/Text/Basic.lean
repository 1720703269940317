namespace GameScript

def lowerWord (word : String) : String :=
  String.ofList (word.toList.map Char.toLower)

def sameWord (a b : String) : Bool :=
  lowerWord a == lowerWord b

theorem sameWord_iff (a b : String) : sameWord a b = true ↔ lowerWord a = lowerWord b := by
  simp [sameWord]

theorem sameWord_comm (a b : String) : sameWord a b = sameWord b a := by
  rw [Bool.eq_iff_iff, sameWord_iff, sameWord_iff, eq_comm]

theorem sameWord_trans {a b c : String} (hab : sameWord a b = true) (hbc : sameWord b c = true) :
    sameWord a c = true := by
  rw [sameWord_iff] at *
  exact hab.trans hbc

end GameScript

namespace GameScript.Text

def chompReturn (line : List Char) : List Char :=
  if line.getLast? = some '\r' then line.dropLast else line

def splitLines : List Char → List (List Char)
  | [] => [[]]
  | c :: cs =>
    if c = '\n' then [] :: splitLines cs
    else
      match splitLines cs with
      | line :: rest => (c :: line) :: rest
      | [] => [[c]]

def lines (text : String) : List String :=
  let parts := splitLines text.toList
  let ended := parts.dropLast.map chompReturn
  let rest := (parts.getLast?).getD []
  (if rest.isEmpty then ended else ended ++ [rest]).map String.ofList

def padLeft (width : Nat) (text : String) : String :=
  String.ofList (List.replicate (width - text.length) ' ') ++ text

def padRight (width : Nat) (text : String) : String :=
  text ++ String.ofList (List.replicate (width - text.length) ' ')

end GameScript.Text
