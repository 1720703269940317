import GameScript.Decimal.Read
import GameScript.Value.Value
import GameScript.Vocabulary.Keyword

namespace GameScript

inductive LiteralKind
  | integer
  | float
  | string
  | localized
  | resource
  | bool
  | undefined
deriving DecidableEq, Repr

inductive LiteralError
  | outOfRange (raw : String)
  | malformedNumber (raw : String)
  | unknownEscape (c : Char)
  | malformed (kind raw : String)
deriving DecidableEq, Repr

namespace LiteralError

def message : LiteralError → String
  | outOfRange raw => "integer literal `" ++ raw ++ "` is out of range"
  | malformedNumber raw => "malformed numeric literal `" ++ raw ++ "`"
  | unknownEscape c => "unknown escape sequence `\\" ++ c.toString ++ "` in string literal"
  | malformed kind raw => "malformed " ++ kind ++ " literal `" ++ raw ++ "`"

end LiteralError

namespace Value

def decodeInteger (raw : String) : Except LiteralError Value :=
  let read :=
    match raw.toList with
    | '0' :: 'x' :: digits | '0' :: 'X' :: digits => Decimal.readInteger 16 digits
    | digits => Decimal.readInteger 10 digits
  match read with
  | .ok i => .ok (.int (Int64.ofInt i))
  | .error .malformed => .error (.malformedNumber raw)
  | .error .outOfRange => .error (.outOfRange raw)

def unescape? (c : Char) : Option Char :=
  if c = 'n' then some '\n'
  else if c = 't' then some '\t'
  else if c = 'r' then some '\r'
  else if c = '\\' ∨ c = '\x22' ∨ c = '\x27' then some c
  else none

def unescape (kind raw : String) : List Char → Except LiteralError (List Char)
  | [] => .ok []
  | c :: cs =>
    if c = '\\' then
      match cs with
      | [] => .error (.malformed kind raw)
      | d :: cs =>
        match unescape? d with
        | some e => (unescape kind raw cs).map (e :: ·)
        | none => .error (.unknownEscape d)
    else (unescape kind raw cs).map (c :: ·)

def unquote (kind raw : String) : Except LiteralError String :=
  match raw.toList with
  | q :: d :: cs =>
    if (q = '\x22' ∨ q = '\x27') ∧ (d :: cs).getLast? = some q then
      (unescape kind raw (d :: cs).dropLast).map String.ofList
    else .error (.malformed kind raw)
  | _ => .error (.malformed kind raw)

def decode (kind : LiteralKind) (raw : String) : Except LiteralError Value :=
  match kind with
  | .integer => decodeInteger raw
  | .float =>
    match Decimal.readFloat? raw with
    | some x => .ok (.float x)
    | none => .error (.malformedNumber raw)
  | .string => (unquote "string" raw).map .string
  | .localized =>
    match raw.toList with
    | '&' :: rest => (unquote "localized string" (String.ofList rest)).map .localized
    | _ => .error (.malformed "localized string" raw)
  | .resource =>
    match raw.toList with
    | '%' :: c :: cs => .ok (.resource (String.ofList (c :: cs)))
    | _ => .error (.malformed "resource" raw)
  | .bool =>
    if sameWord raw Keyword.trueKw.spelling then .ok (.bool true)
    else if sameWord raw Keyword.falseKw.spelling then .ok (.bool false)
    else .error (.malformed "boolean" raw)
  | .undefined => .ok .undefined

end Value

structure Literal where
  kind : LiteralKind
  raw : String
  /-- Constant folding has asked for the value. -/
  folded : Bool := false
deriving DecidableEq, Repr

def Literal.value (l : Literal) : Except LiteralError Value :=
  Value.decode l.kind l.raw

end GameScript
