import Turnstile.Text.Quoted

/-! JSON values written over several lines, two blanks deeper on each level. Characters with a
meaning in markup are escaped, and a stray byte becomes U+FFFD. Values are only written, never
read, and numbers are natural. -/
namespace Turnstile

namespace Json

inductive Value where
  | string (s : Text)
  | number (n : Nat)
  | bool (b : Bool)
  | list (items : List Value)
  | object (fields : List (Text × Value))
  deriving Repr

def field (key : Text) (value : Value) : List (Text × Value) :=
  [(key, value)]

/-- A field that is left out unless it is to be shown. -/
def fieldIf (shown : Bool) (key : Text) (value : Value) : List (Text × Value) :=
  if shown then field key value else []

def strings (texts : List Text) : Value :=
  .list (texts.map .string)

def numbers (ns : List Nat) : Value :=
  .list (ns.map .number)

def escapedChar (c : Char) : Text :=
  match c with
  | '"' => "\\\""
  | '\\' => "\\\\"
  | '\n' => "\\n"
  | '\r' => "\\r"
  | '\t' => "\\t"
  | _ =>
    let n := c.toNat
    if n = 0x08 then "\\b"
    else if n = 0x0C then "\\f"
    else if n < 0x20 || n = 0x3C || n = 0x3E || n = 0x26 || n = 0x2028 || n = 0x2029 then
      "\\u" ++ Text.hex 4 n
    else Text.encode [c]

def escapedPiece : Text.Piece → Text
  | .char c => escapedChar c
  | .stray _ => Text.encode ['\uFFFD']

def quoted (s : Text) : Text :=
  "\"" ++ s.pieces.flatMap escapedPiece ++ "\""

def lineAt (depth : Nat) : Text :=
  "\n" ++ (List.replicate depth (Text.ofString "  ")).flatten

def bracketed (left right : Text) (depth : Nat) (members : List Text) : Text :=
  if members.isEmpty then left ++ right
  else
    left ++ lineAt (depth + 1) ++ Text.join ("," ++ lineAt (depth + 1)) members ++
      lineAt depth ++ right

mutual

def renderAt (depth : Nat) : Value → Text
  | .string s => quoted s
  | .number n => Text.ofNat n
  | .bool b => Text.ofBool b
  | .list items => bracketed "[" "]" depth (renderItems (depth + 1) items)
  | .object fields => bracketed "\x7b" "\x7d" depth (renderFields (depth + 1) fields)

def renderItems (depth : Nat) : List Value → List Text
  | [] => []
  | item :: items => renderAt depth item :: renderItems depth items

def renderFields (depth : Nat) : List (Text × Value) → List Text
  | [] => []
  | (key, value) :: fields =>
    (quoted key ++ ": " ++ renderAt depth value) :: renderFields depth fields

end

def render (value : Value) : Text :=
  renderAt 0 value ++ "\n"

end Json

end Turnstile
