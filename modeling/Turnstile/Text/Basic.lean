/-! Everything that is read and written is a text: a list of bytes. A text is usually the UTF-8
encoding of some characters, but nothing forces it to be one, so names, messages and positions
are kept in bytes. -/
namespace Turnstile

/-- A byte string. Positions in a text count bytes. -/
abbrev Text := List UInt8

namespace Text

def encode (cs : List Char) : Text :=
  cs.flatMap String.utf8EncodeChar

def ofString (s : String) : Text :=
  encode s.toList

instance : Coe String Text := ⟨ofString⟩

def ofNat (n : Nat) : Text :=
  toString n

def ofInt : Int → Text
  | .ofNat n => ofNat n
  | .negSucc n => "-" ++ ofNat (n + 1)

def ofBool (b : Bool) : Text :=
  if b then "true" else "false"

def join (sep : Text) : List Text → Text
  | [] => []
  | [t] => t
  | t :: ts => t ++ (sep ++ join sep ts)

def consHead (b : UInt8) : List Text → List Text
  | [] => [[b]]
  | t :: ts => (b :: t) :: ts

/-- The pieces of a text between the occurrences of a byte. There is one piece
more than there are occurrences. -/
def splitByte (sep : UInt8) : Text → List Text
  | [] => [[]]
  | b :: s => if b = sep then [] :: splitByte sep s else consHead b (splitByte sep s)

/-- The pieces of a text between the occurrences of two bytes in a row, found
from left to right without overlap. -/
def splitPair (first second : UInt8) : Text → List Text
  | [] => [[]]
  | [b] => [[b]]
  | b :: c :: s =>
    if b = first ∧ c = second then [] :: splitPair first second s
    else consHead b (splitPair first second (c :: s))

@[simp] theorem encode_nil : encode [] = [] := rfl

@[simp] theorem encode_cons (c : Char) (cs : List Char) :
    encode (c :: cs) = String.utf8EncodeChar c ++ encode cs := rfl

@[simp] theorem encode_append (cs ds : List Char) :
    encode (cs ++ ds) = encode cs ++ encode ds :=
  List.flatMap_append

end Text

end Turnstile
