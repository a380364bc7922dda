import Turnstile.Text.Basic

/-! A text falls into pieces from left to right: characters where the bytes start a well-formed
encoding, and single stray bytes elsewhere. Overlong forms, surrogates, values above U+10FFFF
and truncated sequences are not well formed. Blanks are the characters with the Unicode property
`White_Space`. -/
namespace Turnstile

namespace Text

inductive Piece where
  | char (c : Char)
  | stray (b : UInt8)
  deriving DecidableEq, Repr

namespace Piece

def bytes : Piece → Text
  | char c => String.utf8EncodeChar c
  | stray b => [b]

def char? : Piece → Option Char
  | char c => some c
  | stray _ => none

def size : Piece → Nat
  | char c => c.utf8Size
  | stray _ => 1

/-- The code point of a piece, U+FFFD for a stray byte. -/
def codePoint : Piece → Nat
  | char c => c.toNat
  | stray _ => 0xFFFD

end Piece

def isContinuation (b : UInt8) : Bool :=
  0x80 ≤ b.toNat && b.toNat < 0xC0

/-- The first piece of a text that starts with the byte `a`, and what follows it. -/
def firstPiece (a : UInt8) (s : Text) : Piece × Text :=
  let lead := a.toNat
  let low (b : UInt8) := b.toNat - 0x80
  if lead < 0x80 then (.char (Char.ofNat lead), s)
  else if lead < 0xC2 then (.stray a, s)
  else if lead < 0xE0 then
    match s with
    | b :: t =>
      if isContinuation b then (.char (Char.ofNat ((lead - 0xC0) * 64 + low b)), t)
      else (.stray a, s)
    | [] => (.stray a, s)
  else if lead < 0xF0 then
    match s with
    | b :: c :: t =>
      let value := ((lead - 0xE0) * 64 + low b) * 64 + low c
      if isContinuation b && isContinuation c && 0x800 ≤ value && value.isValidChar then
        (.char (Char.ofNat value), t)
      else (.stray a, s)
    | _ => (.stray a, s)
  else if lead < 0xF5 then
    match s with
    | b :: c :: d :: t =>
      let value := (((lead - 0xF0) * 64 + low b) * 64 + low c) * 64 + low d
      if isContinuation b && isContinuation c && isContinuation d && 0x10000 ≤ value &&
          value.isValidChar then
        (.char (Char.ofNat value), t)
      else (.stray a, s)
    | _ => (.stray a, s)
  else (.stray a, s)

theorem length_firstPiece_le (a : UInt8) (s : Text) :
    (firstPiece a s).2.length ≤ s.length := by
  unfold firstPiece
  grind

def pieces : Text → List Piece
  | [] => []
  | a :: s => (firstPiece a s).1 :: pieces (firstPiece a s).2
termination_by s => s.length
decreasing_by
  have := length_firstPiece_le a s
  simp only [List.length_cons]
  omega

def ofPieces (ps : List Piece) : Text :=
  ps.flatMap Piece.bytes

def chars? (s : Text) : Option (List Char) :=
  (pieces s).mapM Piece.char?

/-- The number of bytes before the first stray byte. -/
def validLength (s : Text) : Nat :=
  (ofPieces ((pieces s).takeWhile (·.char?.isSome))).length

/-- The characters of a text, with U+FFFD for each stray byte. -/
def charsLossy (s : Text) : List Char :=
  (pieces s).map fun
    | .char c => c
    | .stray _ => Char.ofNat 0xFFFD

def isBlank (c : Char) : Bool :=
  let n := c.toNat
  (0x09 ≤ n && n ≤ 0x0D) || n = 0x20 || n = 0x85 || n = 0xA0 || n = 0x1680 ||
    (0x2000 ≤ n && n ≤ 0x200A) || n = 0x2028 || n = 0x2029 || n = 0x202F || n = 0x205F ||
    n = 0x3000

def Piece.isBlank : Piece → Bool
  | .char c => Text.isBlank c
  | .stray _ => false

def trim (s : Text) : Text :=
  ofPieces ((((pieces s).dropWhile Piece.isBlank).reverse.dropWhile Piece.isBlank).reverse)

end Text

end Turnstile
