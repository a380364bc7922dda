import Turnstile.Text.Printable
import Turnstile.Text.Utf8

/-! Messages quote the texts they speak of. Inside the quotes printable characters stand for
themselves, the quote and the backslash take a backslash, a few control characters have a
letter, and everything else is written by its number. Quoted texts are never read back. -/
namespace Turnstile

namespace Text

def hexDigit (n : Nat) : UInt8 :=
  UInt8.ofNat (if n < 10 then 0x30 + n else 0x57 + n)

/-- The last `width` hexadecimal digits of a number. -/
def hex (width n : Nat) : Text :=
  match width with
  | 0 => []
  | w + 1 => hex w (n / 16) ++ [hexDigit (n % 16)]

def controlLetter? (n : Nat) : Option Text :=
  match n with
  | 0x07 => some "a"
  | 0x08 => some "b"
  | 0x09 => some "t"
  | 0x0A => some "n"
  | 0x0B => some "v"
  | 0x0C => some "f"
  | 0x0D => some "r"
  | _ => none

def quotedChar (quote c : Char) : Text :=
  let n := c.toNat
  if c = quote ∨ c = '\\' then "\\" ++ String.utf8EncodeChar c
  else if isPrintable c then String.utf8EncodeChar c
  else match controlLetter? n with
    | some letter => "\\" ++ letter
    | none =>
      if n < 0x20 ∨ n = 0x7F then "\\x" ++ hex 2 n
      else if n < 0x10000 then "\\u" ++ hex 4 n
      else "\\U" ++ hex 8 n

def quotedPiece : Piece → Text
  | .char c => quotedChar '"' c
  | .stray b => "\\x" ++ hex 2 b.toNat

def quote (s : Text) : Text :=
  "\"" ++ (pieces s).flatMap quotedPiece ++ "\""

def quoteChar (c : Char) : Text :=
  "'" ++ quotedChar '\'' c ++ "'"

end Text

end Turnstile
