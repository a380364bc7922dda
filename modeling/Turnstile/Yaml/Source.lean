import Turnstile.Text.Utf8

/-! A stream is read in blocks of 512 bytes. A byte that starts no character, or a character
that no stream may hold, makes its whole block unreadable; a character that is cut by the end of
a block belongs to the next one. A byte order mark at the start tells the encoding, which is
UTF-8 without one. -/
namespace Turnstile

namespace Yaml

structure Problem where
  /-- The line at fault, counted from 0. -/
  line : Option Nat
  what : Text
  deriving DecidableEq, Repr

def Problem.message (e : Problem) : Text :=
  match e.line with
  | some line => "yaml: line " ++ Text.ofNat (line + 1) ++ ": " ++ e.what
  | none => "yaml: " ++ e.what

def isAllowed (c : Char) : Bool :=
  let n := c.toNat
  n = 0x09 || n = 0x0A || n = 0x0D || (0x20 ≤ n && n ≤ 0x7E) || n = 0x85 ||
    (0xA0 ≤ n && n ≤ 0xD7FF) || (0xE000 ≤ n && n ≤ 0xFFFD) || 0x10000 ≤ n

inductive Start where
  | char (c : Char) (rest : Text)
  | cut
  | invalid
  deriving Repr

def utf8Width (b : UInt8) : Nat :=
  if b &&& 0x80 = 0x00 then 1
  else if b &&& 0xE0 = 0xC0 then 2
  else if b &&& 0xF0 = 0xE0 then 3
  else if b &&& 0xF8 = 0xF0 then 4
  else 0

def startUtf8 : Text → Start
  | [] => .cut
  | b :: s =>
    if (s.take 3).length + 1 < utf8Width b then .cut
    else
      match Text.firstPiece b s with
      | (.char c, rest) => .char c rest
      | (.stray _, _) => .invalid

/-- Reads a 16-bit unit, or two of them that stand for one character. -/
def startUtf16 (bigEndian : Bool) : Text → Start
  | a :: b :: s =>
    let unit (a b : UInt8) : Nat :=
      if bigEndian then a.toNat * 256 + b.toNat else b.toNat * 256 + a.toNat
    let high := unit a b
    if 0xDC00 ≤ high ∧ high < 0xE000 then .invalid
    else if 0xD800 ≤ high ∧ high < 0xDC00 then
      match s with
      | c :: d :: s =>
        let low := unit c d
        if 0xDC00 ≤ low ∧ low < 0xE000 then
          .char (Char.ofNat (0x10000 + (high - 0xD800) * 1024 + (low - 0xDC00))) s
        else .invalid
      | _ => .cut
    else .char (Char.ofNat high) s
  | _ => .cut

/-- The characters of a block after those in `chars`, the last first, and the bytes of a
character that is cut. -/
def decodeBlock (start : Text → Start) :
    Nat → Text → List Char → Except Problem (List Char × Text)
  | 0, raw, chars => .ok (chars, raw)
  | fuel + 1, raw, chars =>
    match raw with
    | [] => .ok (chars, [])
    | raw =>
      match start raw with
      | .cut => .ok (chars, raw)
      | .invalid => .error ⟨none, "invalid character encoding"⟩
      | .char c rest =>
        if isAllowed c then decodeBlock start fuel rest (c :: chars)
        else .error ⟨none, "control characters are not allowed"⟩

structure Source where
  chars : List Char
  /-- How many of the characters each block brings. -/
  blocks : List Nat
  /-- Why nothing can be read after them, unless the stream just ends. -/
  fault : Option Problem
  deriving Repr

namespace Source

def blockSize : Nat :=
  512

def ofBlocks (start : Text → Start) : Nat → Text → Text → Source
  | 0, _, _ => ⟨[], [], none⟩
  | fuel + 1, raw, rest =>
    match decodeBlock start blockSize raw [] with
    | .error e => ⟨[], [], some e⟩
    | .ok (chars, cut) =>
      if rest.isEmpty then
        let fault := if cut.isEmpty then none else some ⟨none, "incomplete character"⟩
        ⟨chars.reverse, [chars.length], fault⟩
      else
        let size := blockSize - cut.length
        let later := ofBlocks start fuel (cut ++ rest.take size) (rest.drop size)
        ⟨chars.reverse ++ later.chars, chars.length :: later.blocks, later.fault⟩

def ofText (s : Text) : Source :=
  let read (start : Text → Start) (markSize : Nat) : Source :=
    ofBlocks start (s.length + 1) ((s.take blockSize).drop markSize) (s.drop blockSize)
  match s with
  | 0xFF :: 0xFE :: _ => read (startUtf16 false) 2
  | 0xFE :: 0xFF :: _ => read (startUtf16 true) 2
  | 0xEF :: 0xBB :: 0xBF :: _ => read startUtf8 3
  | _ => read startUtf8 0

end Source

end Yaml

end Turnstile
