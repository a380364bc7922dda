import Turnstile.Yaml.Scalar

/-! A stream is cut into tokens from left to right, and indentation shows as tokens too: a block
collection starts with a token of its own and ends with `blockEnd`. A word is a key only if a
colon follows it on its line, so the token `key` is put before it once the colon has been met.
-/
namespace Turnstile

namespace Yaml

inductive Lexeme where
  | streamEnd
  | version (major minor : Nat)
  | handle (handle root : Text)
  | documentStart
  | documentEnd
  | blockSequenceStart
  | blockMappingStart
  | blockEnd
  | flowSequenceStart
  | flowSequenceEnd
  | flowMappingStart
  | flowMappingEnd
  | blockEntry
  | flowEntry
  | key
  | value
  | aliased (name : Text)
  | anchor (name : Text)
  | tag (handle suffix : Text)
  | scalar (style : Style) (value : Text)
  deriving DecidableEq, Repr

structure Token where
  lexeme : Lexeme
  /-- The line where it starts, counted from 0. -/
  line : Nat
  deriving DecidableEq, Repr

def isTagChar (c : Char) : Bool :=
  isWordChar c || ";/?:@&=+$,.!~*'()[]%".toList.contains c

def readOctet (c : Cursor) : Except Problem (UInt8 × Cursor) := do
  let c ← c.require 3
  match c.rest with
  | '%' :: a :: b :: _ =>
    match hexDigit? a, hexDigit? b with
    | some a, some b => return ((a * 16 + b).toUInt8, c.advance.advance.advance)
    | _, _ => c.fail "did not find URI escaped octet"
  | _ => c.fail "did not find URI escaped octet"

def readTrailingOctets : Nat → Cursor → Except Problem (Text × Cursor)
  | 0, c => .ok ([], c)
  | n + 1, c => do
    let (octet, next) ← readOctet c
    if octet &&& 0xC0 ≠ 0x80 then c.fail "found an incorrect trailing UTF-8 octet"
    else
      let (octets, next) ← readTrailingOctets n next
      return (octet :: octets, next)

def readOctets (c : Cursor) : Except Problem (Text × Cursor) := do
  let (octet, next) ← readOctet c
  let width := utf8Width octet
  if width = 0 then c.fail "found an incorrect leading UTF-8 octet"
  else
    let (octets, next) ← readTrailingOctets (width - 1) next
    return (octet :: octets, next)

/-- Reads the characters of a tag after those in `s`. The first argument bounds the steps. -/
def readTagText : List Char → Cursor → Text → Except Problem (Text × Cursor)
  | [], c, s => .ok (s, c)
  | _ :: bound, c, s =>
    match c.rest with
    | [] => .ok (s, c)
    | x :: _ => do
      if x = '%' then
        let (octets, next) ← readOctets c
        readTagText bound (← next.require 1) (s ++ octets)
      else if isTagChar x then readTagText bound (← c.skip 1) (s ++ Text.encode [x])
      else return (s, c)

def readTagTextOne (c : Cursor) : Except Problem (Text × Cursor) := do
  let c ← c.require 1
  let (s, next) ← readTagText c.rest c []
  if s.isEmpty then c.fail "did not find expected tag URI" else return (s, next)

/-- Reads a tag: `!<text>`, `!handle!text` or `!text`. -/
def readTag (c : Cursor) : Except Problem (Lexeme × Cursor) := do
  let c ← c.require 2
  let (tag, c) ←
    match c.rest.drop 1 with
    | '<' :: _ => do
      let (suffix, c) ← readTagTextOne c.advance.advance
      if c.rest.head? ≠ some '>' then c.fail "did not find the expected '>'"
      else pure (Lexeme.tag [] suffix, c.advance)
    | _ => do
      let (name, c) ← c.advance.takeWhile isWordChar
      if c.rest.head? = some '!' then
        let (suffix, c) ← readTagTextOne c.advance
        pure (Lexeme.tag (Text.encode ('!' :: name ++ ['!'])) suffix, c)
      else
        let (suffix, c) ← readTagText c.rest c (Text.encode name)
        pure (if suffix.isEmpty then Lexeme.tag [] "!" else Lexeme.tag "!" suffix, c)
  let c ← c.require 1
  if endsWord c.rest then return (tag, c)
  else c.fail "did not find expected whitespace or line break"

def readName (c : Cursor) : Except Problem (Text × Cursor) := do
  let (name, c) ← c.advance.takeWhile isWordChar
  let ends := match c.rest with
    | x :: _ => "?:,]\x7d%@`".toList.contains x
    | [] => true
  if name.isEmpty || !(ends || endsWord c.rest) then
    c.fail "did not find expected alphabetic or numeric character"
  else return (Text.encode name, c)

def readVersionNumber (c : Cursor) : Except Problem (Nat × Cursor) := do
  let (digits, c) ← c.takeWhile Char.isDigit
  if digits.isEmpty then c.fail "did not find expected version number"
  else if digits.length > 2 then c.fail "found extremely long version number"
  else return (digits.foldl (fun n d => n * 10 + (d.toNat - 0x30)) 0, c)

def readVersion (c : Cursor) : Except Problem (Lexeme × Cursor) := do
  let (major, c) ← readVersionNumber (← c.skipWhile isSpaceOrTab)
  if c.rest.head? ≠ some '.' then c.fail "did not find expected digit or '.' character"
  else
    let (minor, c) ← readVersionNumber c.advance
    return (.version major minor, c)

def readHandle (c : Cursor) : Except Problem (Lexeme × Cursor) := do
  let c ← c.skipWhile isSpaceOrTab
  if c.rest.head? ≠ some '!' then c.fail "did not find expected '!'"
  else
    let (name, c) ← c.advance.takeWhile isWordChar
    let closed := c.rest.head? = some '!'
    if !name.isEmpty && !closed then c.fail "did not find expected '!'"
    else
      let c ← (if closed then c.advance else c).require 1
      if !c.rest.head?.any isSpaceOrTab then c.fail "did not find expected whitespace"
      else
        let (root, c) ← readTagTextOne (← c.skipWhile isSpaceOrTab)
        if endsWord c.rest then
          return (.handle (Text.encode ('!' :: name ++ if closed then ['!'] else [])) root, c)
        else c.fail "did not find expected whitespace or line break"

def readDirective (c : Cursor) : Except Problem (Lexeme × Cursor) := do
  let (name, c) ← c.advance.takeWhile isWordChar
  if name.isEmpty then c.fail "could not find expected directive name"
  else if !endsWord c.rest then c.fail "found unexpected non-alphabetical character"
  else
    let (directive, c) ←
      if name = "YAML".toList then readVersion c
      else if name = "TAG".toList then readHandle c
      else c.fail "found unknown directive name"
    let c ← c.skipBlanksAndComment
    if endsLine c.rest then return (directive, ← c.skipBreak)
    else c.fail "did not find expected comment or line break"

end Yaml

end Turnstile
