import Turnstile.Yaml.Source

/-! A cursor holds the characters that are left and the place reached, with lines and columns
counted from 0. Characters have to be at hand before they are looked at: asking for more of them
fetches blocks of the stream, so a fault shows as soon as its block is fetched. -/
namespace Turnstile

namespace Yaml

structure Mark where
  index : Nat := 0
  line : Nat := 0
  column : Nat := 0
  deriving DecidableEq, Repr

def isSpaceOrTab (c : Char) : Bool :=
  c = ' ' || c = '\t'

def isBreak (c : Char) : Bool :=
  c = '\n' || c = '\r' || c.toNat = 0x85 || c.toNat = 0x2028 || c.toNat = 0x2029

/-- Whether a word ends here: at a blank, a line end or the end of the stream. -/
def endsWord : List Char → Bool
  | [] => true
  | c :: _ => isSpaceOrTab c || isBreak c

def endsLine : List Char → Bool
  | [] => true
  | c :: _ => isBreak c

def isWordChar (c : Char) : Bool :=
  c.isAlphanum || c = '_' || c = '-'

structure Cursor where
  rest : List Char
  mark : Mark := {}
  /-- How many characters are at hand. Past the last one, the end of the stream counts too. -/
  atHand : Nat := 0
  /-- How many characters each further block brings. -/
  blocks : List Nat := []
  fault : Option Problem := none
  /-- Whether a byte order mark was next when characters were last fetched. -/
  marked : Bool := false
  /-- Whether a line has ended since the last character that is no blank. -/
  lineEnded : Bool := false
  deriving Repr

namespace Cursor

def ofSource (s : Source) : Cursor :=
  { rest := s.chars, blocks := s.blocks, fault := s.fault }

def fail (c : Cursor) (what : Text) : Except Problem α :=
  .error ⟨some c.mark.line, what⟩

def fetch (c : Cursor) (n : Nat) : List Nat → Nat → Except Problem Cursor
  | [], atHand =>
    match c.fault with
    | some e => .error e
    | none =>
      .ok { c with atHand := atHand + 1, blocks := [], marked := c.rest.head? == some '\uFEFF' }
  | size :: blocks, atHand =>
    if atHand + size < n then fetch c n blocks (atHand + size)
    else
      .ok { c with
        atHand := atHand + size, blocks := blocks, marked := c.rest.head? == some '\uFEFF' }

def require (c : Cursor) (n : Nat) : Except Problem Cursor :=
  if n ≤ c.atHand then .ok c else c.fetch n c.blocks c.atHand

def advance (c : Cursor) : Cursor :=
  { c with
    rest := c.rest.drop 1
    mark := { c.mark with index := c.mark.index + 1, column := c.mark.column + 1 }
    atHand := c.atHand - 1
    lineEnded := c.lineEnded && c.rest.head?.any isSpaceOrTab }

/-- Goes on by one character and makes sure that `n` more are at hand. -/
def skip (c : Cursor) (n : Nat) : Except Problem Cursor :=
  c.advance.require n

/-- Goes on over the characters that satisfy `p`, none of which ends the line. The first
argument bounds the steps. Gives the characters after those in `taken`, the last first. -/
def takeFrom (p : Char → Bool) : List Char → Cursor → List Char → Except Problem (List Char × Cursor)
  | [], c, taken => .ok (taken, c)
  | x :: rest, c, taken => do
    if p x then takeFrom p rest (← c.skip 1) (x :: taken) else return (taken, c)

def takeWhile (c : Cursor) (p : Char → Bool) : Except Problem (List Char × Cursor) := do
  let c ← c.require 1
  let (taken, c) ← takeFrom p c.rest c []
  return (taken.reverse, c)

def skipWhile (c : Cursor) (p : Char → Bool) : Except Problem Cursor := do
  let c ← c.require 1
  let (_, c) ← takeFrom p c.rest c []
  return c

/-- The line break at the cursor as it is kept, and the cursor on the next line. -/
def lineBreak? (c : Cursor) : Option (List Char × Cursor) :=
  let next (width : Nat) : Cursor :=
    { c with
      rest := c.rest.drop width
      mark := ⟨c.mark.index + width, c.mark.line + 1, 0⟩
      atHand := c.atHand - width
      lineEnded := true }
  match c.rest with
  | '\r' :: '\n' :: _ => some (['\n'], next 2)
  | x :: _ =>
    if !isBreak x then none
    else if x.toNat = 0x2028 ∨ x.toNat = 0x2029 then some ([x], next 1)
    else some (['\n'], next 1)
  | [] => none

def atBreak (c : Cursor) : Bool :=
  c.rest.head?.any isBreak

def readBreak (c : Cursor) : Except Problem (List Char × Cursor) := do
  let c ← c.require 2
  match c.lineBreak? with
  | some result => return result
  | none => return ([], c)

def skipBreak (c : Cursor) : Except Problem Cursor := do
  if c.atBreak then return (← c.readBreak).2 else return c

/-- Whether three signs `sign` stand as a word at the start of a line. -/
def atIndicator (c : Cursor) (sign : Char) : Bool :=
  c.mark.column = 0 &&
    match c.rest with
    | a :: b :: d :: rest => a = sign && b = sign && d = sign && endsWord rest
    | _ => false

def atDocumentIndicator (c : Cursor) : Bool :=
  c.atIndicator '-' || c.atIndicator '.'

def skipBlanksAndComment (c : Cursor) : Except Problem Cursor := do
  let c ← c.skipWhile isSpaceOrTab
  if c.rest.head? == some '#' then c.skipWhile fun x => !isBreak x else return c

end Cursor

end Yaml

end Turnstile
