import Turnstile.Yaml.Token

/-! Tokens wait in a queue until they are taken. One is given out when two more wait behind it
and it cannot turn out to be the start of a key. So a fault in the stream shows up to two tokens
early, and a word is given out only once it is known whether a colon follows. -/
namespace Turnstile

namespace Yaml

/-- The last place on a level where a key could start. The outside of all flow collections is
a level, and so is the inside of each. -/
structure KeyPlace where
  /-- Whether a colon makes it a key. -/
  possible : Bool := false
  /-- Whether a block mapping needs a key there. -/
  required : Bool := false
  position : Nat := 0
  mark : Mark := {}
  deriving DecidableEq, Repr

/-- A key stands on the line of its colon, and not too far before it. -/
def KeyPlace.reaches (key : KeyPlace) (mark : Mark) : Bool :=
  mark.line ≤ key.mark.line && mark.index ≤ key.mark.index + 1024

def KeyPlace.checked (key : KeyPlace) (mark : Mark) : Except Problem KeyPlace :=
  if !key.possible || key.reaches mark then .ok key
  else if key.required then .error ⟨some key.mark.line, "could not find expected ':'"⟩
  else .ok { key with possible := false }

structure Scanner where
  cursor : Cursor
  queue : List Token := []
  taken : Nat := 0
  ready : Bool := false
  /-- The columns of the open block collections, the innermost first. -/
  indents : List Nat := []
  key : KeyPlace := {}
  /-- The places on the levels around it, the innermost first. -/
  outer : List KeyPlace := []
  /-- The positions of the tokens that may be the start of a key, each with the number of
  levels around it. Such a token is given out when the place on its level is not possible. -/
  awaited : List (Nat × Nat) := []
  keyAllowed : Bool := true
  deriving Repr

/-- Looks for a comment sign within some characters of the cursor, after blanks only. Gives
its distance. -/
def findComment (isBlank : Char → Bool) : Nat → Nat → Cursor → Except Problem (Option Nat × Cursor)
  | 0, _, c => .ok (none, c)
  | fuel + 1, distance, c => do
    let c ← c.require (distance + 1)
    match c.rest[distance]? with
    | some '#' => return (some distance, c)
    | some x => if isBlank x then findComment isBlank fuel (distance + 1) c else return (none, c)
    | none => return (none, c)

/-- Goes on to the end of the line that holds the character number `index`. The first
argument bounds the steps. -/
def skipLineOf (index : Nat) : List Char → Cursor → Except Problem Cursor
  | [], c => .ok c
  | _ :: bound, c => do
    if endsLine c.rest then
      if index ≤ c.mark.index then return c
      else skipLineOf index bound (← (← c.skipBreak).require 1)
    else skipLineOf index bound (← c.skip 1)

def commentReach : Nat :=
  512

def skipLineComment (c : Cursor) : Except Problem Cursor := do
  if c.lineEnded then return c
  match ← findComment isSpaceOrTab commentReach 0 c with
  | (some distance, c) => skipLineOf (c.mark.index + distance) c.rest c
  | (none, c) => return c

def isSimpleBlank (c : Char) : Bool :=
  isSpaceOrTab c || c = '\n' || c = '\r'

/-- Skips a comment and those on the next lines, up to the end of the last one's line. Only
line breaks in ASCII may stand between them. -/
def skipComments : List Char → Cursor → Except Problem Cursor
  | [], c => .ok c
  | _ :: bound, c => do
    let c ← skipLineOf c.mark.index c.rest c
    if c.rest.head?.any isSimpleBlank then
      match ← findComment isSimpleBlank (commentReach - 1) 1 c with
      | (some distance, c) =>
        skipComments bound (← skipLineOf (c.mark.index + distance) c.rest c)
      | (none, c) => return c
    else c.require 2

/-- Goes on to the next token. Tabs are skipped in flow collections and where no key may
start. Outside flow collections a key may start on each new line. Behind a byte order mark
the first character of each line is skipped until the next block. -/
def skipToToken (inFlow : Bool) :
    List Char → Cursor → Bool → Except Problem (Cursor × Bool)
  | bound, c, keyAllowed => do
    let c ← c.require 1
    let c := if c.mark.column = 0 && c.marked then c.advance else c
    let c ← c.skipWhile fun x => x = ' ' || ((inFlow || !keyAllowed) && x = '\t')
    let c ← if c.rest.head? = some '#' then skipComments c.rest c else pure c
    if !c.atBreak then return (c, keyAllowed)
    let c ← c.skipBreak
    match bound with
    | [] => return (c, keyAllowed)
    | _ :: bound => skipToToken inFlow bound c (keyAllowed || !inFlow)

namespace Scanner

def inFlow (s : Scanner) : Bool :=
  !s.outer.isEmpty

/-- The indentation of the innermost block collection, -1 outside all of them. -/
def indent (s : Scanner) : Int :=
  match s.indents with
  | column :: _ => column
  | [] => -1

def deepest : Nat :=
  10000

def position (s : Scanner) : Nat :=
  s.taken + s.queue.length

def push (s : Scanner) (lexeme : Lexeme) (cursor : Cursor) : Scanner :=
  { s with queue := s.queue ++ [⟨lexeme, s.cursor.mark.line⟩], cursor := cursor }

/-- Puts a token at a position in the queue, or at its end if the position has been taken. -/
def insertAt (s : Scanner) (position : Nat) (token : Token) : Scanner :=
  let place := if position < s.taken then s.queue.length else position - s.taken
  { s with queue := s.queue.take place ++ token :: s.queue.drop place }

def unroll (s : Scanner) (deeper : Nat → Bool) : Scanner :=
  if s.inFlow then s
  else
    let kept := s.indents.dropWhile deeper
    let ends := List.replicate (s.indents.length - kept.length) ⟨.blockEnd, s.cursor.mark.line⟩
    { s with indents := kept, queue := s.queue ++ ends }

def roll (s : Scanner) (position : Nat) (start : Lexeme) (mark : Mark) :
    Except Problem Scanner :=
  if s.inFlow || mark.column ≤ s.indent then .ok s
  else if s.indents.length ≥ deepest then s.cursor.fail "exceeded max depth of 10000"
  else .ok ({ s with indents := mark.column :: s.indents }.insertAt position ⟨start, mark.line⟩)

def forget (s : Scanner) (position : Nat) : Scanner :=
  { s with awaited := s.awaited.filter (·.1 ≠ position) }

def dropKey (s : Scanner) : Except Problem Scanner :=
  if !s.key.possible then .ok s
  else if s.key.required then .error ⟨some s.key.mark.line, "could not find expected ':'"⟩
  else .ok ({ s with key := { s.key with possible := false } }.forget s.key.position)

def saveKey (s : Scanner) : Except Problem Scanner := do
  if !s.keyAllowed then return s
  let mark := s.cursor.mark
  let s := (← s.dropKey).forget s.position
  return { s with
    key := ⟨true, !s.inFlow && s.indent = mark.column, s.position, mark⟩
    awaited := (s.position, s.outer.length) :: s.awaited }

/-- The end of the stream starts a new line. -/
def endStream (s : Scanner) : Except Problem Scanner := do
  let c := s.cursor
  let mark := if c.mark.column = 0 then c.mark else ⟨c.mark.index, c.mark.line + 1, 0⟩
  let s := { s with cursor := { c with mark := mark } }
  let s ← (s.unroll fun _ => true).dropKey
  return { s with keyAllowed := false }.push .streamEnd s.cursor

def directive (s : Scanner) : Except Problem Scanner := do
  let s ← (s.unroll fun _ => true).dropKey
  let (directive, next) ← readDirective s.cursor
  return { s with keyAllowed := false }.push directive next

def documentSign (s : Scanner) (sign : Lexeme) : Except Problem Scanner := do
  let s ← (s.unroll fun _ => true).dropKey
  return { s with keyAllowed := false }.push sign s.cursor.advance.advance.advance

def openFlow (s : Scanner) (start : Lexeme) : Except Problem Scanner := do
  let s ← s.saveKey
  if s.outer.length ≥ deepest then s.cursor.fail "exceeded max depth of 10000"
  else
    let s := { s with
      key := { position := s.position, mark := s.cursor.mark }
      outer := s.key :: s.outer
      keyAllowed := true }
    return s.push start s.cursor.advance

/-- Ends a flow collection. If no key could start in it, it is no longer waited for whether
the collection is a key itself. -/
def closeFlow (s : Scanner) (stop : Lexeme) : Except Problem Scanner := do
  let s ← s.dropKey
  let s := match s.outer with
    | [] => s
    | key :: outer => { s.forget s.key.position with key := key, outer := outer }
  return { s with keyAllowed := false }.push stop s.cursor.advance

def flowEntry (s : Scanner) : Except Problem Scanner := do
  let s ← s.dropKey
  return { s with keyAllowed := true }.push .flowEntry s.cursor.advance

def blockEntry (s : Scanner) : Except Problem Scanner := do
  if !s.inFlow && !s.keyAllowed then
    s.cursor.fail "block sequence entries are not allowed in this context"
  else
    let s ← s.roll s.position .blockSequenceStart s.cursor.mark
    let s ← s.dropKey
    return { s with keyAllowed := true }.push .blockEntry s.cursor.advance

def explicitKey (s : Scanner) : Except Problem Scanner := do
  if !s.inFlow && !s.keyAllowed then
    s.cursor.fail "mapping keys are not allowed in this context"
  else
    let s ← s.roll s.position .blockMappingStart s.cursor.mark
    let s ← s.dropKey
    return { s with keyAllowed := !s.inFlow }.push .key s.cursor.advance

def value (s : Scanner) : Except Problem Scanner := do
  let key ← s.key.checked s.cursor.mark
  let s := { s with key := key }
  if key.possible then
    let s := s.insertAt key.position ⟨.key, key.mark.line⟩
    let s ← s.roll key.position .blockMappingStart key.mark
    let s := s.forget key.position
    return { s with key := { key with possible := false }, keyAllowed := false }.push .value
      s.cursor.advance
  else if !s.inFlow && !s.keyAllowed then
    s.cursor.fail "mapping values are not allowed in this context"
  else
    let s ← s.roll s.position .blockMappingStart s.cursor.mark
    return { s with keyAllowed := !s.inFlow }.push .value s.cursor.advance

def name (s : Scanner) (lexeme : Text → Lexeme) : Except Problem Scanner := do
  let s ← s.saveKey
  let (name, next) ← readName s.cursor
  return { s with keyAllowed := false }.push (lexeme name) next

def tag (s : Scanner) : Except Problem Scanner := do
  let s ← s.saveKey
  let (tag, next) ← readTag s.cursor
  return { s with keyAllowed := false }.push tag next

def scalar (s : Scanner) (style : Style) (keyAllowed : Bool) (text : List Char) (next : Cursor) :
    Scanner :=
  { s with keyAllowed := keyAllowed }.push (.scalar style (Text.encode text.reverse)) next

def blockScalar (s : Scanner) (literal : Bool) : Except Problem Scanner := do
  let s ← s.dropKey
  let (text, next) ← readBlock literal s.indent s.cursor
  return s.scalar (if literal then .literal else .folded) true text next

def quotedScalar (s : Scanner) (single : Bool) : Except Problem Scanner := do
  let s ← s.saveKey
  let (text, next) ← readQuoted single s.cursor.rest s.cursor.advance []
  return s.scalar (if single then .singleQuoted else .doubleQuoted) false text next

def plainScalar (s : Scanner) : Except Problem Scanner := do
  let s ← s.saveKey
  let (text, next, broken) ←
    readPlain s.inFlow (s.indent + 1).toNat s.cursor.rest s.cursor [] {}
  return s.scalar .plain broken text next

def content (s : Scanner) (x : Char) (rest : List Char) : Except Problem Scanner :=
  if x = '[' then s.openFlow .flowSequenceStart
  else if x = '{' then s.openFlow .flowMappingStart
  else if x = ']' then s.closeFlow .flowSequenceEnd
  else if x = '}' then s.closeFlow .flowMappingEnd
  else if x = ',' then s.flowEntry
  else if x = '?' && (s.inFlow || endsWord rest) then s.explicitKey
  else if x = ':' && (s.inFlow || endsWord rest) then s.value
  else if x = '*' then s.name .aliased
  else if x = '&' then s.name .anchor
  else if x = '!' then s.tag
  else if x = '|' && !s.inFlow then s.blockScalar true
  else if x = '>' && !s.inFlow then s.blockScalar false
  else if x = '\'' then s.quotedScalar true
  else if x = '"' then s.quotedScalar false
  else if x = '\t' || x = '|' || x = '>' || x = '%' || x = '@' || x = '`' then
    s.cursor.fail "found character that cannot start any token"
  else s.plainScalar

def step (s : Scanner) : Except Problem Scanner := do
  let (c, keyAllowed) ← skipToToken s.inFlow s.cursor.rest s.cursor s.keyAllowed
  let s := { s with cursor := c, keyAllowed := keyAllowed }.unroll (c.mark.column < ·)
  let c ← c.require 4
  let s := { s with cursor := c }
  match c.rest with
  | [] => s.endStream
  | x :: rest =>
    if c.mark.column = 0 && x = '%' then s.directive
    else if c.atIndicator '-' then s.documentSign .documentStart
    else if c.atIndicator '.' then s.documentSign .documentEnd
    else if x = '-' && endsWord rest then s.blockEntry
    else
      let s ← s.content x rest
      return { s with cursor := ← skipLineComment s.cursor }

/-- Checks the place on the level with `depth` levels around it. Gives whether a key is
possible there. -/
def checkLevel (s : Scanner) (depth : Nat) : Except Problem (Bool × Scanner) := do
  if depth = s.outer.length then
    let key ← s.key.checked s.cursor.mark
    return (key.possible, { s with key := key })
  else
    let index := s.outer.length - 1 - depth
    match s.outer[index]? with
    | none => return (false, s)
    | some key =>
      let key ← key.checked s.cursor.mark
      return (key.possible, { s with outer := s.outer.set index key })

def headSettled (s : Scanner) : Except Problem (Bool × Scanner) := do
  if s.queue.length < 3 then return (false, s)
  match s.awaited.lookup s.taken with
  | none => return (true, s)
  | some depth =>
    let (possible, s) ← s.checkLevel depth
    return (!possible, s)

/-- Reads tokens until the first one can be given out. A key is not longer than 1024
characters, which bounds their number. -/
def fill : Nat → Scanner → Except Problem Scanner
  | 0, s => .ok s
  | fuel + 1, s => do
    let (settled, s) ← s.headSettled
    if settled then return { s with ready := true } else fill fuel (← s.step)

def peek (s : Scanner) : Except Problem (Token × Scanner) := do
  let s ← if s.ready then pure s else fill 2000 s
  match s.queue with
  | token :: _ => return (token, s)
  | [] => return (⟨.streamEnd, s.cursor.mark.line⟩, s)

def skip (s : Scanner) : Scanner :=
  { s.forget s.taken with queue := s.queue.drop 1, taken := s.taken + 1, ready := false }

def ofText (s : Text) : Scanner :=
  { cursor := .ofSource (.ofText s) }

end Scanner

end Yaml

end Turnstile
