import Turnstile.Yaml.Cursor

/-! Scalars are written plain, between quotes, or as a block of lines; the lines of plain and
quoted scalars are folded. Texts are put together with the last character first. Where a
function reads on and on, a list of characters at least as long as what is left bounds its
steps. -/
namespace Turnstile

namespace Yaml

inductive Style where
  | plain
  | singleQuoted
  | doubleQuoted
  | literal
  | folded
  deriving DecidableEq, Repr

/-- Blanks and line breaks between two words, the last first. -/
structure Gap where
  spaces : List Char := []
  broken : Bool := false
  first : List Char := []
  /-- The line breaks after the first. -/
  more : List Char := []
  deriving Repr

def Gap.text (gap : Gap) : List Char :=
  if !gap.broken then gap.spaces
  else if gap.first = ['\n'] then
    if gap.more.isEmpty then [' '] else gap.more
  else gap.more ++ gap.first

/-- Reads on in a gap. Tabs must not stand left of `indent` once a line has ended. -/
def readGap (indent : Nat) : List Char → Cursor → Gap → Except Problem (Gap × Cursor)
  | [], c, gap => .ok (gap, c)
  | _ :: bound, c, gap =>
    match c.rest with
    | [] => .ok (gap, c)
    | x :: _ => do
      if isSpaceOrTab x then
        if gap.broken && c.mark.column < indent && x = '\t' then
          c.fail "found a tab character that violates indentation"
        else
          readGap indent bound (← c.skip 1)
            (if gap.broken then gap else { gap with spaces := x :: gap.spaces })
      else if isBreak x then
        let (kept, c) ← c.readBreak
        readGap indent bound (← c.require 1)
          (if gap.broken then { gap with more := kept ++ gap.more }
            else { gap with spaces := [], broken := true, first := kept })
      else return (gap, c)

/-- Reads on in a word of a plain scalar. A colon before a blank ends it, and so do the signs
of flow collections inside one. -/
def readWord (inFlow : Bool) : List Char → Cursor → List Char → Except Problem (List Char × Cursor)
  | [], c, word => .ok (word, c)
  | x :: rest, c, word => do
    if isSpaceOrTab x || isBreak x || (x = ':' && endsWord rest) ||
        (inFlow && (x = ',' || x = '?' || x = '[' || x = ']' || x = '{' || x = '}')) then
      return (word, c)
    else readWord inFlow rest (← c.skip 2) (x :: word)

/-- Reads on in a plain scalar whose text so far is `text`, after a gap. Gives the text, the
cursor, and whether a line has ended since its last word. -/
def readPlain (inFlow : Bool) (indent : Nat) :
    List Char → Cursor → List Char → Gap → Except Problem (List Char × Cursor × Bool)
  | [], c, text, gap => .ok (text, c, gap.broken)
  | _ :: bound, c, text, gap => do
    let c ← c.require 4
    if c.atDocumentIndicator || c.rest.head? == some '#' then return (text, c, gap.broken)
    match ← readWord inFlow c.rest c [] with
    | ([], c) => return (text, c, gap.broken)
    | (word, c) =>
      let text := word ++ gap.text ++ text
      if !(c.rest.head?.any isSpaceOrTab || c.atBreak) then return (text, c, false)
      let c ← c.require 1
      let (gap, c) ← readGap indent c.rest c {}
      if !inFlow && c.mark.column < indent then return (text, c, gap.broken)
      else readPlain inFlow indent bound c text gap

def hexDigit? (c : Char) : Option Nat :=
  if c.isDigit then some (c.toNat - 0x30)
  else if 'a' ≤ c ∧ c ≤ 'f' then some (c.toNat - 0x57)
  else if 'A' ≤ c ∧ c ≤ 'F' then some (c.toNat - 0x37)
  else none

def escape? (c : Char) : Option Nat :=
  match c with
  | '0' => some 0x00
  | 'a' => some 0x07
  | 'b' => some 0x08
  | 't' | '\t' => some 0x09
  | 'n' => some 0x0A
  | 'v' => some 0x0B
  | 'f' => some 0x0C
  | 'r' => some 0x0D
  | 'e' => some 0x1B
  | ' ' | '"' | '\'' | '\\' => some c.toNat
  | 'N' => some 0x85
  | '_' => some 0xA0
  | 'L' => some 0x2028
  | 'P' => some 0x2029
  | _ => none

def escapeWidth? (c : Char) : Option Nat :=
  match c with
  | 'x' => some 2
  | 'u' => some 4
  | 'U' => some 8
  | _ => none

def readEscape (c : Cursor) : Except Problem (Char × Cursor) :=
  match c.rest.drop 1 with
  | [] => c.fail "found unknown escape character"
  | x :: _ =>
    match escape? x, escapeWidth? x with
    | some n, _ => .ok (Char.ofNat n, c.advance.advance)
    | none, none => c.fail "found unknown escape character"
    | none, some width => do
      let c ← c.advance.advance.require width
      match (c.rest.take width).mapM hexDigit? with
      | none => c.fail "did not find expected hexadecimal number"
      | some digits =>
        let value := digits.foldl (fun n d => n * 16 + d) 0
        if digits.length < width then c.fail "did not find expected hexadecimal number"
        else if !value.isValidChar then c.fail "found invalid character escape code"
        else return (Char.ofNat value, digits.foldl (fun c _ => c.advance) c)

/-- Reads on in a quoted scalar up to a blank, a line end or the right quote. Gives the text,
whether a backslash takes the line end, and the cursor. -/
def readQuotedWord (single : Bool) :
    List Char → Cursor → List Char → Except Problem (List Char × Bool × Cursor)
  | [], c, text => .ok (text, false, c)
  | _ :: bound, c, text =>
    match c.rest with
    | [] => .ok (text, false, c)
    | x :: rest => do
      if isSpaceOrTab x || isBreak x then return (text, false, c)
      else if single && x = '\'' then
        if rest.head? = some '\'' then
          readQuotedWord single bound (← c.advance.skip 2) ('\'' :: text)
        else return (text, false, c)
      else if !single && x = '"' then return (text, false, c)
      else if !single && x = '\\' then
        if rest.head?.any isBreak then
          let c ← c.require 3
          return (text, true, ← c.advance.skipBreak)
        else
          let (y, c) ← readEscape c
          readQuotedWord single bound (← c.require 2) (y :: text)
      else readQuotedWord single bound (← c.skip 2) (x :: text)

def readQuoted (single : Bool) :
    List Char → Cursor → List Char → Except Problem (List Char × Cursor)
  | [], c, _ => c.fail "found unexpected end of stream"
  | _ :: bound, c, text => do
    let c ← c.require 4
    if c.atDocumentIndicator then c.fail "found unexpected document indicator"
    else if c.rest.isEmpty then c.fail "found unexpected end of stream"
    else
      let (text, escaped, c) ← readQuotedWord single c.rest c text
      let c ← c.require 1
      if c.rest.head? = some (if single then '\'' else '"') then return (text, c.advance)
      else
        let (gap, c) ← readGap 0 c.rest c { broken := escaped }
        readQuoted single bound c (gap.text ++ text)

inductive Chomping where
  | strip
  | clip
  | keep
  deriving DecidableEq, Repr

def readHeader (c : Cursor) : Except Problem (Chomping × Nat × Cursor) := do
  let chomping? (c : Cursor) : Option Chomping :=
    match c.rest.head? with
    | some '+' => some .keep
    | some '-' => some .strip
    | _ => none
  let increment (c : Cursor) : Except Problem (Nat × Cursor) := do
    match c.rest.head? with
    | some '0' => c.fail "found an indentation indicator equal to 0"
    | some x => if x.isDigit then return (x.toNat - 0x30, ← c.skip 1) else return (0, c)
    | none => return (0, c)
  match chomping? c with
  | some chomping =>
    let (n, c) ← increment (← c.skip 1)
    return (chomping, n, c)
  | none =>
    let (n, c) ← increment c
    if n = 0 then return (.clip, 0, c)
    match chomping? c with
    | some chomping => return (chomping, n, ← c.skip 1)
    | none => return (.clip, n, c)

/-- Skips spaces, but none at the column `indent` or right of it unless that is 0. -/
def skipIndent (indent : Nat) : List Char → Cursor → Except Problem Cursor
  | [], c => .ok c
  | x :: rest, c => do
    if (indent = 0 || c.mark.column < indent) && x = ' ' then
      skipIndent indent rest (← c.skip 1)
    else return c

/-- Reads indentation and empty lines before a line of a block scalar. Gives the line breaks,
the deepest indentation met and the cursor. An `indent` of 0 is not known yet. -/
def readBlockBreaks (indent : Nat) :
    List Char → Cursor → List Char → Nat → Except Problem (List Char × Nat × Cursor)
  | bound, c, breaks, deepest => do
    let c ← c.require 1
    let c ← skipIndent indent c.rest c
    let deepest := max deepest c.mark.column
    if (indent = 0 || c.mark.column < indent) && c.rest.head? == some '\t' then
      c.fail "found a tab character where an indentation space is expected"
    else if c.atBreak then
      let (kept, c) ← c.readBreak
      match bound with
      | [] => return (kept ++ breaks, deepest, c)
      | _ :: bound => readBlockBreaks indent bound c (kept ++ breaks) deepest
    else return (breaks, deepest, c)

structure Block where
  text : List Char := []
  lineEnd : List Char := []
  empties : List Char := []
  leadingBlank : Bool := false
  deriving Repr

def readBlockLines (literal : Bool) (indent : Nat) :
    List Char → Cursor → Block → Except Problem (Block × Cursor)
  | [], c, block => .ok (block, c)
  | _ :: bound, c, block => do
    if c.mark.column ≠ indent || c.rest.isEmpty then return (block, c)
    let blank := c.rest.head?.any isSpaceOrTab
    let joint :=
      if !literal && !block.leadingBlank && !blank && block.lineEnd = ['\n'] then
        if block.empties.isEmpty then [' '] else []
      else block.lineEnd
    let (text, c) ← Cursor.takeFrom (fun x => !isBreak x) c.rest c
      (block.empties ++ joint ++ block.text)
    let (lineEnd, c) ← c.readBreak
    let (empties, _, c) ← readBlockBreaks indent c.rest c [] 0
    readBlockLines literal indent bound c ⟨text, lineEnd, empties, blank⟩

/-- Reads a block scalar, the sign of which is at hand. `parent` is the indentation around
it, -1 at the top. -/
def readBlock (literal : Bool) (parent : Int) (c : Cursor) :
    Except Problem (List Char × Cursor) := do
  let (chomping, increment, c) ← readHeader (← c.skip 1)
  let c ← c.skipBlanksAndComment
  if !endsLine c.rest then c.fail "did not find expected comment or line break"
  else
    let c ← c.skipBreak
    let given := if increment = 0 then 0 else parent.toNat + increment
    let (empties, deepest, c) ← readBlockBreaks given c.rest c [] 0
    let indent := if given = 0 then max deepest (max (parent + 1).toNat 1) else given
    let (block, c) ← readBlockLines literal indent c.rest c { empties := empties }
    let tail := match chomping with
      | .strip => []
      | .clip => block.lineEnd
      | .keep => block.empties ++ block.lineEnd
    return (tail ++ block.text, c)

end Yaml

end Turnstile
