import Turnstile.Terminal.Sequence

/-! A text that is wider than a line goes on in the next one. Lines break at blanks and after
hyphens, and within words that are wider than a line; a style or a link ends with the line and
starts again on the next. The height of a wrapped text is counted apart: there control bytes
fill a cell. -/
namespace Turnstile

namespace Text

/-- A text while it is wrapped. The bytes of a line, a word and the blanks before it are kept
in reverse. -/
structure Wrapping where
  /-- The lines that are full, the last first. -/
  lines : List Text := []
  line : Text := []
  lineWidth : Nat := 0
  blanks : Text := []
  word : Text := []
  wordWidth : Nat := 0
  pen : Terminal.Pen := {}
  linePen : Terminal.Pen := {}
  deriving DecidableEq, Repr

namespace Wrapping

def addBlanks (w : Wrapping) : Wrapping :=
  { w with line := w.blanks ++ w.line, lineWidth := w.lineWidth + w.blanks.length, blanks := [] }

def addWord (w : Wrapping) : Wrapping :=
  if w.word.isEmpty then w
  else
    let w := w.addBlanks
    { w with
      line := w.word ++ w.line
      lineWidth := w.lineWidth + w.wordWidth
      word := []
      wordWidth := 0
      linePen := w.pen }

def breakLine (w : Wrapping) : Wrapping :=
  { w with
    lines := (w.linePen.lift.reverse ++ w.line).reverse :: w.lines
    line := w.linePen.resume.reverse
    lineWidth := 0
    blanks := [] }

def addToWord (limit : Nat) (w : Wrapping) (bytes : Text) (width : Nat) : Wrapping :=
  let w := if limit < w.wordWidth + width then w.addWord else w
  let w := { w with word := bytes ++ w.word, wordWidth := w.wordWidth + width }
  if limit < w.lineWidth + w.wordWidth + w.blanks.length then w.breakLine else w

def add (limit : Nat) (w : Wrapping) (q : Terminal.Sequence) (bytes : Text) : Wrapping :=
  if q.width = 0 then { w with word := bytes ++ w.word, pen := q.stroke.apply w.pen }
  else if bytes = [0x20] ∧ w.pen.style.hidesBlanks then
    let w := w.addWord
    { w with blanks := 0x20 :: w.blanks }
  else if bytes = [0x2D] then
    let w := w.addBlanks
    if w.lineWidth + w.wordWidth + 1 ≤ limit then
      let w := w.addWord
      { w with line := 0x2D :: w.line, lineWidth := w.lineWidth + 1 }
    else w.addToWord limit bytes 1
  else w.addToWord limit bytes q.width

/-- Wraps a text. The first `skip` bytes end the sequence `q`, of which the bytes `taken` are
read, the last first. -/
def run (limit : Nat) (w : Wrapping) (q : Terminal.Sequence) (taken : Text) :
    (skip : Nat) → Text → Wrapping
  | _, [] => if taken.isEmpty then w else w.add limit q taken
  | skip + 1, b :: s => run limit w q (b :: taken) skip s
  | 0, b :: s =>
    let w := if taken.isEmpty then w else w.add limit q taken
    let q := Terminal.Sequence.first b s
    run limit w q [b] (q.size - 1) s

def finish (w : Wrapping) : List Text :=
  let w := w.addWord
  ((w.linePen.finish.reverse ++ w.line).reverse :: w.lines).reverse

end Wrapping

def wrap (limit : Nat) (s : Text) : List Text :=
  if limit = 0 then [s] else (Wrapping.run limit {} { size := 0 } [] 0 s).finish

/-- The lines of a text while they are counted. -/
structure LineCount where
  full : Nat := 0
  lineWidth : Nat := 0
  blanks : Nat := 0
  wordSize : Nat := 0
  wordWidth : Nat := 0
  deriving DecidableEq, Repr

namespace LineCount

def addBlanks (c : LineCount) : LineCount :=
  { c with lineWidth := c.lineWidth + c.blanks, blanks := 0 }

def addWord (c : LineCount) : LineCount :=
  if c.wordSize = 0 then c
  else
    let c := c.addBlanks
    { c with lineWidth := c.lineWidth + c.wordWidth, wordSize := 0, wordWidth := 0 }

def addToWord (limit : Nat) (c : LineCount) (width : Nat) : LineCount :=
  let c := if limit < c.wordWidth + width then c.addWord else c
  let c := { c with wordSize := c.wordSize + 1, wordWidth := c.wordWidth + width }
  if limit < c.lineWidth + c.wordWidth + c.blanks then
    { c with full := c.full + 1, lineWidth := 0, blanks := 0 }
  else c

def add (limit : Nat) (c : LineCount) (b : UInt8) : LineCount :=
  if b = 0x20 then
    let c := c.addWord
    { c with blanks := c.blanks + 1 }
  else if b = 0x2D then
    let c := c.addBlanks
    if limit ≤ c.lineWidth + c.wordWidth then
      { c with wordSize := c.wordSize + 1, wordWidth := c.wordWidth + 1 }
    else
      let c := c.addWord
      { c with lineWidth := c.lineWidth + 1 }
  else c.addToWord limit 1

def run (limit : Nat) (c : LineCount) (place : Terminal.Place) : (skip : Nat) → Text → LineCount
  | _, [] => c
  | skip + 1, _ :: s => run limit c place skip s
  | 0, b :: s =>
    match place.read b with
    | .cluster =>
      let e := firstCluster b s
      run limit (c.addToWord limit e.width) .ground (e.size - 1) s
    | .move .absorbed place => run limit { c with wordSize := c.wordSize + 1 } place 0 s
    | .move _ place => run limit (c.add limit b) place 0 s

end LineCount

def height (limit : Nat) (s : Text) : Nat :=
  if limit = 0 then 1 else (LineCount.run limit {} .ground 0 s).full + 1

end Text

end Turnstile
