import Turnstile.Terminal.Pen
import Turnstile.Text.Width

/-! A text falls into sequences from left to right: escape sequences, which fill no cells, and
between them single bytes and clusters. A byte that cannot go on with an escape sequence ends it
and starts the next one. -/
namespace Turnstile

namespace Terminal

inductive Stroke where
  | keep
  | style (numbers : List Parameter)
  | link (l : Link)
  deriving DecidableEq, Repr

def Stroke.apply (p : Pen) : Stroke → Pen
  | keep => p
  | style numbers => { p with style := p.style.apply numbers }
  | link l => { p with link := l }

structure Sequence where
  size : Nat
  width : Nat := 0
  stroke : Stroke := .keep
  deriving DecidableEq, Repr

namespace Sequence

def isIntermediate (b : UInt8) : Bool :=
  0x20 ≤ b && b ≤ 0x2F

/-- What the string of a command does to the pen: command 8 has two fields, for the
attributes and the target of a link. -/
def strokeOf (data : Text) : Stroke :=
  let isDigit (b : UInt8) : Bool := 0x30 ≤ b && b ≤ 0x39
  let digits := data.takeWhile isDigit
  if !digits.isEmpty && (digits.dropWhile (· = 0x30)) = [0x38] then
    match Text.splitByte 0x3B data with
    | [_, attributes, target] => .link ⟨attributes, target⟩
    | _ => .keep
  else .keep

/-- A string after the first `size` bytes of its sequence. Commands may end with a bell. -/
def string (size : Nat) (isCommand : Bool) (s : Text) : Sequence :=
  let ends (b : UInt8) : Bool :=
    b = 0x18 || b = 0x1A || b = 0x1B || b = 0x9C || (isCommand && b = 0x07)
  let data := s.takeWhile (!ends ·)
  let closing :=
    match s.dropWhile (!ends ·) with
    | 0x07 :: _ | 0x9C :: _ => 1
    | 0x1B :: 0x5C :: _ => 2
    | _ => 0
  { size := size + data.length + closing
    stroke := if isCommand then strokeOf data else .keep }

/-- A control function after the first `size` bytes of its sequence, or a device control
string, which goes on after the letter. -/
def control (size : Nat) (isControl isDevice : Bool) (s : Text) : Sequence :=
  let isMark (b : UInt8) : Bool := 0x3C ≤ b && b ≤ 0x3F
  let isParameter (b : UInt8) : Bool := 0x30 ≤ b && b ≤ 0x3B
  let marks := s.takeWhile isMark
  let s := s.dropWhile isMark
  let numbers := s.takeWhile isParameter
  let s := s.dropWhile isParameter
  let intermediates := s.takeWhile isIntermediate
  let size := size + marks.length + numbers.length + intermediates.length
  match s.dropWhile isIntermediate with
  | [] => { size }
  | b :: s =>
    if b < 0x40 ∨ 0x7E < b then { size }
    else if isDevice then string (size + 1) false s
    else if isControl ∧ b = 0x6D ∧ marks.isEmpty ∧ intermediates.isEmpty then
      { size := size + 1, stroke := .style (Parameter.read numbers) }
    else { size := size + 1 }

def escape (s : Text) : Sequence :=
  let intermediates := s.takeWhile isIntermediate
  let size := intermediates.length + 1
  match s.dropWhile isIntermediate with
  | [] => { size }
  | b :: s =>
    if b = 0x5B then control (size + 1) intermediates.isEmpty false s
    else if b = 0x50 then control (size + 1) false intermediates.isEmpty s
    else if b = 0x5D then string (size + 1) intermediates.isEmpty s
    else if b = 0x58 ∨ b = 0x5E ∨ b = 0x5F then string (size + 1) false s
    else if 0x30 ≤ b ∧ b ≤ 0x7E then { size := size + 1 }
    else { size }

def first (b : UInt8) (s : Text) : Sequence :=
  if b = 0x1B then escape s
  else if b = 0x9B then control 1 true false s
  else if b = 0x90 then control 1 false true s
  else if b = 0x9D then string 1 true s
  else if b = 0x98 ∨ b = 0x9E ∨ b = 0x9F then string 1 false s
  else if 0xC0 ≤ b then
    let e := Text.firstCluster b s
    { size := e.size, width := e.width }
  else { size := 1, width := if 0x20 ≤ b ∧ b ≤ 0x7E then 1 else 0 }

end Sequence

end Terminal

end Turnstile
