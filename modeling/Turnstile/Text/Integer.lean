import Turnstile.Text.Basic

/-! An integer may have a sign, one of the prefixes `0x`, `0o` and `0b`, a leading zero for base
eight, and single underscores between digits. One that does not fit into 64 bits is refused, and
blanks around it are not skipped. -/
namespace Turnstile

namespace Text

inductive NumeralError where
  | malformed
  | outOfRange
  deriving DecidableEq, Repr

def NumeralError.message : NumeralError → Text
  | malformed => "invalid syntax"
  | outOfRange => "value out of range"

def digit? (b : UInt8) : Option Nat :=
  let n := b.toNat
  if 0x30 ≤ n && n ≤ 0x39 then some (n - 0x30)
  else if 0x61 ≤ n && n ≤ 0x7A then some (n - 0x57)
  else if 0x41 ≤ n && n ≤ 0x5A then some (n - 0x37)
  else none

def splitBase : Text → Nat × Text
  | 0x30 :: p :: d :: rest =>
    match digit? p with
    | some 11 => (2, d :: rest)
    | some 24 => (8, d :: rest)
    | some 33 => (16, d :: rest)
    | _ => (8, p :: d :: rest)
  | 0x30 :: rest => (8, rest)
  | s => (10, s)

/-- Reads digits after the number `n`, skipping underscores. The first digit that takes the
number past 64 bits ends it. -/
def readDigits (base n : Nat) : Text → Except NumeralError Nat
  | [] => .ok n
  | 0x5F :: s => readDigits base n s
  | b :: s =>
    match digit? b with
    | some d =>
      if base ≤ d then .error .malformed
      else
        let next := n * base + d
        if 1 <<< 64 ≤ next then .error .outOfRange else readDigits base next s
    | none => .error .malformed

def isDigitIn (hex : Bool) (b : UInt8) : Bool :=
  match digit? b with
  | some d => d < 10 || (hex && d < 16)
  | none => false

/-- Whether every underscore stands between two digits. `after` says whether the byte before
counts as a digit. -/
def underscoresApart (hex after : Bool) : Text → Bool
  | [] => true
  | 0x5F :: s => after && s.head?.any (isDigitIn hex) && underscoresApart hex false s
  | b :: s => underscoresApart hex (isDigitIn hex b) s

/-- Whether the underscores of a number are well placed. A base prefix counts as a digit. -/
def underscoresValid : Text → Bool
  | 0x30 :: p :: rest =>
    match digit? p with
    | some 11 | some 24 => underscoresApart false true rest
    | some 33 => underscoresApart true true rest
    | _ => underscoresApart false true (p :: rest)
  | s => underscoresApart false false s

def readNatural (s : Text) : Except NumeralError Nat :=
  if s.isEmpty then .error .malformed
  else
    let (base, digits) := splitBase s
    match readDigits base 0 digits with
    | .error e => .error e
    | .ok n => if s.contains 0x5F && !underscoresValid s then .error .malformed else .ok n

def readInteger (s : Text) : Except NumeralError Int :=
  let negative := s.head? == some 0x2D
  let magnitude := if negative || s.head? == some 0x2B then s.drop 1 else s
  match readNatural magnitude with
  | .error e => .error e
  | .ok n =>
    if negative then
      if 1 <<< 63 < n then .error .outOfRange else .ok (-(n : Int))
    else if 1 <<< 63 ≤ n then .error .outOfRange else .ok n

end Text

end Turnstile
