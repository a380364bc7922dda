import Turnstile.Text.Basic

/-! A terminal writes with a pen that has a style and may draw a link. Sequences in a text
change both, and a change lasts until another sequence takes it back. Sequences that move the
pen or clear the screen change neither. -/
namespace Turnstile

namespace Terminal

inductive Color where
  | basic (n : Nat)
  | indexed (n : Nat)
  | direct (red green blue : Nat)
  deriving DecidableEq, Repr

/-- A number in a sequence that changes the style, and whether a colon ties it to the next. -/
structure Parameter where
  value : Nat
  tied : Bool
  deriving DecidableEq, Repr

/-- The numbers in a text with the separators `;` and `:`, after those in `done` and the digits
of `value`, the last first. -/
def Parameter.collect (done : List Parameter) (value : Nat) : Text → List Parameter
  | [] => ⟨value, false⟩ :: done
  | b :: s =>
    if b = 0x3A ∨ b = 0x3B then collect (⟨value, b = 0x3A⟩ :: done) 0 s
    else collect done (value * 10 + (b.toNat - 0x30)) s

/-- The numbers of a sequence. A number that is left out is 0. -/
def Parameter.read (s : Text) : List Parameter :=
  if s.isEmpty then [] else (collect [] 0 s).reverse

structure Style where
  /-- The attributes from bold, 1, to struck out, 9, without underlining. -/
  attributes : List Nat := []
  /-- How a text is underlined, 0 if it is not. -/
  underline : Nat := 0
  foreground : Option Color := none
  background : Option Color := none
  lineColor : Option Color := none
  deriving DecidableEq, Repr

namespace Style

def isPlain (s : Style) : Bool :=
  s = {}

def hidesBlanks (s : Style) : Bool :=
  !s.attributes.contains 7 && s.background = none && s.underline = 0

def set (s : Style) (n : Nat) : Style :=
  { s with attributes := s.attributes.filter (· < n) ++ n :: s.attributes.filter (n < ·) }

def clear (s : Style) (attributes : List Nat) : Style :=
  { s with attributes := s.attributes.filter (!attributes.contains ·) }

/-- The color that the numbers after 38, 48 or 58 describe, and how many they are. `tied` tells
whether a colon ties them to the number before. The first may also take the color away. -/
def readColor (tied : Bool) : List Parameter → Option (Option Color × Nat)
  | ⟨0, _⟩ :: _ => some (none, 1)
  | ⟨1, _⟩ :: _ => some (some (.direct 0 0 0), 1)
  | ⟨2, t⟩ :: r :: g :: b :: rest =>
    let direct (r g b : Parameter) : Color :=
      .direct (r.value % 256) (g.value % 256) (b.value % 256)
    let last := rest.head?.filter fun n => tied && t && r.tied && g.tied && b.tied && !n.tied
    match last with
    | some n => some (some (direct g b n), 5)
    | none =>
      if t = tied ∧ r.tied = tied ∧ g.tied = tied ∧ !b.tied then some (some (direct r g b), 4)
      else none
  | ⟨5, t⟩ :: n :: _ =>
    if t = tied ∧ !n.tied then some (some (.indexed (n.value % 256)), 2) else none
  | _ => none

/-- The style after the number `n`, and how many numbers after it belong to it. -/
def change (s : Style) (n : Parameter) (rest : List Parameter) : Style × Nat :=
  let colored (paint : Option Color → Style) : Style × Nat :=
    match readColor n.tied rest with
    | some (c, count) => (paint c, count)
    | none => (s, 0)
  match n.value with
  | 0 => ({}, 0)
  | 4 =>
    match n.tied, rest with
    | true, kind :: _ => if kind.value ≤ 5 then ({ s with underline := kind.value }, 1) else (s, 0)
    | _, _ => ({ s with underline := 1 }, 0)
  | 22 => (s.clear [1, 2], 0)
  | 23 => (s.clear [3], 0)
  | 24 => ({ s with underline := 0 }, 0)
  | 25 => (s.clear [5, 6], 0)
  | 27 => (s.clear [7], 0)
  | 28 => (s.clear [8], 0)
  | 29 => (s.clear [9], 0)
  | 38 => colored fun c => { s with foreground := c }
  | 39 => ({ s with foreground := none }, 0)
  | 48 => colored fun c => { s with background := c }
  | 49 => ({ s with background := none }, 0)
  | 58 => colored fun c => { s with lineColor := c }
  | 59 => ({ s with lineColor := none }, 0)
  | n =>
    if n ≤ 9 then (s.set n, 0)
    else if 30 ≤ n ∧ n ≤ 37 then ({ s with foreground := some (.basic (n - 30)) }, 0)
    else if 40 ≤ n ∧ n ≤ 47 then ({ s with background := some (.basic (n - 40)) }, 0)
    else if 90 ≤ n ∧ n ≤ 97 then ({ s with foreground := some (.basic (n - 82)) }, 0)
    else if 100 ≤ n ∧ n ≤ 107 then ({ s with background := some (.basic (n - 92)) }, 0)
    else (s, 0)

/-- The style after some numbers, the first `skip` of which are read already. -/
def changeFrom (s : Style) : (skip : Nat) → List Parameter → Style
  | _, [] => s
  | skip + 1, _ :: rest => changeFrom s skip rest
  | 0, n :: rest =>
    let (s, count) := s.change n rest
    changeFrom s count rest

/-- The style after a sequence with these numbers. Without numbers it is the plain style. -/
def apply (s : Style) (numbers : List Parameter) : Style :=
  if numbers.isEmpty then {} else s.changeFrom 0 numbers

def colorCode (named bright other : Nat) : Color → Text
  | .basic n => Text.ofNat (if n < 8 then named + n else bright + (n - 8))
  | .indexed n => Text.join ";" [Text.ofNat other, "5", Text.ofNat n]
  | .direct r g b => Text.join ";" [Text.ofNat other, "2", Text.ofNat r, Text.ofNat g, Text.ofNat b]

def lineColorCode : Color → Text
  | .basic n => Text.join ";" ["58", "5", Text.ofNat n]
  | c => colorCode 0 0 58 c

def reset : Text :=
  "\x1b[m"

def render (s : Style) : Text :=
  let underline : List Text :=
    match s.underline with
    | 0 => []
    | 1 => ["4"]
    | n => ["4:" ++ Text.ofNat n]
  "\x1b[" ++ Text.join ";" (s.attributes.map Text.ofNat ++ underline ++
    s.foreground.toList.map (colorCode 30 90 38) ++ s.background.toList.map (colorCode 40 100 48) ++
    s.lineColor.toList.map lineColorCode) ++ "m"

end Style

structure Link where
  attributes : Text := []
  target : Text := []
  deriving DecidableEq, Repr

namespace Link

def isNone (l : Link) : Bool :=
  l = {}

def render (l : Link) : Text :=
  "\x1b]8;" ++ l.attributes ++ ";" ++ l.target ++ "\x07"

end Link

structure Pen where
  style : Style := {}
  link : Link := {}
  deriving DecidableEq, Repr

namespace Pen

def lift (p : Pen) : Text :=
  (if p.style.isPlain then [] else Style.reset) ++ (if p.link.isNone then [] else Link.render {})

def resume (p : Pen) : Text :=
  (if p.link.isNone then [] else p.link.render) ++ (if p.style.isPlain then [] else p.style.render)

def finish (p : Pen) : Text :=
  (if p.link.isNone then [] else Link.render {}) ++ (if p.style.isPlain then [] else Style.reset)

end Pen

end Terminal

end Turnstile
