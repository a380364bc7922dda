import Turnstile.Text.Basic

/-! A terminal shows the printable bytes and the characters that it reads, and carries out the
control bytes. An escape byte or one of the bytes from 0x80 to 0x9F may start a sequence, of
which nothing is shown. The place of a terminal is how far it has read in a sequence; what a
sequence does is not modelled here. -/
namespace Turnstile

namespace Terminal

inductive Place where
  | ground
  | escape
  | escapeIntermediate
  /-- A control function, which ends with a letter. -/
  | control
  | controlParameter
  | controlIntermediate
  /-- A device control string, which starts like a control function. -/
  | device
  | deviceParameter
  | deviceIntermediate
  | deviceText
  | command
  | message
  deriving DecidableEq, Repr

inductive Effect where
  | shown
  | executed
  | absorbed
  deriving DecidableEq, Repr

inductive Reading where
  /-- The byte starts a character that takes several bytes. -/
  | cluster
  | move (effect : Effect) (place : Place)
  deriving DecidableEq, Repr

namespace Place

def inString (p : Place) : Bool :=
  p = deviceText || p = command || p = message

def readHigh (p : Place) (b : UInt8) : Reading :=
  if p = command ∨ p = deviceText then .move .absorbed (if b = 0x9C then ground else p)
  else if 0xC2 ≤ b ∧ b ≤ 0xF4 then .cluster
  else if b = 0x90 then .move .absorbed device
  else if b = 0x9B then .move .absorbed control
  else if b = 0x9D then .move .absorbed command
  else if b = 0x98 ∨ b = 0x9E ∨ b = 0x9F then .move .absorbed message
  else .move (if b < 0xA0 then .executed else .absorbed) ground

/-- Reads a control byte that neither starts nor cancels a sequence. -/
def readControl (p : Place) (b : UInt8) : Reading :=
  match p with
  | ground | escape | escapeIntermediate | control | controlParameter | controlIntermediate =>
    .move .executed p
  | device => .move .absorbed (if 0x08 ≤ b ∧ b ≤ 0x0D then deviceText else device)
  | command => .move .absorbed (if b = 0x07 then ground else command)
  | deviceParameter | deviceIntermediate | deviceText | message => .move .absorbed p

/-- The place after a byte from 0x20 to 0x7E in a sequence. -/
def afterGraphic (p : Place) (b : UInt8) : Place :=
  match p with
  | ground | deviceText | command | message => p
  | escape =>
    if b < 0x30 then escapeIntermediate
    else if b = 0x5B then control
    else if b = 0x50 then device
    else if b = 0x5D then command
    else if b = 0x58 ∨ b = 0x5E ∨ b = 0x5F then message
    else ground
  | escapeIntermediate => if b < 0x30 then p else ground
  | control | controlParameter =>
    if b < 0x30 then controlIntermediate else if b < 0x40 then controlParameter else ground
  | controlIntermediate => if b < 0x30 then p else ground
  | device | deviceParameter =>
    if b < 0x30 then deviceIntermediate else if b < 0x40 then deviceParameter else deviceText
  | deviceIntermediate => if b < 0x30 then p else deviceText

def read (p : Place) (b : UInt8) : Reading :=
  if 0x80 ≤ b then p.readHigh b
  else if b = 0x1B then .move .absorbed (if p = device then deviceText else escape)
  else if b = 0x18 ∨ b = 0x1A then .move (if p.inString then .absorbed else .executed) ground
  else if b < 0x20 then p.readControl b
  else if b = 0x7F then .move (if p = ground then .executed else .absorbed) p
  else .move (if p = ground then .shown else .absorbed) (p.afterGraphic b)

end Place

end Terminal

end Turnstile
