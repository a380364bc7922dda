import Turnstile.Text.Integer
import Turnstile.Yaml.Cursor

/-! A plain scalar without a tag takes the tag that its text suggests: null, boolean, integer,
float, timestamp, or else string. The text `<<` is the key of a merge. Values of numbers and
timestamps are not computed beyond what the tag needs. -/
namespace Turnstile

namespace Yaml

inductive Tag where
  | null
  | bool
  | int
  | float
  | timestamp
  | merge
  | str
  deriving DecidableEq, Repr

def Tag.label : Tag → Text
  | null => "!!null"
  | bool => "!!bool"
  | int => "!!int"
  | float => "!!float"
  | timestamp => "!!timestamp"
  | merge => "!!merge"
  | str => "!!str"

def shortTag (tag : Text) : Text :=
  let root : Text := "tag:yaml.org,2002:"
  if root.isPrefixOf tag then "!!" ++ tag.drop root.length else tag

def isDigitByte (b : UInt8) : Bool :=
  0x30 ≤ b && b ≤ 0x39

def splitDigits (s : Text) : Text × Text :=
  (s.takeWhile isDigitByte, s.dropWhile isDigitByte)

def numberOf (digits : Text) : Nat :=
  digits.foldl (fun n d => n * 10 + (d.toNat - 0x30)) 0

/-- Whether `digits · 10 ^ exponent` is too large for a 64-bit float. -/
def overflows (digits : Text) (exponent : Int) : Bool :=
  let significant := digits.dropWhile (· = 0x30)
  let size := significant.length + exponent
  if significant.isEmpty || size < 300 then false
  else if 320 < size then true
  else
    let limit := (1 <<< 1024) - (1 <<< 970)
    match exponent with
    | .ofNat n => limit ≤ numberOf significant * Nat.pow 10 n
    | .negSucc n => limit * Nat.pow 10 (n + 1) ≤ numberOf significant

/-- The value of the digits of an exponent. Digits past ten thousand add nothing. -/
def exponentOf (digits : Text) : Nat :=
  digits.foldl (fun n d => if n < 10000 then n * 10 + (d.toNat - 0x30) else n) 0

def exponent? (s : Text) : Option Int :=
  match s with
  | [] => some 0
  | e :: s =>
    if e ≠ 0x65 ∧ e ≠ 0x45 then none
    else
      let negative := s.head? = some 0x2D
      let digits := if negative || s.head? = some 0x2B then s.drop 1 else s
      if digits.isEmpty || !digits.all isDigitByte then none
      else some (if negative then -(exponentOf digits : Int) else exponentOf digits)

def isFloat (s : Text) : Bool :=
  let s := if s.head? = some 0x2D || s.head? = some 0x2B then s.drop 1 else s
  let (whole, s) := splitDigits s
  let (fraction, s) := match s with
    | 0x2E :: s => splitDigits s
    | s => ([], s)
  match exponent? s with
  | none => false
  | some exponent =>
    !(whole.isEmpty && fraction.isEmpty) &&
      !overflows (whole ++ fraction) (exponent - fraction.length)

def shortNumber? (s : Text) : Option (Nat × Text) :=
  match s with
  | a :: b :: rest =>
    if !isDigitByte a then none
    else if isDigitByte b then some (numberOf [a, b], rest)
    else some (numberOf [a], b :: rest)
  | [a] => if isDigitByte a then some (numberOf [a], []) else none
  | [] => none

def after? (b : UInt8) : Text → Option Text
  | c :: s => if b = c then some s else none
  | [] => none

def daysIn (year month : Nat) : Nat :=
  let leap := year % 4 = 0 ∧ (year % 100 ≠ 0 ∨ year % 400 = 0)
  if month = 2 then if leap then 29 else 28
  else if month = 4 ∨ month = 6 ∨ month = 9 ∨ month = 11 then 30
  else 31

def afterDate? (s : Text) : Option Text := do
  let (year, s) := splitDigits s
  if year.length ≠ 4 then none
  else
    let (month, s) ← shortNumber? (← after? 0x2D s)
    let (day, s) ← shortNumber? (← after? 0x2D s)
    let year := numberOf year
    if 1 ≤ month ∧ month ≤ 12 ∧ 1 ≤ day ∧ day ≤ daysIn year month then some s else none

def afterTime? (s : Text) : Option Text := do
  let (hour, s) ← shortNumber? s
  let (minute, s) ← shortNumber? (← after? 0x3A s)
  let (second, s) ← shortNumber? (← after? 0x3A s)
  if 24 ≤ hour ∨ 60 ≤ minute ∨ 60 ≤ second then none
  else
    match s with
    | mark :: digit :: rest =>
      if (mark = 0x2E ∨ mark = 0x2C) ∧ isDigitByte digit then some (rest.dropWhile isDigitByte)
      else some s
    | s => some s

def isZone (s : Text) : Bool :=
  match s with
  | [0x5A] => true
  | [sign, a, b, 0x3A, c, d] =>
    (sign = 0x2B || sign = 0x2D) && [a, b, c, d].all isDigitByte &&
      numberOf [a, b] ≤ 24 && numberOf [c, d] ≤ 60
  | _ => false

/-- Whether a text is a date, or a date and a time. Spaces or a letter stand between them. -/
def isTimestamp (s : Text) : Bool :=
  match afterDate? s with
  | none => false
  | some [] => true
  | some (mark :: s) =>
    match afterTime? (if mark = 0x20 then s.dropWhile (· = 0x20) else s) with
    | none => false
    | some s => if mark = 0x20 then s.isEmpty else (mark = 0x54 || mark = 0x74) && isZone s

/-- An integer in base 2 or 8 whose sign stands between the prefix `0b` or `0o` and the
digits. -/
def innerSigned? (s : Text) : Option Int :=
  match s with
  | 0x30 :: mark :: sign :: digits =>
    let base := if mark = 0x62 then 2 else if mark = 0x6F then 8 else 0
    if base = 0 ∨ digits.isEmpty ∨ (sign ≠ 0x2B ∧ sign ≠ 0x2D) then none
    else
      match Text.readDigits base 0 digits with
      | .error _ => none
      | .ok n =>
        if sign = 0x2D then if n ≤ 1 <<< 63 then some (-(n : Int)) else none
        else if n < 1 <<< 63 then some n else none
  | _ => none

/-- The value of a text that is an integer of 64 bits, with or without a sign. Underscores
are left out. -/
def integer? (s : Text) : Option Int :=
  let digits : Text := s.filter (· ≠ 0x5F)
  match Text.readInteger digits, Text.readNatural digits with
  | .ok n, _ => some n
  | _, .ok n => some n
  | _, _ => innerSigned? digits

def Tag.ofText (s : Text) : Tag :=
  let isOneOf (names : List String) : Bool := names.any fun name => s = Text.ofString name
  if isOneOf ["", "~", "null", "Null", "NULL"] then null
  else if isOneOf ["true", "True", "TRUE", "false", "False", "FALSE"] then bool
  else if isOneOf [".nan", ".NaN", ".NAN", ".inf", ".Inf", ".INF", "+.inf", "+.Inf", "+.INF",
      "-.inf", "-.Inf", "-.INF"] then float
  else
    match s with
    | [] => str
    | b :: _ =>
      if b = 0x2E then
        if Text.underscoresValid s && isFloat (s.filter (· ≠ 0x5F)) then float else str
      else if b = 0x2B || b = 0x2D || isDigitByte b then
        if isTimestamp s then timestamp
        else if (integer? s).isSome then int
        else if isFloat (s.filter (· ≠ 0x5F)) then float
        else str
      else str

end Yaml

end Turnstile
