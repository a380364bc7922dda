import Turnstile.Formula.Parser

/-! An argument is the text of some premises and of a conclusion, perhaps with a name. `blanks`
and `Part.missing` stand for a validator of records that asks for every text once it is trimmed
and reports all that are missing; its other rules are not modelled. A sequent is an argument on
one line, cut at the sign and at commas before any formula is read. -/
namespace Turnstile

structure Argument where
  name : Text := []
  premises : List Text := []
  conclusion : Text := []
  deriving DecidableEq, Repr

namespace Argument

inductive Part where
  /-- The premise of that index, counted from 0. -/
  | premise (index : Nat)
  | conclusion
  deriving DecidableEq, Repr

def Part.label : Part → Text
  | premise index => "Premises[" ++ Text.ofNat index ++ "]"
  | conclusion => "Conclusion"

/-- What the validator reports of a required text that is empty. -/
def Part.missing (part : Part) : Text :=
  "Key: 'Argument." ++ part.label ++ "' Error:Field validation for '" ++ part.label ++
    "' failed on the 'required' tag"

/-- The blank parts of an argument, premises first. -/
def blanks (a : Argument) : List Part :=
  (a.premises.zipIdx.filterMap fun (text, i) =>
    if text.trim.isEmpty then some (.premise i) else none) ++
  if a.conclusion.trim.isEmpty then [.conclusion] else []

inductive Invalid where
  | blank (parts : List Part)
  /-- The premise of that number, counted from 1, is no formula. -/
  | badPremise (number : Nat) (e : Formula.ReadError)
  | badConclusion (e : Formula.ReadError)
  deriving DecidableEq, Repr

namespace Invalid

def context : Invalid → Text
  | blank _ => []
  | badPremise number _ => "premise " ++ Text.ofNat number ++ ": "
  | badConclusion _ => "conclusion: "

def message : Invalid → Text
  | blank parts => "invalid argument: " ++ Text.join "\n" (parts.map Part.missing)
  | e@(badPremise _ cause) | e@(badConclusion cause) => e.context ++ cause.message

end Invalid

def validate (a : Argument) : Except Invalid Unit :=
  match a.blanks with
  | [] => .ok ()
  | parts => .error (.blank parts)

/-- The argument on one line, as in `P -> Q, P |- Q`. -/
def sequent (a : Argument) : Text :=
  Text.join ", " a.premises ++ " |- " ++ a.conclusion

structure Parsed where
  premises : List Formula
  conclusion : Formula
  deriving DecidableEq, Repr

/-- Reads premises, the first of which has the given number. -/
def parsePremises (number : Nat) : List Text → Except Invalid (List Formula)
  | [] => .ok []
  | text :: texts =>
    match Formula.parse text with
    | .error e => .error (.badPremise number e)
    | .ok f => (parsePremises (number + 1) texts).map (f :: ·)

def parse (a : Argument) : Except Invalid Parsed := do
  a.validate
  let premises ← parsePremises 1 a.premises
  match Formula.parse a.conclusion with
  | .error e => .error (.badConclusion e)
  | .ok conclusion => .ok ⟨premises, conclusion⟩

inductive SequentError where
  /-- It does not hold `|-` exactly once. -/
  | notTwoSides (sequent : Text)
  | invalid (sequent : Text) (e : Invalid)
  deriving DecidableEq, Repr

namespace SequentError

def context : SequentError → Text
  | notTwoSides _ => []
  | invalid sequent _ => "sequent " ++ sequent.quote ++ ": "

def message : SequentError → Text
  | notTwoSides sequent => "sequent " ++ sequent.quote ++ " must contain exactly one \"|-\""
  | e@(invalid _ cause) => e.context ++ cause.message

end SequentError

def premisesOf (left : Text) : List Text :=
  let left := left.trim
  if left.isEmpty then [] else (left.splitByte 0x2C).map Text.trim

def ofSequent (s : Text) : Except SequentError Argument :=
  match s.splitPair 0x7C 0x2D with
  | [left, right] =>
    let a : Argument := { premises := premisesOf left, conclusion := right.trim }
    match a.validate with
    | .ok () => .ok a
    | .error e => .error (.invalid s e)
  | _ => .error (.notTwoSides s)

end Argument

end Turnstile
