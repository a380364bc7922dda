import Turnstile.Formula.Canonical

/-! A fact is a formula with the reason it was recorded for. Facts are numbered from 1 and cite
the facts they follow from by number. Their keys are canonical texts, by which alone facts are
compared. -/
namespace Turnstile

inductive Rule where
  | simplification
  | modusPonens
  | modusTollens
  | hypotheticalSyllogism
  | disjunctiveSyllogism
  | conjunction
  | conditionalProof
  deriving DecidableEq, Repr

def Rule.label : Rule → Text
  | simplification => "Simplification"
  | modusPonens => "Modus Ponens"
  | modusTollens => "Modus Tollens"
  | hypotheticalSyllogism => "Hypothetical Syllogism"
  | disjunctiveSyllogism => "Disjunctive Syllogism"
  | conjunction => "Conjunction"
  | conditionalProof => "Conditional Proof"

inductive Reason where
  /-- It is the premise of that number, counted from 1. -/
  | premise (number : Nat)
  | assumption
  | inference (rule : Rule) (sources : List Nat)
  deriving DecidableEq, Repr

namespace Reason

def label : Reason → Text
  | premise _ => "Premise"
  | assumption => "Assumption"
  | inference rule _ => rule.label

def sources : Reason → List Nat
  | premise _ | assumption => []
  | inference _ sources => sources

/-- The number of the premise, or 0. -/
def premiseNumber : Reason → Nat
  | premise number => number
  | assumption | inference _ _ => 0

def renumber (number : Nat → Nat) : Reason → Reason
  | premise k => premise k
  | assumption => assumption
  | inference rule sources => inference rule (sources.map number)

/-- The reason as in `Modus Ponens (1, 2)`. -/
def describe : Reason → Text
  | premise number => "Premise " ++ Text.ofNat number
  | assumption => "Assumption"
  | inference .conditionalProof sources =>
    Rule.label .conditionalProof ++ " (" ++ Text.join ", " (sources.map Text.ofNat) ++
      "), discharge assumption"
  | inference rule sources =>
    rule.label ++ " (" ++ Text.join ", " (sources.map Text.ofNat) ++ ")"

end Reason

/-- A formula known to follow from the premises and assumptions of a search. -/
structure Fact where
  seq : Nat
  formula : Formula
  reason : Reason
  /-- The canonical text, by which facts are told apart. -/
  key : Text := formula.canonical
  key_eq : key = formula.canonical := by rfl

namespace Fact

/-- The number of the premise, or the numbers of the facts cited. -/
def reference (fact : Fact) : Text :=
  match fact.reason with
  | .premise number => Text.ofNat number
  | .assumption => []
  | .inference _ sources => Text.join ", " (sources.map Text.ofNat)

def justification (fact : Fact) : Text :=
  if fact.reference.isEmpty then fact.reason.label
  else match fact.reason with
    | .premise _ => fact.reason.label ++ " " ++ fact.reference
    | _ => fact.reason.label ++ " (" ++ fact.reference ++ ")"

end Fact

end Turnstile
