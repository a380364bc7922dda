import Turnstile.Deduction.Run

/-! A proof lists the facts of a search that found its goal, or those of a search for the
consequent of an implication, with the antecedent assumed and then discharged. There is one
level of assumptions. Trimming keeps the steps that the last step rests on and numbers them
anew. -/
namespace Turnstile

inductive Method where
  | noProof
  | direct
  | conditional
  deriving DecidableEq, Repr

namespace Method

def all : List Method :=
  [noProof, direct, conditional]

def label : Method → Text
  | noProof => "none"
  | direct => "direct derivation"
  | conditional => "conditional proof"

end Method

structure Step where
  seq : Nat
  formula : Formula
  reason : Reason
  deriving DecidableEq, Repr

namespace Step

def text (step : Step) : Text :=
  step.formula.canonical

def justification (step : Step) : Text :=
  step.reason.describe

def ofFact (fact : Fact) : Step :=
  ⟨fact.seq, fact.formula, fact.reason⟩

end Step

structure Proof where
  goal : Formula
  method : Method
  /-- Empty unless a proof was found. -/
  steps : List Step
  runs : List Run

namespace Proof

def derived (proof : Proof) : Bool :=
  proof.method ≠ .noProof

/-- Said when no proof was found, which does not mean that there is none. -/
def notFound : Text :=
  "no derivation found: this rule set found no proof, the truth table is authoritative"

/-- The steps of a search up to its goal. Premises and assumptions are always among them. -/
def stepsOf (run : Run) : List Step :=
  let goal := match run.find? run.goal with
    | some fact => fact.seq
    | none => 0
  (run.facts.take (if goal < run.initial then run.initial else goal)).map Step.ofFact

/-- The step that discharges the assumption of `l` after a search for `r`. -/
def discharge (run : Run) (l r : Formula) (seq : Nat) : Step :=
  let number (f : Formula) : Nat := match run.fact? f with
    | some fact => fact.seq
    | none => 0
  ⟨seq, .implies l r, .inference .conditionalProof [number l, number r]⟩

/-- Keeps the steps that are needed, given the last step first and the numbers needed so
far. A step that is kept needs the steps it cites. -/
def keepNeeded (needed : List Nat) : List Step → List Step
  | [] => []
  | step :: earlier =>
    if needed.contains step.seq then
      step :: keepNeeded (step.reason.sources ++ needed) earlier
    else keepNeeded needed earlier

/-- The proof with only the steps that its last step rests on, numbered anew. -/
def trim (proof : Proof) : Proof :=
  match proof.steps.getLast? with
  | none => proof
  | some last =>
    let kept := (keepNeeded [last.seq] proof.steps.reverse).reverse
    let number (n : Nat) : Nat := (kept.map Step.seq).idxOf n + 1
    { proof with
      steps := kept.map fun step => ⟨number step.seq, step.formula, step.reason.renumber number⟩ }

def render (proof : Proof) : Text :=
  if proof.derived then
    proof.steps.flatMap fun step =>
      Text.ofNat step.seq ++ ". " ++ step.text ++ "\t" ++ step.justification ++ "\n"
  else notFound

end Proof

/-- Looks for a proof of `goal`, first directly and then, for an implication, from its
antecedent. -/
def prove (premises : List Formula) (goal : Formula) (maxPasses : Int) : Proof :=
  let run := chain premises [] goal maxPasses
  if run.found then ⟨goal, .direct, Proof.stepsOf run, [run]⟩
  else
    match goal with
    | .implies l r =>
      let second := chain premises [l] r maxPasses
      if second.found then
        let steps := Proof.stepsOf second
        ⟨goal, .conditional, steps ++ [Proof.discharge second l r (steps.length + 1)],
          [run, second]⟩
      else ⟨goal, .noProof, [], [run, second]⟩
    | _ => ⟨goal, .noProof, [], [run]⟩

end Turnstile
