import Turnstile.Argument.Basic
import Turnstile.Encoding
import Turnstile.Deduction.Proof
import Turnstile.Json
import Turnstile.Table

/-! The report on an argument holds its verdict, the premises that it rests on and a proof, as
far as one is found. The truth table gives the verdict unless it would be too large; then the
search for models does. A missing proof says nothing about the verdict. -/
namespace Turnstile

/-- Bounds on an analysis. A bound that is not positive stands for the usual one. -/
structure Limits where
  maxVars : Int := 0
  maxPasses : Int := 0
  deriving DecidableEq, Repr

structure Report where
  argument : Argument
  premises : List Formula
  conclusion : Formula
  decision : Decision
  table : Except TooManyVars Table
  core : Option (List Nat)
  proof : Proof

/-- The verdict of the table, or else of the search. -/
def Decision.settle (decision : Decision) : Except TooManyVars Table → Verdict
  | .ok table => table.verdict
  | .error _ => decision.verdict

namespace Report

def verdict (r : Report) : Verdict :=
  r.decision.settle r.table

def counterexample (r : Report) : Option Model :=
  match r.table with
  | .ok table => table.counterexample?
  | .error _ => r.decision.counterexample

def vars (r : Report) : List Text :=
  Formula.vars (r.premises ++ [r.conclusion])

def proofFor (r : Report) (trim : Bool) : Proof :=
  if trim then r.proof.trim else r.proof

end Report

def analyze (a : Argument) (limits : Limits) (solver : Solver := Solver.search) :
    Except Argument.Invalid Report := do
  let parsed ← a.parse
  let decision := decideArgument parsed.premises parsed.conclusion solver
  let table := Table.build parsed.premises parsed.conclusion limits.maxVars
  return {
    argument := a
    premises := parsed.premises
    conclusion := parsed.conclusion
    decision := decision
    table := table
    core := if decision.settle table = .invalid then none
      else Turnstile.core parsed.premises parsed.conclusion solver
    proof := prove parsed.premises parsed.conclusion limits.maxPasses }

namespace Report

def stepJson (step : Step) : Json.Value :=
  let reason := step.reason
  .object (
    Json.field "seq" (.number step.seq) ++
    Json.field "text" (.string step.text) ++
    Json.field "justification" (.string step.justification) ++
    Json.field "rule" (.string reason.label) ++
    Json.fieldIf (reason.premiseNumber ≠ 0) "premise" (.number reason.premiseNumber) ++
    Json.fieldIf (!reason.sources.isEmpty) "from" (Json.numbers reason.sources))

def bindings (r : Report) : List (Text × Bool) :=
  match r.counterexample with
  | some m => m.bindings
  | none => []

/-- The number of rows of the truth table, 0 if there is none. -/
def rowCount (r : Report) : Nat :=
  match r.table with
  | .ok table => table.rows.length
  | .error _ => 0

/-- The report as data, under the name of a run. Premises are counted from 1. -/
def summary (r : Report) (id : Text) (trim : Bool) : Json.Value :=
  let proof := r.proofFor trim
  let core := (r.core.getD []).map (· + 1)
  .object (
    Json.field "id" (.string id) ++
    Json.fieldIf (!r.argument.name.isEmpty) "name" (.string r.argument.name) ++
    Json.field "premises" (Json.strings (r.premises.map Formula.canonical)) ++
    Json.field "conclusion" (.string r.conclusion.canonical) ++
    Json.field "vars" (Json.strings r.vars) ++
    Json.field "verdict" (.string r.verdict.label) ++
    Json.fieldIf (r.verdict = .inconsistent) "vacuous" (.bool true) ++
    Json.fieldIf (!r.bindings.isEmpty) "counterexample"
      (.object (r.bindings.map fun (name, value) => (name, .bool value))) ++
    Json.fieldIf (!core.isEmpty) "core" (Json.numbers core) ++
    Json.fieldIf (r.rowCount ≠ 0) "rows" (.number r.rowCount) ++
    Json.field "derived" (.bool proof.derived) ++
    Json.field "method" (.string proof.method.label) ++
    Json.fieldIf (!proof.derived) "message" (.string Proof.notFound) ++
    Json.fieldIf (!proof.steps.isEmpty) "steps" (.list (proof.steps.map stepJson)))

end Report

end Turnstile
