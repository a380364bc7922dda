import Turnstile.Deduction.Fact

/-! A search adds what the rules yield from premises and assumptions, pass after pass, and ends
with the goal, with a pass that adds nothing, or at its bound. A pass applies the rules to the
facts known when it starts. Only the goal itself is introduced as a conjunction, and no
disjunction is, so a search may end without a goal that follows. -/
namespace Turnstile

structure Candidate where
  formula : Formula
  rule : Rule
  sources : List Nat
  deriving DecidableEq, Repr

namespace Candidate

def simplify (f : Fact) : List Candidate :=
  match f.formula with
  | .and l r => [⟨l, .simplification, [f.seq]⟩, ⟨r, .simplification, [f.seq]⟩]
  | _ => []

/-- The goal `A & A` from the fact `A`. -/
def doubleGoal (goal : Formula) (f : Fact) : List Candidate :=
  match goal with
  | .and l r =>
    if l.canonical = f.key ∧ r.canonical = f.key then [⟨goal, .conjunction, [f.seq, f.seq]⟩]
    else []
  | _ => []

/-- What the implication or disjunction `f` yields together with `g`. -/
def combine (f g : Fact) : List Candidate :=
  match f.formula with
  | .implies l r =>
    (if g.key = l.canonical then [⟨r, .modusPonens, [f.seq, g.seq]⟩] else []) ++
    (if g.key = (Formula.not r).canonical then [⟨.not l, .modusTollens, [f.seq, g.seq]⟩]
      else []) ++
    (match g.formula with
      | .implies l' r' =>
        if l'.canonical = r.canonical then
          [⟨.implies l r', .hypotheticalSyllogism, [f.seq, g.seq]⟩]
        else []
      | _ => [])
  | .or l r =>
    (if g.key = (Formula.not l).canonical then [⟨r, .disjunctiveSyllogism, [f.seq, g.seq]⟩]
      else []) ++
    (if g.key = (Formula.not r).canonical then [⟨l, .disjunctiveSyllogism, [f.seq, g.seq]⟩]
      else [])
  | _ => []

/-- The goal from its two operands, cited in the order of the goal. -/
def joinGoal (goal : Formula) (f g : Fact) : List Candidate :=
  match goal with
  | .and l r =>
    if f.key = l.canonical ∧ g.key = r.canonical then [⟨goal, .conjunction, [f.seq, g.seq]⟩]
    else if f.key = r.canonical ∧ g.key = l.canonical then
      [⟨goal, .conjunction, [g.seq, f.seq]⟩]
    else []
  | _ => []

/-- All that the rules yield from known facts, in the order in which it is recorded. -/
def all (goal : Formula) (known : List Fact) : List Candidate :=
  known.flatMap fun f =>
    simplify f ++ doubleGoal goal f ++
      (known.filter (·.key ≠ f.key)).flatMap fun g => combine f g ++ joinGoal goal f g

end Candidate

structure Run where
  goal : Text
  facts : List Fact := []
  /-- The number of facts that are premises or assumptions. -/
  initial : Nat := 0
  found : Bool := false
  passes : Nat := 0

namespace Run

def find? (run : Run) (key : Text) : Option Fact :=
  run.facts.find? fun fact => fact.key == key

def fact? (run : Run) (f : Formula) : Option Fact :=
  run.find? f.canonical

/-- The canonical texts of the facts that a fact cites. -/
def sourceKeys (run : Run) (fact : Fact) : List Text :=
  fact.reason.sources.filterMap fun n => (run.facts[n - 1]?).map Fact.key

/-- Records a formula, unless it is known, and tells whether it was new. -/
def record (run : Run) (f : Formula) (reason : Reason) : Run × Bool :=
  let key := f.canonical
  if (run.find? key).isSome then (run, false)
  else
    ({ run with
      facts := run.facts ++ [⟨run.facts.length + 1, f, reason, key, rfl⟩]
      found := run.found || key == run.goal }, true)

def add (run : Run) (f : Formula) (reason : Reason) : Run :=
  (run.record f reason).1

def addPremises (run : Run) (n : Nat) : List Formula → Run
  | [] => run
  | f :: fs => (run.add f (.premise n)).addPremises (n + 1) fs

def addAssumptions (run : Run) : List Formula → Run
  | [] => run
  | f :: fs => (run.add f .assumption).addAssumptions fs

def start (premises assumptions : List Formula) (goal : Formula) : Run :=
  let empty : Run := { goal := goal.canonical }
  let run := (empty.addPremises 1 premises).addAssumptions assumptions
  { run with initial := run.facts.length }

/-- Records candidates until the goal is found, and tells whether any of them was new. -/
def extend (run : Run) : List Candidate → Run × Bool
  | [] => (run, false)
  | c :: cs =>
    if run.found then (run, false)
    else
      let first := run.record c.formula (.inference c.rule c.sources)
      let rest := first.1.extend cs
      (rest.1, first.2 || rest.2)

/-- Applies the rules once to the facts known, and tells whether that added any. -/
def pass (goal : Formula) (run : Run) : Run × Bool :=
  let extended := run.extend (Candidate.all goal run.facts)
  ({ extended.1 with passes := run.passes + 1 }, extended.2)

def search (goal : Formula) : Nat → Run → Run
  | 0, run => run
  | n + 1, run =>
    if run.found then run
    else
      let (next, added) := run.pass goal
      if added then search goal n next else next

def defaultBound : Nat := 5000

def bound (maxPasses : Int) : Nat :=
  if maxPasses ≤ 0 then defaultBound else maxPasses.toNat

end Run

def chain (premises assumptions : List Formula) (goal : Formula) (maxPasses : Int) : Run :=
  (Run.start premises assumptions goal).search goal (Run.bound maxPasses)

end Turnstile
