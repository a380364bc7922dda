import Turnstile.Clause
import Turnstile.Formula.Canonical
import Turnstile.Table

/-! Each name and each binary subformula gets a variable, tied to its operands by three clauses;
subformulas with the same canonical text share theirs. An argument is decided by searching for a
model of its premises, and then for one that refutes it. The core of an argument is a minimal
set of premises with its verdict, not always a smallest one. -/
namespace Turnstile

/-- The variables given out so far, numbered from 1, and the clauses that define them. -/
structure Encoding where
  names : List (Text × Nat) := []
  /-- The variables of binary subformulas, by canonical text. -/
  definitions : List (Text × Nat) := []
  count : Nat := 0
  clauses : List Clause := []
  deriving DecidableEq, Repr

namespace Encoding

def andClauses (d a b : Literal) : List Clause :=
  [[d.negate, a], [d.negate, b], [d, a.negate, b.negate]]

def orClauses (d a b : Literal) : List Clause :=
  [[d.negate, a, b], [d, a.negate], [d, b.negate]]

def impliesClauses (d a b : Literal) : List Clause :=
  [[d.negate, a.negate, b], [d, a], [d, b.negate]]

def name (e : Encoding) (name : Text) : Literal × Encoding :=
  match e.names.lookup name with
  | some v => (⟨v, true⟩, e)
  | none =>
    let v := e.count + 1
    (⟨v, true⟩, { e with names := (name, v) :: e.names, count := v })

/-- Gives the subformula with canonical text `key` a new variable, defined by clauses
over its operands. -/
def define (e : Encoding) (key : Text) (clauses : Literal → List Clause) : Literal × Encoding :=
  let v := e.count + 1
  let d : Literal := ⟨v, true⟩
  (d, { e with
    definitions := (key, v) :: e.definitions
    count := v
    clauses := (clauses d).filterMap Clause.reduce? ++ e.clauses })

/-- A literal equivalent to a formula, and the encoding that defines it. -/
def literal (e : Encoding) : Formula → Literal × Encoding
  | .var x => e.name x
  | .not f =>
    let (l, e) := e.literal f
    (l.negate, e)
  | .and l r =>
    let key := (Formula.and l r).canonical
    match e.definitions.lookup key with
    | some v => (⟨v, true⟩, e)
    | none =>
      let (a, e) := e.literal l
      let (b, e) := e.literal r
      e.define key (andClauses · a b)
  | .or l r =>
    let key := (Formula.or l r).canonical
    match e.definitions.lookup key with
    | some v => (⟨v, true⟩, e)
    | none =>
      let (a, e) := e.literal l
      let (b, e) := e.literal r
      e.define key (orClauses · a b)
  | .implies l r =>
    let key := (Formula.implies l r).canonical
    match e.definitions.lookup key with
    | some v => (⟨v, true⟩, e)
    | none =>
      let (a, e) := e.literal l
      let (b, e) := e.literal r
      e.define key (impliesClauses · a b)

def literals (e : Encoding) : List Formula → List Literal × Encoding
  | [] => ([], e)
  | f :: fs =>
    let (l, e) := e.literal f
    let (ls, e) := e.literals fs
    (l :: ls, e)

/-- The values that an assignment of the variables gives to names. Names without a
variable are false. -/
def read (e : Encoding) (a : Nat → Bool) (name : Text) : Bool :=
  match e.names.lookup name with
  | some v => a v
  | none => false

/-- Values of the names for which all given literals are true, if there are any. The
definitions alone can always be satisfied, so no literal needs no solver. -/
def solve (e : Encoding) (solver : Solver) (ls : List Literal) : Option (Text → Bool) :=
  if ls.isEmpty then some fun _ => false
  else (solver (ls.map ([·]) ++ e.clauses)).map fun values => e.read (Solver.value values)

end Encoding

structure Decision where
  verdict : Verdict
  /-- A model that refutes the argument and binds all its variables, if it is invalid. -/
  counterexample : Option Model

def decideArgument (premises : List Formula) (conclusion : Formula)
    (solver : Solver := Solver.search) : Decision :=
  let (ls, e) := ({} : Encoding).literals premises
  let (l, e) := e.literal conclusion
  if (e.solve solver ls).isNone then ⟨.inconsistent, none⟩
  else
    match e.solve solver (ls ++ [l.negate]) with
    | none => ⟨.valid, none⟩
    | some value =>
      let vars := Formula.vars (premises ++ [conclusion])
      ⟨.invalid, some (.ofList (vars.map fun name => (name, value name)))⟩

namespace Core

def kept (xs : List α) (marks : List Bool) : List α :=
  (xs.zip marks).filterMap fun (x, mark) => if mark then some x else none

/-- Drops what is not needed: each mark in turn becomes false if `enough` still holds. The
first marks are settled, and the others are all true. -/
def shrink (enough : List Bool → Bool) (settled : List Bool) : List Bool → List Bool
  | [] => settled
  | _ :: rest => shrink enough (settled ++ [!enough (settled ++ false :: rest)]) rest

end Core

/-- The indices of the premises that the verdict rests on, or none if the argument is
invalid. -/
def core (premises : List Formula) (conclusion : Formula)
    (solver : Solver := Solver.search) : Option (List Nat) :=
  let (ls, e) := ({} : Encoding).literals premises
  let (l, e) := e.literal conclusion
  let refuted (goal : List Literal) (marks : List Bool) : Bool :=
    (e.solve solver (Core.kept ls marks ++ goal)).isNone
  let whole := ls.map fun _ => true
  let indices (goal : List Literal) : List Nat :=
    Core.kept (List.range ls.length) (Core.shrink (refuted goal) [] whole)
  if refuted [] whole then some (indices [])
  else if refuted [l.negate] whole then some (indices [l.negate])
  else none

end Turnstile
