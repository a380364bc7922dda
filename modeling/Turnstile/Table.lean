import Turnstile.Formula.Basic

/-! The truth table of an argument has a row for each assignment of truth values to its
variables; the first variable changes slowest, and true comes before false. Tables grow as a
power of two, so an argument with too many variables has none. -/
namespace Turnstile

inductive Verdict where
  /-- No model makes all premises true, so the argument is valid for want of one. -/
  | inconsistent
  /-- Some model makes all premises true, and each of those makes the conclusion true. -/
  | valid
  /-- Some model makes all premises true and the conclusion false. -/
  | invalid
  deriving DecidableEq, Repr

namespace Verdict

def all : List Verdict :=
  [inconsistent, valid, invalid]

def label : Verdict → Text
  | inconsistent => "inconsistent"
  | valid => "valid"
  | invalid => "invalid"

end Verdict

structure Row where
  values : List Bool
  premises : Bool
  conclusion : Bool
  deriving DecidableEq, Repr

def Row.refutes (row : Row) : Bool :=
  row.premises && !row.conclusion

structure Table where
  /-- The variables, in the order of their first appearance. -/
  vars : List Text
  rows : List Row
  verdict : Verdict
  deriving DecidableEq, Repr

structure TooManyVars where
  count : Nat
  limit : Nat
  deriving DecidableEq, Repr

namespace TooManyVars

def summary : Text :=
  "too many variables for a truth table"

def detail (e : TooManyVars) : Text :=
  "argument has " ++ Text.ofNat e.count ++ " variables, limit is " ++ Text.ofNat e.limit

def message (e : TooManyVars) : Text :=
  e.detail ++ ": " ++ summary

end TooManyVars

namespace Table

/-- The limit on the number of variables when none is asked for. -/
def defaultLimit : Nat := 16

def greatestLimit : Nat := 30

/-- The limit in force when `maxVars` is asked for. -/
def limit (maxVars : Int) : Nat :=
  if maxVars ≤ 0 then defaultLimit
  else if (greatestLimit : Int) < maxVars then greatestLimit
  else maxVars.toNat

/-- All lists of `n` truth values, true before false, the first value changing slowest. -/
def assignments : Nat → List (List Bool)
  | 0 => [[]]
  | n + 1 =>
    let rest := assignments n
    rest.map (true :: ·) ++ rest.map (false :: ·)

/-- The value that bindings give to a name, false if they give none. -/
def valueIn (bindings : List (Text × Bool)) (name : Text) : Bool :=
  (bindings.lookup name).getD false

def row (premises : List Formula) (conclusion : Formula) (vars : List Text)
    (values : List Bool) : Row :=
  let v := valueIn (vars.zip values)
  ⟨values, premises.all (·.eval v), conclusion.eval v⟩

def verdictOf (rows : List Row) : Verdict :=
  if !rows.any Row.premises then .inconsistent
  else if rows.any Row.refutes then .invalid
  else .valid

/-- The truth table of an argument, unless it has more variables than allowed. -/
def build (premises : List Formula) (conclusion : Formula) (maxVars : Int) :
    Except TooManyVars Table :=
  let vars := Formula.vars (premises ++ [conclusion])
  if limit maxVars < vars.length then .error ⟨vars.length, limit maxVars⟩
  else
    let rows := (assignments vars.length).map (row premises conclusion vars)
    .ok ⟨vars, rows, verdictOf rows⟩

def model (table : Table) (row : Row) : Model :=
  .ofList (table.vars.zip row.values)

def counterexamples (table : Table) : List Nat :=
  table.rows.zipIdx.filterMap fun (row, i) => if row.refutes then some i else none

/-- The first assignment that refutes the argument. -/
def counterexample? (table : Table) : Option Model :=
  (table.rows.find? Row.refutes).map table.model

end Table

end Turnstile
