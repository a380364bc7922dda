import Turnstile.Model

/-! Formulas over variables, negation, conjunction, disjunction and implication. A variable may
have any text as its name, also one that cannot be written in a formula. There are no constants.
-/
namespace Turnstile

inductive Formula where
  | var (name : Text)
  | not (operand : Formula)
  | and (left right : Formula)
  | or (left right : Formula)
  | implies (left right : Formula)
  deriving DecidableEq, Repr, Inhabited

namespace Formula

def eval (v : Text → Bool) : Formula → Bool
  | var name => v name
  | not f => !f.eval v
  | and l r => l.eval v && r.eval v
  | or l r => l.eval v || r.eval v
  | implies l r => !l.eval v || r.eval v

def leaves : Formula → List Text
  | var name => [name]
  | not f => f.leaves
  | and l r | or l r | implies l r => l.leaves ++ r.leaves

/-- The names of some formulas, each once, in the order of their first leaves. -/
def vars (fs : List Formula) : List Text :=
  (fs.flatMap leaves).eraseDups

structure Unbound where
  name : Text
  deriving DecidableEq, Repr

def Unbound.message (e : Unbound) : Text :=
  "model lacks binding for variable " ++ e.name

/-- The truth value of a formula in a model that has to bind all its variables, whether
or not their values matter. -/
def evalStrict (f : Formula) (m : Model) : Except Unbound Bool :=
  match (vars [f]).find? fun name => (m.get? name).isNone with
  | some name => .error ⟨name⟩
  | none => .ok (f.eval m.value)

end Formula

end Turnstile
