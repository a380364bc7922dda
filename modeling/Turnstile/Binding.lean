import Turnstile.Model
import Turnstile.Text.Quoted

/-! A binding is written `name=T` or `name=F`; the value may also be `true` or `1`, `false` or
`0`, in capitals or not. The name is everything before the first `=`, so it cannot hold that
sign. Names need not occur in any formula. -/
namespace Turnstile

inductive BindingError where
  /-- There is no `=`, or no name before it. -/
  | malformed (binding : Text)
  | badValue (name value : Text)
  deriving DecidableEq, Repr

def BindingError.message : BindingError → Text
  | malformed binding =>
    "invalid binding " ++ binding.quote ++ ", expected name=T or name=F"
  | badValue name value =>
    "invalid value " ++ value.quote ++ " for " ++ name ++ ", expected T or F"

namespace Binding

/-- The capital of a character whose capital is an ASCII letter. Two letters outside
ASCII have one: the dotless `ı` and the long `ſ`. Other characters stay as they are. -/
def capital (c : Char) : Char :=
  if c = 'ı' then 'I' else if c = 'ſ' then 'S' else c.toUpper

def truth? (value : Text) : Option Bool :=
  match value.chars? with
  | none => none
  | some cs =>
    let word := cs.map capital
    if word = ['T'] ∨ word = ['T', 'R', 'U', 'E'] ∨ word = ['1'] then some true
    else if word = ['F'] ∨ word = ['F', 'A', 'L', 'S', 'E'] ∨ word = ['0'] then some false
    else none

def read (binding : Text) : Except BindingError (Text × Bool) :=
  match binding.takeWhile (· ≠ 0x3D), binding.dropWhile (· ≠ 0x3D) with
  | [], _ | _, [] => .error (.malformed binding)
  | name, _ :: value =>
    match truth? value with
    | some b => .ok (name, b)
    | none => .error (.badValue name value)

end Binding

/-- Reads bindings from left to right, later ones replacing earlier ones of the same name. -/
def Model.ofBindings (bindings : List Text) : Except BindingError Model := do
  return .ofList (← bindings.mapM Binding.read)

end Turnstile
