import Turnstile.Argument.Decoding

/-! A stream holds an argument in each of its documents, which are read and validated one after
the other. The first document that fails ends the reading. Reading the file itself is left to
the caller, who hands over its content or the reason there is none. -/
namespace Turnstile

namespace Argument

/-- Why no arguments are read from a stream. An argument has a number, counted from 1, where
several are read. -/
inductive LoadError where
  | noArgument
  | undecodable (number : Option Nat) (e : DecodeError)
  | invalid (number : Option Nat) (e : Invalid)
  deriving DecidableEq, Repr

namespace LoadError

def context : LoadError → Text
  | noArgument => []
  | undecodable none _ => "could not decode argument: "
  | undecodable (some number) _ => "could not decode argument #" ++ Text.ofNat number ++ ": "
  | invalid none _ => []
  | invalid (some number) _ => "argument #" ++ Text.ofNat number ++ ": "

def message : LoadError → Text
  | noArgument => "no argument found"
  | e@(undecodable _ cause) => e.context ++ cause.message
  | e@(invalid _ cause) => e.context ++ cause.message

end LoadError

def loadNext (number : Option Nat) (first : Bool) (r : Yaml.Reader) :
    Except LoadError (Option (Argument × Yaml.Reader)) :=
  match (Yaml.Reader.next first).run r with
  | .error problem => .error (.undecodable number (.malformed problem))
  | .ok (none, _) => .ok none
  | .ok (some node, r) =>
    match ofNode node with
    | .error e => .error (.undecodable number e)
    | .ok a =>
      match a.validate with
      | .error e => .error (.invalid number e)
      | .ok () => .ok (some (a, r))

def load (s : Text) : Except LoadError Argument := do
  match ← loadNext none true (Yaml.Reader.ofText s) with
  | none => .error .noArgument
  | some (a, _) => return a

/-- Reads the arguments of the documents that follow those in `arguments`, the last first. -/
def loadFrom : Nat → List Argument → Yaml.Reader → Except LoadError (List Argument)
  | 0, arguments, _ => .ok arguments
  | fuel + 1, arguments, r => do
    match ← loadNext (some (arguments.length + 1)) arguments.isEmpty r with
    | none => return arguments
    | some (a, r) => loadFrom fuel (a :: arguments) r

def loadAll (s : Text) : Except LoadError (List Argument) := do
  let r := Yaml.Reader.ofText s
  match ← loadFrom r.bound [] r with
  | [] => .error .noArgument
  | arguments => return arguments.reverse

inductive FileError where
  | unreadable (path reason : Text)
  | unloadable (path : Text) (e : LoadError)
  deriving DecidableEq, Repr

namespace FileError

def loadContext (path : Text) : Text :=
  "could not load " ++ path.quote ++ ": "

def message : FileError → Text
  | unreadable path reason => "could not read " ++ path.quote ++ ": " ++ reason
  | unloadable path e => loadContext path ++ e.message

end FileError

/-- Reads the arguments of a file, given its content or why it cannot be read. -/
def loadFile (path : Text) (content : Except Text Text) : Except FileError (List Argument) :=
  match content with
  | .error reason => .error (.unreadable path reason)
  | .ok s =>
    match loadAll s with
    | .error e => .error (.unloadable path e)
    | .ok arguments => .ok arguments

end Argument

end Turnstile
