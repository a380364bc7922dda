import Turnstile.Argument.Document
import Turnstile.Binding
import Turnstile.CommandLine.Command
import Turnstile.Report.Page

/-! A session reads lines: a sequent is answered by a report, a formula by its canonical form
and its tree, and other lines turn switches, ask for help or end the session. Failures are
reported on a line each and do not end it. The colouring of that line on terminals and the
prompt are left out. -/
namespace Turnstile

inductive Failure where
  | usage (e : UsageError)
  | file (e : Argument.FileError)
  | noExample (name : Text)
  | noArgument
  | sequent (e : Argument.SequentError)
  | argument (name : Text) (e : Argument.Invalid)
  | formula (e : Formula.ReadError)
  | binding (e : BindingError)
  | unbound (e : Formula.Unbound)
  | lineTooLong
  deriving DecidableEq, Repr

namespace Failure

def message : Failure → Text
  | usage e => e.message
  | file e => e.message
  | noExample name => "no example named " ++ name.quote ++ ", see the examples command"
  | noArgument =>
    "no argument given: use a sequent such as \"P -> Q, P |- Q\", or --premise and --conclusion"
  | sequent e => e.message
  | argument name e =>
    if name.isEmpty then e.message else "argument " ++ name.quote ++ ": " ++ e.message
  | formula e => e.message
  | binding e => e.message
  | unbound e => e.message
  | lineTooLong => "bufio.Scanner: token too long"

def line (e : Failure) : Text :=
  "error: " ++ e.message ++ "\n"

end Failure

structure Session where
  limits : Limits := {}
  withTable : Bool := false
  trim : Bool := false
  deriving DecidableEq, Repr

/-- What a session does with a line. -/
structure Reply where
  session : Session
  output : Text := []
  continues : Bool := true
  report : Option Report := none

namespace Session

def helpText : Text :=
  "Enter a sequent such as \"P -> Q, P |- Q\" to check it, or a formula " ++
    "to see its canonical form.\n" ++
    "  :table  toggles truth tables\n" ++
    "  :trim   toggles proof trimming\n" ++
    "  :help   writes this help\n" ++
    "  :quit   exits\n"

def hasSign : Text → Bool
  | 0x7C :: 0x2D :: _ => true
  | _ :: s => hasSign s
  | [] => false

def replyFormula (s : Session) (line : Text) : Reply :=
  match Formula.parse line with
  | .error e => { session := s, output := (Failure.formula e).line }
  | .ok f => { session := s, output := f.canonical ++ "\n" ++ f.tree ++ "\n" }

def replySequent (s : Session) (line : Text) (solver : Solver := Solver.search) : Reply :=
  match Argument.ofSequent line with
  | .error e => { session := s, output := (Failure.sequent e).line }
  | .ok a =>
    match analyze a s.limits solver with
    | .error e => { session := s, output := (Failure.argument [] e).line }
    | .ok r => { session := s, output := r.page s.withTable s.trim, report := some r }

def eval (s : Session) (line : Text) (solver : Solver := Solver.search) : Reply :=
  let line := line.trim
  if line.isEmpty then { session := s }
  else if line = ":quit" ∨ line = ":q" ∨ line = ":exit" then { session := s, continues := false }
  else if line = ":help" ∨ line = ":h" then { session := s, output := helpText }
  else if line = ":table" then
    { session := { s with withTable := !s.withTable }
      output := "truth tables: " ++ Text.ofBool (!s.withTable) ++ "\n" }
  else if line = ":trim" then
    { session := { s with trim := !s.trim }
      output := "trimming: " ++ Text.ofBool (!s.trim) ++ "\n" }
  else if hasSign line then s.replySequent line solver
  else s.replyFormula line

/-- The answers to some lines, up to one that ends the session. -/
def run (s : Session) (lines : List Text) (solver : Solver := Solver.search) : List Reply :=
  match lines with
  | [] => []
  | line :: lines =>
    let reply := s.eval line solver
    reply :: if reply.continues then reply.session.run lines solver else []

end Session

end Turnstile
