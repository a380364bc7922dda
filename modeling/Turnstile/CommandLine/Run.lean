import Turnstile.Report.Log
import Turnstile.Session

/-! A command ends with a code: 0 if every argument is valid, 1 if one is not, 2 if something
goes wrong, and nothing is reported unless all arguments can be analysed. The examples are
written out here; the file of documents they are otherwise loaded from is not read. Help pages
only name the purpose of a command, not its flags. -/
namespace Turnstile

namespace Library

/-- Well-known arguments, most of them valid, as the documents of the examples hold them. -/
def arguments : List Argument := [
  { name := "modus-ponens", premises := ["P -> Q", "P"], conclusion := "Q" },
  { name := "modus-tollens", premises := ["P -> Q", "~Q"], conclusion := "~P" },
  { name := "hypothetical-syllogism", premises := ["P -> Q", "Q -> R"],
    conclusion := "P -> R" },
  { name := "disjunctive-syllogism", premises := ["P | Q", "~P"], conclusion := "Q" },
  { name := "conditional-proof", premises := ["P & Q -> R"], conclusion := "P & Q -> R & P" },
  { name := "constructive-dilemma", premises := ["P | Q", "P -> R", "Q -> R"],
    conclusion := "R" },
  { name := "affirming-the-consequent", premises := ["P -> Q", "Q"], conclusion := "P" },
  { name := "inconsistent-premises", premises := ["(P | Q) -> R", "P", "~R"],
    conclusion := "~Q" }]

def find? (name : Text) : Option Argument :=
  arguments.find? (·.name = name)

def listing : Text :=
  arguments.flatMap fun a => a.name ++ "\t" ++ a.sequent ++ "\n"

end Library

structure Host where
  /-- The content of a file, or why it cannot be read. -/
  fileContent : Text → Except Text Text
  input : Text := []
  runName : Nat → Text
  solver : Solver := Solver.search

structure Outcome where
  code : Nat := 0
  output : Text := []
  errors : Text := []
  failure : Option Failure := none
  deriving DecidableEq, Repr

def Outcome.failed (e : Failure) : Outcome :=
  { code := 2, errors := e.line, failure := some e }

namespace CommandLine

def ofFile (host : Host) (s : Settings) : Except Failure (List Argument) :=
  if s.file.isEmpty then .ok []
  else (Argument.loadFile s.file (host.fileContent s.file)).mapError .file

def ofExample (s : Settings) : Except Failure (List Argument) :=
  if s.builtin.isEmpty then .ok []
  else match Library.find? s.builtin with
    | some a => .ok [a]
    | none => .error (.noExample s.builtin)

def ofFlags (s : Settings) : Except Failure (List Argument) :=
  if s.conclusion.isEmpty && s.premises.isEmpty then .ok []
  else
    let a : Argument := { premises := s.premises, conclusion := s.conclusion }
    match a.validate with
    | .ok () => .ok [a]
    | .error e => .error (.argument [] e)

def ofSequents (sequents : List Text) : Except Failure (List Argument) :=
  sequents.mapM fun text => (Argument.ofSequent text).mapError .sequent

/-- The arguments that are asked for: those of a file, an example, the one given by flags,
and the sequents. -/
def gather (host : Host) (s : Settings) (sequents : List Text) :
    Except Failure (List Argument) := do
  let fromFile ← ofFile host s
  let fromExample ← ofExample s
  let fromFlags ← ofFlags s
  let fromSequents ← ofSequents sequents
  match fromFile ++ fromExample ++ fromFlags ++ fromSequents with
  | [] => .error .noArgument
  | arguments => return arguments

/-- The reports on some arguments, up to one that cannot be analysed. -/
def analyzeAll (limits : Limits) (solver : Solver) :
    List Argument → List Report × Option Failure
  | [] => ([], none)
  | a :: rest =>
    match analyze a limits solver with
    | .error e => ([], some (.argument a.name e))
    | .ok r =>
      let (reports, failure) := analyzeAll limits solver rest
      (r :: reports, failure)

def logs (host : Host) (verbose : Bool) (reports : List Report) : Text :=
  reports.zipIdx.flatMap fun (r, i) => r.renderLog verbose (host.runName i)

def code (reports : List Report) : Nat :=
  if reports.any (·.verdict = .invalid) then 1 else 0

def report (host : Host) (s : Settings) (render : List Report → Text)
    (arguments : List Argument) : Outcome :=
  let (reports, failure) := analyzeAll s.limits host.solver arguments
  let logs := logs host s.verbose reports
  match failure with
  | some e => { Outcome.failed e with errors := logs ++ e.line }
  | none => { code := code reports, output := render reports, errors := logs }

def summaries (host : Host) (trim : Bool) (reports : List Report) : Text :=
  match reports.zipIdx.map fun (r, i) => r.summary (host.runName i) trim with
  | [summary] => Json.render summary
  | summaries => Json.render (.list summaries)

def pages (page : Report → Text) (reports : List Report) : Text :=
  Text.join "\n" (reports.map page)

def check (host : Host) (s : Settings) (arguments : List Argument) : Outcome :=
  report host s
    (if s.json then summaries host s.trim else pages fun r => r.page s.table s.trim) arguments

def table (host : Host) (s : Settings) (arguments : List Argument) : Outcome :=
  report host s (pages fun r => r.tablePage ++ r.verdictLine) arguments

/-- Writes a formula and, if it is bound, its value. What comes before an error is written. -/
def formula (s : Settings) (text : Text) (bindings : List Text) : Outcome :=
  match Formula.parse text with
  | .error e => .failed (.formula e)
  | .ok f =>
    let shown := f.canonical ++ "\n" ++ if s.tree then f.tree ++ "\n" else []
    if bindings.isEmpty then { output := shown }
    else
      match Model.ofBindings bindings with
      | .error e => { Outcome.failed (.binding e) with output := shown }
      | .ok m =>
        match f.evalStrict m with
        | .error e => { Outcome.failed (.unbound e) with output := shown }
        | .ok b => { output := shown ++ Model.letter b ++ "\n" }

/-- The lines of an input. There is no line after the last line end. -/
def linesOf (input : Text) : List Text :=
  let lines := input.splitByte 0x0A
  if lines.getLast? = some [] then lines.dropLast else lines

def withoutReturn (line : Text) : Text :=
  if line.getLast? = some 0x0D then line.dropLast else line

def longestLine : Nat :=
  65535

/-- Runs a session on the lines of the input, as far as they are not too long. -/
def repl (host : Host) (s : Settings) : Outcome :=
  let lines := linesOf host.input
  let short := lines.takeWhile (·.length ≤ longestLine)
  let replies := ({ limits := s.limits } : Session).run (short.map withoutReturn) host.solver
  let output := replies.flatMap Reply.output
  let logs := logs host s.verbose (replies.filterMap Reply.report)
  if short.length < lines.length && replies.all Reply.continues then
    { Outcome.failed .lineTooLong with
      output := output, errors := logs ++ Failure.lineTooLong.line }
  else { output := output, errors := logs }

def helpPage : Option Command → Text
  | some command => command.purpose ++ "\n"
  | none =>
    Command.all.flatMap fun command => command.name ++ "\t" ++ command.purpose ++ "\n"

def perform (host : Host) : Invocation → Outcome
  | .help command => { output := helpPage command }
  | .run .examples _ _ => { output := Library.listing }
  | .run .repl s _ => repl host s
  | .run .formula s (text :: bindings) => formula s text bindings
  | .run .formula _ [] => .failed (.usage .noArguments)
  | .run .check s sequents =>
    match gather host s sequents with
    | .error e => .failed e
    | .ok arguments => check host s arguments
  | .run .table s sequents =>
    match gather host s sequents with
    | .error e => .failed e
    | .ok arguments => table host s arguments

def execute (host : Host) (words : List Text) : Outcome :=
  match Invocation.ofWords words with
  | .error e => .failed (.usage e)
  | .ok invocation => perform host invocation

end CommandLine

end Turnstile
