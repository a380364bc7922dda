import Turnstile.Report

/-! Each stage of an analysis leaves an entry of keys and values, and a value is quoted when it
would be unclear without quotes. Times are left out of the entries, and the name of the analysis
is given from outside. -/
namespace Turnstile

inductive Severity where
  | debug
  | error
  deriving DecidableEq, Repr

def Severity.label : Severity → Text
  | debug => "DEBUG"
  | error => "ERROR"

structure LogEntry where
  severity : Severity := .debug
  message : Text
  fields : List (Text × Text)
  deriving DecidableEq, Repr

namespace LogEntry

/-- Whether a piece of a value makes it unclear. -/
def isUnclear : Text.Piece → Bool
  | .stray _ => true
  | .char c =>
    let n := c.toNat
    if n < 0x80 then n ≤ 0x20 || n = 0x22 || n = 0x3D
    else n = 0xFFFD || Text.isBlank c || !Text.isPrintable c

def value (s : Text) : Text :=
  if s.isEmpty || s.pieces.any isUnclear then s.quote else s

def line (id : Text) (e : LogEntry) : Text :=
  let fields : List (Text × Text) :=
    ("level", e.severity.label) :: ("msg", e.message) :: ("run_id", id) :: e.fields
  Text.join " " (fields.map fun (key, s) => key ++ "=" ++ value s)

end LogEntry

namespace Report

/-- The entries on the table. That it disagrees with the search is an error. -/
def tableLog (r : Report) : List LogEntry :=
  match r.table with
  | .error e =>
    [{ message := "truth table skipped"
       fields := [("error", TooManyVars.summary ++ "\n" ++ e.detail)] }]
  | .ok table =>
    { message := "truth table"
      fields := [("vars", Text.ofNat table.vars.length), ("rows", Text.ofNat table.rows.length),
        ("verdict", table.verdict.label)] } ::
    if table.verdict = r.decision.verdict then []
    else [{ severity := .error
            message := "truth table and sat solver disagree"
            fields := [("table", table.verdict.label), ("sat", r.decision.verdict.label)] }]

def runLog (attempt : Nat) (run : Run) : LogEntry :=
  { message := "proof search"
    fields := [("attempt", Text.ofNat attempt), ("passes", Text.ofNat run.passes),
      ("facts", Text.ofNat run.facts.length), ("found", Text.ofBool run.found)] }

def log (r : Report) : List LogEntry :=
  [{ message := "parsed argument"
     fields := [("premises", Text.ofNat r.premises.length),
       ("conclusion", r.conclusion.canonical)] },
   { message := "sat check", fields := [("verdict", r.decision.verdict.label)] }] ++
  r.tableLog ++
  (if r.verdict = .invalid then []
    else [{ message := "core", fields := [("premises", Text.ofNat (r.core.getD []).length)] }]) ++
  (r.proof.runs.zipIdx.map fun (run, i) => runLog (i + 1) run) ++
  [{ message := "proof"
     fields := [("derived", Text.ofBool r.proof.derived), ("method", r.proof.method.label)] }]

/-- The log as text. Only errors are kept unless all is asked for. -/
def renderLog (r : Report) (verbose : Bool) (id : Text) : Text :=
  (r.log.filter fun e => verbose || e.severity = .error).flatMap fun e => e.line id ++ "\n"

end Report

end Turnstile
