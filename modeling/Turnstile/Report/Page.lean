import Turnstile.Report
import Turnstile.Text.Wrap

/-! Reports as pages of text, with tables drawn in boxes: a column is as wide as its widest
cell, a row as high as its highest, and the header one line. Titles, verdicts and borders are
coloured only on terminals; the colouring is left out, and pages are those of a plain stream. -/
namespace Turnstile

structure Grid where
  header : List Text
  rows : List (List Text)

namespace Grid

def widths (header : List Text) (rows : List (List Text)) : List Nat :=
  rows.foldl (fun widest row => widest.zipWith Nat.max (row.map Text.width))
    (header.map Text.width)

def rule (left crossing right : Text) (widths : List Nat) : Text :=
  let dashes (n : Nat) : Text := (List.replicate (n + 2) (Text.ofString "─")).flatten
  left ++ Text.join crossing (widths.map dashes) ++ right

/-- The lines of a cell in a row of a height. -/
def cell (height : Nat) (text : Text) (width : Nat) : List Text :=
  let lines := (Text.wrap width text).map fun line => 0x20 :: (line ++ [0x20])
  let lines := lines ++ List.replicate (height - lines.length) []
  Text.alignTo 0 ((Text.alignTo (width + 2) lines).take height)

def height (widths : List Nat) (row : List Text) : Nat :=
  (row.zipWith (fun text width => Text.height width text) widths).foldl Nat.max 1

def lines (widths : List Nat) (height : Nat) (row : List Text) : List Text :=
  let cells := row.zipWith (cell height) widths
  (List.range height).map fun i =>
    "│" ++ Text.join "│" (cells.map fun lines => lines.getD i []) ++ "│"

def render (g : Grid) : Text :=
  let widths := widths g.header g.rows
  let rows := g.rows.flatMap fun row => lines widths (height widths row) row
  let page := rule "┌" "┬" "┐" widths :: lines widths 1 g.header ++
    rule "├" "┼" "┤" widths :: rows ++ [rule "└" "┴" "┘" widths]
  (Text.alignTo 0 page).flatMap (· ++ [0x0A])

end Grid

/-- A text with four blanks for each tab and plain line ends. -/
def plainLines : Text → List Text
  | [] => [[]]
  | 0x09 :: s => [0x20, 0x20, 0x20, 0x20].foldr Text.consHead (plainLines s)
  | 0x0D :: 0x0A :: s => [] :: plainLines s
  | 0x0A :: s => [] :: plainLines s
  | b :: s => Text.consHead b (plainLines s)

/-- A name as a title. Its lines are filled up to the width of the widest. -/
def titleOf (name : Text) : Text :=
  Text.join "\n" (Text.alignTo 0 (plainLines name))

namespace Report

def verdictText (r : Report) : Text :=
  match r.verdict with
  | .valid => "VALID"
  | .inconsistent => "VALID (vacuously: the premises are inconsistent)"
  | .invalid => "INVALID"

def verdictLine (r : Report) : Text :=
  "verdict: " ++ r.verdictText ++ "\n"

/-- The truth table as a grid: the variables, all premises together, and the conclusion. -/
def tableGrid (table : Table) (conclusion : Formula) : Grid :=
  { header := table.vars ++ [Text.ofString "premises", conclusion.canonical]
    rows := table.rows.map fun row =>
      (row.values ++ [row.premises, row.conclusion]).map Model.letter }

def tablePage (r : Report) : Text :=
  match r.table with
  | .ok table => (tableGrid table r.conclusion).render
  | .error _ => "truth table skipped: too many variables\n"

def proofGrid (proof : Proof) : Grid :=
  { header := [Text.ofString "#", Text.ofString "formula", Text.ofString "justification"]
    rows := proof.steps.map fun step => [Text.ofNat step.seq, step.text, step.justification] }

def proofPage (proof : Proof) : Text :=
  if proof.derived then "proof: " ++ proof.method.label ++ "\n" ++ (proofGrid proof).render
  else Proof.notFound ++ "\n"

/-- Names the premises that are needed, if some are not. -/
def neededLine (r : Report) : Text :=
  match r.core with
  | none | some [] => []
  | some core =>
    if core.length < r.premises.length then
      "premises needed: " ++ Text.join ", " (core.map fun i => Text.ofNat (i + 1)) ++ "\n"
    else []

def counterexampleLine (r : Report) : Text :=
  match r.counterexample with
  | some m => "counterexample: " ++ m.render ++ "\n"
  | none => []

def titleLine (r : Report) : Text :=
  if r.argument.name.isEmpty then [] else titleOf r.argument.name ++ "\n"

def premiseLine (number : Nat) (f : Formula) : Text :=
  "premise " ++ Text.ofNat number ++ ": " ++ f.canonical ++ "\n"

def conclusionLine (r : Report) : Text :=
  "conclusion: " ++ r.conclusion.canonical ++ "\n"

def page (r : Report) (withTable trim : Bool) : Text :=
  r.titleLine ++ (r.premises.zipIdx 1).flatMap (fun (f, number) => premiseLine number f) ++
    r.conclusionLine ++ r.verdictLine ++ r.counterexampleLine ++ r.neededLine ++
    (if withTable then r.tablePage else []) ++ proofPage (r.proofFor trim)

end Report

end Turnstile
