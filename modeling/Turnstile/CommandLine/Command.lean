import Turnstile.CommandLine.Flag

/-! The first word that is neither a flag nor the value of one names the command; flags that all
commands share may stand before it. The commands for help and completion that a command-line
library adds by itself, and its suggestions for misspelt words, are not reproduced: such words
name no command and are refused. -/
namespace Turnstile

inductive Command where
  | check
  | table
  | repl
  | formula
  | examples
  deriving DecidableEq, Repr

namespace Command

def all : List Command :=
  [check, table, repl, formula, examples]

def name : Command → Text
  | check => "check"
  | table => "table"
  | repl => "repl"
  | formula => "formula"
  | examples => "examples"

def ofName? (word : Text) : Option Command :=
  all.find? (·.name = word)

def purpose : Command → Text
  | check => "Decides the validity of arguments and searches for proofs"
  | table => "Writes the truth tables of arguments"
  | repl => "Checks sequents interactively"
  | formula => "Writes the canonical form of a formula, and its value under an assignment"
  | examples => "Lists the built-in example arguments"

def program : Text :=
  "gopherproof"

def path (command : Command) : Text :=
  program ++ " " ++ command.name

def sharedFlags : List Flag :=
  [.verbose, .maxPasses, .maxVars, .help]

def sourceFlags : List Flag :=
  [.premise, .conclusion, .file, .builtin]

def flags : Command → List Flag
  | check => sharedFlags ++ sourceFlags ++ [.json, .trim, .table]
  | table => sharedFlags ++ sourceFlags
  | formula => sharedFlags ++ [.tree]
  | repl | examples => sharedFlags

end Command

inductive UsageError where
  | unknownCommand (word path : Text)
  | badFlag (e : FlagError)
  | noArguments
  | maxVarsTooLarge (n : Int)
  deriving DecidableEq, Repr

def UsageError.message : UsageError → Text
  | unknownCommand word path => "unknown command " ++ word.quote ++ " for " ++ path.quote
  | badFlag e => e.message
  | noArguments => "requires at least 1 arg(s), only received 0"
  | maxVarsTooLarge n =>
    "--max-vars is " ++ Text.ofInt n ++ ", cannot exceed " ++ Text.ofNat Table.greatestLimit

inductive Invocation where
  | help (command : Option Command)
  | run (command : Command) (settings : Settings) (arguments : List Text)
  deriving DecidableEq, Repr

namespace Invocation

/-- Whether a word before the command is a flag whose value is the next word. A flag that is
not known there is taken to have one. -/
def takesNext (word : Text) : Bool :=
  match word with
  | 0x2D :: 0x2D :: name => !word.contains 0x3D && name ≠ Flag.verbose.name
  | [0x2D, b] => b ≠ 0x3D
  | _ => false

/-- The word that names the command. -/
def commandWord? : List Text → Option Text
  | [] => none
  | word :: rest =>
    if word = "--" then none
    else if takesNext word then
      match rest with
      | _ :: next :: rest => commandWord? (next :: rest)
      | _ => none
    else if word.isEmpty || word.head? = some 0x2D then commandWord? rest
    else some word

def dropCommand (command : Text) : List Text → List Text
  | [] => []
  | word :: rest =>
    if word = "--" then word :: rest
    else if takesNext word then
      match rest with
      | [] => [word]
      | value :: rest => word :: value :: dropCommand command rest
    else if word = command then rest
    else word :: dropCommand command rest

def checkArguments (command : Command) (arguments : List Text) : Except UsageError Unit :=
  match command, arguments with
  | .repl, word :: _ | .examples, word :: _ => .error (.unknownCommand word command.path)
  | .formula, [] => .error .noArguments
  | _, _ => .ok ()

def ofWords (words : List Text) : Except UsageError Invocation := do
  match commandWord? words with
  | none =>
    let _ ← (Settings.readWords Command.sharedFlags words {}).mapError .badFlag
    return .help none
  | some word =>
    match Command.ofName? word with
    | none => .error (.unknownCommand word Command.program)
    | some command =>
      let (settings, arguments) ←
        (Settings.readWords command.flags (dropCommand word words) {}).mapError .badFlag
      if settings.help then return .help (some command)
      checkArguments command arguments
      if (Table.greatestLimit : Int) < settings.maxVars then
        .error (.maxVarsTooLarge settings.maxVars)
      else return .run command settings arguments

end Invocation

end Turnstile
