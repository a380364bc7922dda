import Turnstile.Report
import Turnstile.Text.Integer

/-! Words as settings, by the rules of a library for POSIX flags: `--name value`,
`--name=value`, `-p value`, `-pvalue`, `-p=value`, groups of letters, and `--` before plain
arguments. A switch takes a value only after `=`. Only the flags listed here exist; usage texts
and deprecated flags are not modelled. -/
namespace Turnstile

inductive Flag where
  | verbose
  | maxPasses
  | maxVars
  | premise
  | conclusion
  | file
  | builtin
  | json
  | trim
  | table
  | tree
  | help
  deriving DecidableEq, Repr

namespace Flag

def name : Flag → Text
  | verbose => "verbose"
  | maxPasses => "max-passes"
  | maxVars => "max-vars"
  | premise => "premise"
  | conclusion => "conclusion"
  | file => "file"
  | builtin => "example"
  | json => "json"
  | trim => "trim"
  | table => "table"
  | tree => "tree"
  | help => "help"

def letter? : Flag → Option Char
  | premise => some 'p'
  | conclusion => some 'c'
  | file => some 'f'
  | builtin => some 'e'
  | help => some 'h'
  | _ => none

def isSwitch : Flag → Bool
  | verbose | json | trim | table | tree | help => true
  | _ => false

def label (flag : Flag) : Text :=
  match flag.letter? with
  | some letter => "-" ++ Text.encode [letter] ++ ", --" ++ flag.name
  | none => "--" ++ flag.name

end Flag

structure Settings where
  verbose : Bool := false
  maxPasses : Int := 5000
  maxVars : Int := Table.defaultLimit
  premises : List Text := []
  conclusion : Text := []
  file : Text := []
  builtin : Text := []
  json : Bool := false
  trim : Bool := false
  table : Bool := false
  tree : Bool := false
  help : Bool := false
  deriving DecidableEq, Repr

def Settings.limits (s : Settings) : Limits :=
  ⟨s.maxVars, s.maxPasses⟩

inductive ValueError where
  | notInteger (value : Text) (e : Text.NumeralError)
  | notTruth (value : Text)
  deriving DecidableEq, Repr

def ValueError.message : ValueError → Text
  | notInteger value e => "strconv.ParseInt: parsing " ++ value.quote ++ ": " ++ e.message
  | notTruth value => "strconv.ParseBool: parsing " ++ value.quote ++ ": invalid syntax"

def readSwitch (value : Text) : Except ValueError Bool :=
  let isOneOf (words : List String) : Bool := words.any fun word => value = Text.ofString word
  if isOneOf ["1", "t", "T", "true", "TRUE", "True"] then .ok true
  else if isOneOf ["0", "f", "F", "false", "FALSE", "False"] then .ok false
  else .error (.notTruth value)

def readBound (value : Text) : Except ValueError Int :=
  (Text.readInteger value).mapError (.notInteger value)

/-- Gives a flag a value. Premises add up; otherwise the last value counts. -/
def Settings.set (s : Settings) (flag : Flag) (value : Text) : Except ValueError Settings :=
  match flag with
  | .verbose => do return { s with verbose := ← readSwitch value }
  | .maxPasses => do return { s with maxPasses := ← readBound value }
  | .maxVars => do return { s with maxVars := ← readBound value }
  | .premise => .ok { s with premises := s.premises ++ [value] }
  | .conclusion => .ok { s with conclusion := value }
  | .file => .ok { s with file := value }
  | .builtin => .ok { s with builtin := value }
  | .json => do return { s with json := ← readSwitch value }
  | .trim => do return { s with trim := ← readSwitch value }
  | .table => do return { s with table := ← readSwitch value }
  | .tree => do return { s with tree := ← readSwitch value }
  | .help => do return { s with help := ← readSwitch value }

inductive FlagError where
  | badSyntax (word : Text)
  | unknown (name : Text)
  /-- No flag has the letter, the first of a group. -/
  | unknownLetter (letter : UInt8) (group : Text)
  | needsValue (flag : Flag)
  | letterNeedsValue (letter : UInt8)
  | badValue (flag : Flag) (value : Text) (e : ValueError)
  deriving DecidableEq, Repr

namespace FlagError

/-- How a byte that stands for no flag is shown. A byte that is no ASCII character shows as
the first byte of the encoding of the code point it numbers. -/
def letterShown (b : UInt8) : Text :=
  Text.quoteChar (Char.ofNat
    (if b.toNat < 0x80 then b.toNat else if b.toNat < 0xC0 then 0xC2 else 0xC3))

def message : FlagError → Text
  | badSyntax word => "bad flag syntax: " ++ word
  | unknown name => "unknown flag: --" ++ name
  | unknownLetter letter group =>
    "unknown shorthand flag: " ++ letterShown letter ++ " in -" ++ group
  | needsValue flag => "flag needs an argument: --" ++ flag.name
  | letterNeedsValue letter =>
    "flag needs an argument: " ++ letterShown letter ++ " in -" ++ [letter]
  | badValue flag value e =>
    "invalid argument " ++ value.quote ++ " for " ++ flag.label.quote ++ " flag: " ++ e.message

end FlagError

structure FlagWord where
  given : List (Flag × Text) := []
  /-- A flag whose value is the next word, and what is wrong if there is none. -/
  waiting : Option (Flag × FlagError) := none

namespace FlagWord

def ofName (known : List Flag) (body : Text) : Except FlagError FlagWord :=
  let name := body.takeWhile (· ≠ 0x3D)
  match known.find? (·.name = name), body.drop name.length with
  | none, _ => .error (.unknown name)
  | some flag, _ :: value => .ok { given := [(flag, value)] }
  | some flag, [] =>
    if flag.isSwitch then .ok { given := [(flag, "true")] }
    else .ok { waiting := some (flag, .needsValue flag) }

/-- Reads the letters that follow one dash. Letters of switches may be followed by others.
What starts with `test.` is skipped. -/
def ofLetters (known : List Flag) : Text → Except FlagError FlagWord
  | [] => .ok {}
  | letter :: rest =>
    if (Text.ofString "test.").isPrefixOf (letter :: rest) then .ok {}
    else
      match known.find? (·.letter?.map Char.toNat = some letter.toNat), rest with
      | none, _ => .error (.unknownLetter letter (letter :: rest))
      | some flag, 0x3D :: b :: value => .ok { given := [(flag, b :: value)] }
      | some flag, rest =>
        if flag.isSwitch then do
          let word ← ofLetters known rest
          return { word with given := (flag, "true") :: word.given }
        else if rest.isEmpty then
          .ok { waiting := some (flag, .letterNeedsValue letter) }
        else .ok { given := [(flag, rest)] }

/-- Reads a word that is not `--`. A word that does not start with a dash, or is just one, is
an argument. -/
def ofWord (known : List Flag) (word : Text) : Except FlagError (Option FlagWord) :=
  match word with
  | 0x2D :: 0x2D :: body =>
    if body.head? = some 0x2D ∨ body.head? = some 0x3D then .error (.badSyntax word)
    else some <$> ofName known body
  | 0x2D :: b :: group => some <$> ofLetters known (b :: group)
  | _ => .ok none

end FlagWord

namespace Settings

def setAll (s : Settings) (given : List (Flag × Text)) : Except FlagError Settings :=
  given.foldlM (fun s (flag, value) => (s.set flag value).mapError (.badValue flag value)) s

/-- Reads words with the flags that are known. The words that are left are arguments. -/
def readWords (known : List Flag) :
    List Text → Settings → Except FlagError (Settings × List Text)
  | [], s => .ok (s, [])
  | word :: rest, s =>
    if word = "--" then .ok (s, rest)
    else
      match FlagWord.ofWord known word, rest with
      | .error e, _ => .error e
      | .ok none, rest => do
        let (s, arguments) ← readWords known rest s
        return (s, word :: arguments)
      | .ok (some ⟨given, none⟩), rest => do readWords known rest (← s.setAll given)
      | .ok (some ⟨_, some (_, e)⟩), [] => .error e
      | .ok (some ⟨given, some (flag, _)⟩), value :: rest => do
        readWords known rest (← s.setAll (given ++ [(flag, value)]))

end Settings

end Turnstile
