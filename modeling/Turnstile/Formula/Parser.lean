import Turnstile.Formula.Basic
import Turnstile.Token

/-! From loosest to tightest the operators are `->`, `|`, `&` and `~`; `->` groups to the right,
`|` and `&` to the left. Tokens are read one at a time. The state holds, for each open
parenthesis, the operators that wait for their right operand, so a token is refused exactly
where no formula can go on. -/
namespace Turnstile

namespace Formula

/-- The operators of one nesting level that wait for their right operand. -/
structure Level where
  /-- Left operands of `->`, the last one first. -/
  antecedents : List Formula := []
  disjunction : Option Formula := none
  conjunction : Option Formula := none
  negations : Nat := 0
  deriving DecidableEq, Repr

namespace Level

def negate : Nat → Formula → Formula
  | 0, f => f
  | n + 1, f => not (negate n f)

def conjoin (level : Level) (f : Formula) : Formula :=
  let f := negate level.negations f
  match level.conjunction with
  | some left => and left f
  | none => f

def disjoin (level : Level) (f : Formula) : Formula :=
  match level.disjunction with
  | some left => or left f
  | none => f

/-- Gives an operand to the waiting `|` and then to all waiting `->`. -/
def close (level : Level) (f : Formula) : Formula :=
  level.antecedents.foldl (fun right left => implies left right) (level.disjoin f)

end Level

/-- What is known after some tokens: the levels around open parentheses, the innermost
first, the current level, and the operand just read, if an operator may follow. -/
structure State where
  outer : List Level := []
  level : Level := {}
  operand : Option Formula := none
  deriving DecidableEq, Repr

inductive Refusal where
  /-- Nothing can stand here but something else. -/
  | unexpected
  /-- An operand is complete and a parenthesis before it is still open. -/
  | unclosed
  deriving DecidableEq, Repr

namespace State

def complete (state : State) (f : Formula) : State :=
  { state with
    level := { state.level with negations := 0, conjunction := none }
    operand := some (state.level.conjoin f) }

def refusal (state : State) : Refusal :=
  if state.outer.isEmpty then .unexpected else .unclosed

def step (state : State) (token : Token) : Except Refusal State :=
  match state.operand, token.kind with
  | none, .name => .ok (state.complete (var token.text))
  | none, .not =>
    .ok { state with level := { state.level with negations := state.level.negations + 1 } }
  | none, .leftParen => .ok { state with outer := state.level :: state.outer, level := {} }
  | none, _ => .error .unexpected
  | some f, .and =>
    .ok { state with level := { state.level with conjunction := some f }, operand := none }
  | some f, .or =>
    .ok { state with
      level := { state.level with disjunction := some (state.level.disjoin f) }
      operand := none }
  | some f, .implies =>
    let left := state.level.disjoin f
    .ok { state with
      level := { state.level with
        antecedents := left :: state.level.antecedents
        disjunction := none }
      operand := none }
  | some f, .rightParen =>
    match state.outer with
    | [] => .error .unexpected
    | level :: outer => .ok (State.complete ⟨outer, level, none⟩ (state.level.close f))
  | some _, _ => .error state.refusal

def finish (state : State) : Except Refusal Formula :=
  match state.operand with
  | none => .error .unexpected
  | some f => if state.outer.isEmpty then .ok (state.level.close f) else .error .unclosed

/-- Reads the tokens that are left. A refusal comes with the token that was refused,
or with none at the end. -/
def run (state : State) : List Token → Except (Refusal × Option Token) Formula
  | [] => state.finish.mapError (·, none)
  | token :: rest =>
    match state.step token with
    | .ok next => next.run rest
    | .error refusal => .error (refusal, some token)

end State

structure ParseError where
  input : Text
  refusal : Refusal
  /-- The token that was refused; none at the end of the input. -/
  token : Option Token
  deriving DecidableEq, Repr

namespace ParseError

/-- The byte where the refused token starts, or the length of the input. -/
def pos (e : ParseError) : Nat :=
  match e.token with
  | some token => token.pos
  | none => e.input.length

/-- The refused token as written; empty at the end of the input. -/
def found (e : ParseError) : Text :=
  match e.token with
  | some token => token.text
  | none => []

def reason (e : ParseError) : Text :=
  match e.refusal, e.token with
  | .unclosed, _ => "missing closing parenthesis"
  | .unexpected, none => "unexpected end of input"
  | .unexpected, some token => "unexpected token: " ++ token.text

def message (e : ParseError) : Text :=
  e.reason ++ " at position " ++ Text.ofNat e.pos ++ " in " ++ e.input.quote

end ParseError

inductive ReadError where
  | unreadable (cause : Text)
  | invalidText (e : InvalidText)
  | ungrammatical (e : ParseError)
  deriving DecidableEq, Repr

def ReadError.message : ReadError → Text
  | unreadable cause => "could not read formula: " ++ cause
  | invalidText e => e.message
  | ungrammatical e => e.message

def parse (s : Text) : Except ReadError Formula :=
  match Token.tokenize s with
  | .error e => .error (.invalidText e)
  | .ok tokens =>
    match State.run {} tokens with
    | .ok f => .ok f
    | .error (refusal, token) => .error (.ungrammatical ⟨s, refusal, token⟩)

/-- Reads a formula from a source that may fail to give its text. -/
def parseSource : Except Text Text → Except ReadError Formula
  | .ok s => parse s
  | .error cause => .error (.unreadable cause)

end Formula

end Turnstile
