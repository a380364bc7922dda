import Turnstile.Text.Utf8
import Turnstile.Text.Quoted

/-! A formula is written with the signs `~`, `&`, `|`, `->` and parentheses. Blanks only
separate tokens, and any longest run of other characters is a name, so `P1`, `rain?` and `a-b`
are all names. There are no comments, no quoted names and no reserved words. -/
namespace Turnstile

inductive Token.Kind where
  | name
  | not
  | and
  | or
  | implies
  | leftParen
  | rightParen
  deriving DecidableEq, Repr

namespace Token.Kind

def all : List Kind :=
  [name, not, and, or, implies, leftParen, rightParen]

def label : Kind → Text
  | name => "variable"
  | not => "~"
  | and => "&"
  | or => "|"
  | implies => "->"
  | leftParen => "("
  | rightParen => ")"

def ofChar? : Char → Option Kind
  | '(' => some leftParen
  | ')' => some rightParen
  | '~' => some not
  | '&' => some and
  | '|' => some or
  | _ => none

end Token.Kind

structure Token where
  kind : Token.Kind
  text : Text
  pos : Nat
  deriving DecidableEq, Repr

/-- A text that is not the encoding of any characters, and the position of its first
byte that starts none. -/
structure InvalidText where
  input : Text
  pos : Nat
  deriving DecidableEq, Repr

def InvalidText.message (e : InvalidText) : Text :=
  "input " ++ e.input.quote ++ " is not valid text: invalid byte at position " ++ Text.ofNat e.pos

namespace Token

/-- Puts the name token of a run of characters that ends before `pos` in front of the
tokens that follow. The run is given backwards, and an empty run gives no token. -/
def closeRun (pos : Nat) (run : List Char) (rest : List Token) : List Token :=
  match run with
  | [] => rest
  | _ =>
    let text := Text.encode run.reverse
    ⟨.name, text, pos - text.length⟩ :: rest

/-- The tokens of some characters that start at byte `pos`, after an unfinished name
whose characters `run` holds backwards. -/
def scan (pos : Nat) (run : List Char) : List Char → List Token
  | [] => closeRun pos run []
  | '-' :: '>' :: cs => closeRun pos run (⟨.implies, "->", pos⟩ :: scan (pos + 2) [] cs)
  | c :: cs =>
    if Text.isBlank c then closeRun pos run (scan (pos + c.utf8Size) [] cs)
    else match Kind.ofChar? c with
      | some kind =>
        closeRun pos run (⟨kind, String.utf8EncodeChar c, pos⟩ :: scan (pos + c.utf8Size) [] cs)
      | none => scan (pos + c.utf8Size) (c :: run) cs

def tokenize (s : Text) : Except InvalidText (List Token) :=
  match s.chars? with
  | some cs => .ok (scan 0 [] cs)
  | none => .error ⟨s, s.validLength⟩

end Token

end Turnstile
