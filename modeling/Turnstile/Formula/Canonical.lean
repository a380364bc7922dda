import Turnstile.Formula.Basic

/-! The canonical text of a formula puts parentheses around every binary formula and around
every negated formula that is not a variable. Formulas with the same canonical text are the same
fact, also when the name of a variable only looks like a formula. A syntax tree has a line for
each node, indented by its depth. -/
namespace Turnstile

namespace Formula

/-- The canonical text of a formula with `rest` after it. -/
def write : Formula → Text → Text
  | var name, rest => name ++ rest
  | not (var name), rest => 0x7E :: (name ++ rest)
  | not f, rest => 0x7E :: 0x28 :: f.write (0x29 :: rest)
  | and l r, rest => 0x28 :: l.write (0x20 :: 0x26 :: 0x20 :: r.write (0x29 :: rest))
  | or l r, rest => 0x28 :: l.write (0x20 :: 0x7C :: 0x20 :: r.write (0x29 :: rest))
  | implies l r, rest => 0x28 :: l.write (0x20 :: 0x2D :: 0x3E :: 0x20 :: r.write (0x29 :: rest))

def canonical (f : Formula) : Text :=
  f.write []

def same (f g : Formula) : Bool :=
  f.canonical == g.canonical

theorem write_eq (f : Formula) (rest : Text) : f.write rest = f.canonical ++ rest := by
  suffices h : ∀ s t, f.write (s ++ t) = f.write s ++ t from h [] rest
  induction f with
  | var name => simp [write]
  | not f ih =>
    cases f with
    | var name => simp [write]
    | _ => intro s t; simpa [write] using ih (0x29 :: s) t
  | and l r hl hr | or l r hl hr | implies l r hl hr =>
    intro s t
    simp only [write, List.cons_append, List.cons.injEq, true_and]
    rw [← hl]
    simp [← hr]

@[simp] theorem canonical_var (name : Text) : (var name).canonical = name := by
  simp [canonical, write]

@[simp] theorem canonical_not_var (name : Text) :
    (not (var name)).canonical = "~" ++ name := by
  simp [canonical, write]
  rfl

theorem canonical_and (l r : Formula) :
    (and l r).canonical = "(" ++ (l.canonical ++ (" & " ++ (r.canonical ++ ")"))) := by
  simp [canonical, write]
  rw [write_eq l, write_eq r]
  rfl

theorem canonical_or (l r : Formula) :
    (or l r).canonical = "(" ++ (l.canonical ++ (" | " ++ (r.canonical ++ ")"))) := by
  simp [canonical, write]
  rw [write_eq l, write_eq r]
  rfl

theorem canonical_implies (l r : Formula) :
    (implies l r).canonical = "(" ++ (l.canonical ++ (" -> " ++ (r.canonical ++ ")"))) := by
  simp [canonical, write]
  rw [write_eq l, write_eq r]
  rfl

def indent : Nat → Text
  | 0 => []
  | depth + 1 => (List.replicate depth (Text.ofString "│   ")).flatten ++ "└── "

def treeLines (depth : Nat) : Formula → List Text
  | var name => [indent depth ++ ("VAR(" ++ name ++ ")")]
  | not f => (indent depth ++ "NOT") :: f.treeLines (depth + 1)
  | and l r => (indent depth ++ "AND") :: (l.treeLines (depth + 1) ++ r.treeLines (depth + 1))
  | or l r => (indent depth ++ "OR") :: (l.treeLines (depth + 1) ++ r.treeLines (depth + 1))
  | implies l r =>
    (indent depth ++ "IMPLIES") :: (l.treeLines (depth + 1) ++ r.treeLines (depth + 1))

/-- The syntax tree of a formula, without a line end after its last line. -/
def tree (f : Formula) : Text :=
  Text.join "\n" (f.treeLines 0)

end Formula

end Turnstile
