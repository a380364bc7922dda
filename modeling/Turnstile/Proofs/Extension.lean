import Turnstile.Proofs.Encoding
import Turnstile.Proofs.Places
import Turnstile.Proofs.Table

/-! An encoding numbers the names and the binary formulas that it meets, operands first and each
of them once. Its clauses hold exactly when the variable of each of them has its value, so the
values of the names settle all others, and clauses alone never contradict each other. -/
namespace Turnstile

theorem mem_of_getElem?_eraseDups [BEq α] [LawfulBEq α] {xs : List α} {i : Nat} {x : α}
    (place : xs.eraseDups[i]? = some x) : x ∈ xs :=
  List.mem_eraseDups.mp (List.mem_of_getElem? place)

theorem eraseDups_append_of_subset [BEq α] [LawfulBEq α] {xs ys : List α} (inside : ys ⊆ xs) :
    (xs ++ ys).eraseDups = xs.eraseDups := by
  have nothing : ys.removeAll xs = [] :=
    List.filter_eq_nil_iff.mpr fun y member => by simpa using inside member
  rw [List.eraseDups_append, nothing, List.eraseDups_nil, List.append_nil]

theorem eraseDups_concat [BEq α] [LawfulBEq α] {xs : List α} {x : α} (new : x ∉ xs) :
    (xs ++ [x]).eraseDups = xs.eraseDups ++ [x] := by
  have all : [x].removeAll xs = [x] := by simpa [List.removeAll] using new
  rw [List.eraseDups_append, all, List.eraseDups_cons]
  simp

theorem getElem?_concat_eq_some_iff {xs : List α} {x y : α} {i : Nat} :
    (xs ++ [x])[i]? = some y ↔ xs[i]? = some y ∨ i = xs.length ∧ y = x := by
  rcases Nat.lt_trichotomy i xs.length with inside | rfl | outside
  · rw [List.getElem?_append_left inside]
    simp [Nat.ne_of_lt inside]
  · simp [eq_comm]
  · have beyond : (xs ++ [x]).length ≤ i := by simpa using Nat.succ_le_of_lt outside
    rw [List.getElem?_eq_none beyond, List.getElem?_eq_none (Nat.le_of_lt outside)]
    simp [Nat.ne_of_gt outside]

namespace Formula

/-- The names and binary formulas that a formula is made of. The parts of its operands come before
the formula itself. -/
def parts : Formula → List Formula
  | f@(var _) => [f]
  | not f => f.parts
  | f@(and l r) | f@(or l r) | f@(implies l r) => l.parts ++ r.parts ++ [f]

theorem parts_of_operands {f l r : Formula} (operands : f.operands = [l, r]) :
    f.parts = l.parts ++ r.parts ++ [f] := by
  cases f <;> simp_all [Formula.operands, parts]

theorem eq_or_mem_parts_operand {f g : Formula} (member : g ∈ f.parts) :
    g = f ∨ ∃ h ∈ f.operands, g ∈ h.parts := by
  cases f with
  | var name => exact .inl (List.mem_singleton.mp member)
  | not f => exact .inr ⟨f, List.mem_singleton_self f, member⟩
  | and l r | or l r | implies l r =>
    rw [parts, List.mem_append, List.mem_append, List.mem_singleton] at member
    rcases member with (inside | inside) | same
    · exact .inr ⟨l, by simp [operands], inside⟩
    · exact .inr ⟨r, by simp [operands], inside⟩
    · exact .inl same

theorem sizeOf_lt_of_mem_operands {f g : Formula} (operand : g ∈ f.operands) :
    sizeOf g < sizeOf f := by
  cases f with
  | var name => simp [operands] at operand
  | not f =>
    obtain rfl := List.mem_singleton.mp operand
    rw [not.sizeOf_spec]
    omega
  | and l r | or l r | implies l r =>
    simp only [and.sizeOf_spec, or.sizeOf_spec, implies.sizeOf_spec]
    rcases List.mem_pair.mp operand with rfl | rfl <;> omega

theorem sizeOf_le_of_mem_parts {f g : Formula} (member : g ∈ f.parts) : sizeOf g ≤ sizeOf f := by
  induction f using operands_induction with
  | step f ih =>
    rcases eq_or_mem_parts_operand member with rfl | ⟨h, operand, inside⟩
    · exact Nat.le_refl _
    · exact Nat.le_trans (ih h operand inside) (Nat.le_of_lt (sizeOf_lt_of_mem_operands operand))

/-- A formula is no part of its operands. -/
theorem not_mem_parts_operand {f g : Formula} (operand : g ∈ f.operands) : f ∉ g.parts := by
  intro member
  exact Nat.not_le_of_lt (sizeOf_lt_of_mem_operands operand) (sizeOf_le_of_mem_parts member)

theorem var_mem_parts {f : Formula} {x : Text} : var x ∈ f.parts ↔ x ∈ f.leaves := by
  induction f with
  | var name => simp [parts, leaves]
  | not f ih => exact ih
  | and l r left right | or l r left right | implies l r left right =>
    simp [parts, leaves, left, right]

end Formula

namespace Clause

def Reduced (c : Clause) : Prop :=
  c.Nodup ∧ ∀ l ∈ c, l.negate ∉ c

theorem reduced_of_reduce? {c d : Clause} (result : reduce? c = some d) : Reduced d := by
  unfold reduce? at result
  split at result
  · contradiction
  · next consistent =>
    obtain rfl := Option.some.inj result
    refine ⟨nodup_eraseDups c, fun l member opposite => consistent ?_⟩
    rw [List.mem_eraseDups] at member opposite
    exact List.any_eq_true.mpr ⟨l, member, List.contains_iff_mem.mpr opposite⟩

end Clause

namespace Encoding

/-- The variable of a name or of a binary formula. A negation has none of its own. -/
def number? (e : Encoding) : Formula → Option Nat
  | .var x => e.names.lookup x
  | .not _ => none
  | f => e.definitions.lookup f.canonical

theorem number?_of_operands {f l r : Formula} (operands : f.operands = [l, r]) (e : Encoding) :
    e.number? f = e.definitions.lookup f.canonical := by
  cases f <;> simp_all [Formula.operands, number?]

/-- What has a variable is not encoded again. -/
theorem literal_of_number? {e : Encoding} {f : Formula} {v : Nat} (known : e.number? f = some v) :
    e.literal f = (⟨v, true⟩, e) := by
  cases f with
  | var x =>
    have known : e.names.lookup x = some v := known
    rw [literal, name, known]
  | not f => simp [number?] at known
  | and l r | or l r | implies l r =>
    have known : e.definitions.lookup (Formula.canonical _) = some v := known
    rw [literal]
    simp only [known]

/-- The ways to encode a formula: it has a variable, it is a new name, it is a negation, or it is a
new binary formula, whose operands are encoded before it is defined. -/
theorem literal_induction {motive : Encoding → Formula → Literal × Encoding → Prop}
    (known : ∀ {e f v}, e.number? f = some v → motive e f (⟨v, true⟩, e))
    (newName : ∀ {e x}, e.number? (.var x) = none →
      motive e (.var x) (⟨e.count + 1, true⟩,
        { e with names := (x, e.count + 1) :: e.names, count := e.count + 1 }))
    (negation : ∀ {e f}, motive e f (e.literal f) →
      motive e (.not f) ((e.literal f).1.negate, (e.literal f).2))
    (newDefinition : ∀ {e f l r} (clauses : Literal → List Clause), f.operands = [l, r] →
      e.number? f = none → motive e l (e.literal l) →
      motive (e.literal l).2 r ((e.literal l).2.literal r) →
      motive e f (((e.literal l).2.literal r).2.define f.canonical clauses))
    (e : Encoding) (f : Formula) : motive e f (e.literal f) := by
  induction f generalizing e with
  | var x =>
    cases number : e.number? (.var x) with
    | some v =>
      rw [literal_of_number? number]
      exact known number
    | none =>
      have new : e.names.lookup x = none := number
      rw [literal, name, new]
      exact newName number
  | not f ih => exact negation (ih e)
  | and l r left right | or l r left right | implies l r left right =>
    cases number : e.number? _ with
    | some v =>
      rw [literal_of_number? number]
      exact known number
    | none =>
      have new : e.definitions.lookup (Formula.canonical _) = none := number
      rw [literal]
      simp only [new]
      exact newDefinition _ rfl number (left e) (right _)

theorem reduced_literal {e : Encoding} (reduced : ∀ c ∈ e.clauses, c.Reduced) (f : Formula) :
    ∀ c ∈ (e.literal f).2.clauses, c.Reduced := by
  induction e, f using literal_induction with
  | known => exact reduced
  | newName => exact reduced
  | negation ih => exact ih reduced
  | newDefinition clauses _ _ left right =>
    refine List.forall_mem_append.mpr ⟨fun c member => ?_, right (left reduced)⟩
    obtain ⟨_, _, result⟩ := List.mem_filterMap.mp member
    exact Clause.reduced_of_reduce? result

theorem reduced_literals {e : Encoding} (reduced : ∀ c ∈ e.clauses, c.Reduced)
    (fs : List Formula) : ∀ c ∈ (e.literals fs).2.clauses, c.Reduced := by
  induction fs generalizing e with
  | nil => exact reduced
  | cons f fs ih => exact ih (reduced_literal reduced f)

/-- The variables stand for the formulas that were visited, numbered from 1 in the order of their
first visits. Nothing is said of formulas whose names cannot be written, as such a formula may have
the canonical text of another one. -/
structure Numbers (e : Encoding) (visited : List Formula) : Prop where
  named : ∀ f ∈ visited, f.Named
  closed : ∀ f ∈ visited, f.parts ⊆ visited
  count : visited.eraseDups.length = e.count
  number : ∀ f v, f.Named →
    (e.number? f = some v ↔ ∃ i, v = i + 1 ∧ visited.eraseDups[i]? = some f)

theorem numbers_empty : Numbers {} [] where
  named := by simp
  closed := by simp
  count := rfl
  number f v named := by cases f <;> simp [number?]

namespace Numbers

variable {e : Encoding} {visited : List Formula}

theorem mem_of_number? {f : Formula} {v : Nat} (numbers : Numbers e visited) (named : f.Named)
    (number : e.number? f = some v) : f ∈ visited := by
  obtain ⟨i, _, place⟩ := (numbers.number f v named).mp number
  exact mem_of_getElem?_eraseDups place

theorem exists_number? {f : Formula} (numbers : Numbers e visited) (member : f ∈ visited) :
    ∃ i, e.number? f = some (i + 1) ∧ visited.eraseDups[i]? = some f := by
  obtain ⟨i, place⟩ := List.mem_iff_getElem?.mp (List.mem_eraseDups.mpr member)
  exact ⟨i, (numbers.number f _ (numbers.named f member)).mpr ⟨i, rfl, place⟩, place⟩

theorem not_mem_of_number? {f : Formula} (numbers : Numbers e visited) (new : e.number? f = none) :
    f ∉ visited := by
  intro member
  obtain ⟨i, number, _⟩ := numbers.exists_number? member
  simp [new] at number

/-- Later visits leave the variables as they are. -/
theorem later {e' : Encoding} {rest : List Formula} {f : Formula} {v : Nat}
    (numbers : Numbers e visited) (numbers' : Numbers e' (visited ++ rest)) (named : f.Named)
    (number : e.number? f = some v) : e'.number? f = some v := by
  obtain ⟨i, rfl, place⟩ := (numbers.number f v named).mp number
  refine (numbers'.number f _ named).mpr ⟨i, rfl, ?_⟩
  obtain ⟨bound, _⟩ := List.getElem?_eq_some_iff.mp place
  rw [List.eraseDups_append, List.getElem?_append_left bound, place]

/-- Another visit to formulas with variables changes nothing. -/
theorem revisit {fs : List Formula} (numbers : Numbers e visited) (inside : fs ⊆ visited) :
    Numbers e (visited ++ fs) where
  named := by
    refine List.forall_mem_append.mpr ⟨numbers.named, fun f member => ?_⟩
    exact numbers.named f (inside member)
  closed f member := by
    have member : f ∈ visited := (List.mem_append.mp member).elim id (inside ·)
    exact List.subset_append_of_subset_left _ (numbers.closed f member)
  count := by rw [eraseDups_append_of_subset inside, numbers.count]
  number f v named := by rw [eraseDups_append_of_subset inside, numbers.number f v named]

/-- A new formula gets the next variable. -/
theorem visit {e' : Encoding} {f : Formula} (numbers : Numbers e visited) (named : f.Named)
    (new : f ∉ visited) (closed : f.parts ⊆ visited ++ [f]) (count : e'.count = e.count + 1)
    (number : ∀ g, g.Named → e'.number? g = if g = f then some (e.count + 1) else e.number? g) :
    Numbers e' (visited ++ [f]) where
  named := List.forall_mem_append.mpr ⟨numbers.named, by simpa using named⟩
  closed := by
    refine List.forall_mem_append.mpr ⟨fun g member => ?_, by simpa using closed⟩
    exact List.subset_append_of_subset_left _ (numbers.closed g member)
  count := by rw [eraseDups_concat new, List.length_append, numbers.count, count]; rfl
  number g v namedOther := by
    rw [eraseDups_concat new, number g namedOther]
    simp only [getElem?_concat_eq_some_iff, numbers.count]
    split
    next same =>
      have absent (i : Nat) : visited.eraseDups[i]? ≠ some f := fun place =>
        new (mem_of_getElem?_eraseDups place)
      simp [same, absent, eq_comm]
    next apart => simp [apart, numbers.number g v namedOther]

theorem newName {x : Text} (numbers : Numbers e visited) (named : (Formula.var x).Named)
    (new : e.number? (.var x) = none) :
    Numbers { e with names := (x, e.count + 1) :: e.names, count := e.count + 1 }
      (visited ++ [.var x]) := by
  refine numbers.visit named (numbers.not_mem_of_number? new) (List.subset_append_right _ _) rfl ?_
  intro g _
  cases g with
  | var y => simp [number?, Text.lookup_cons]
  | _ => simp [number?]

/-- Canonical texts tell the formula from all others, so no other variable is changed. -/
theorem newDefinition {f l r : Formula} (numbers : Numbers e (visited ++ l.parts ++ r.parts))
    (named : f.Named) (operands : f.operands = [l, r]) (new : f ∉ visited)
    (clauses : Literal → List Clause) :
    Numbers (e.define f.canonical clauses).2 (visited ++ f.parts) := by
  have parts : f.parts = l.parts ++ r.parts ++ [f] := Formula.parts_of_operands operands
  rw [parts, ← List.append_assoc, ← List.append_assoc]
  refine numbers.visit named ?_ ?_ rfl fun g namedOther => ?_
  · have left : f ∉ l.parts := Formula.not_mem_parts_operand (by simp [operands])
    have right : f ∉ r.parts := Formula.not_mem_parts_operand (by simp [operands])
    simp [new, left, right]
  · rw [parts, List.append_assoc visited, List.append_assoc visited]
    exact List.subset_append_right _ _
  · have text : g.canonical = f.canonical ↔ g = f :=
      ⟨namedOther.canonical_injective named, congrArg _⟩
    cases g with
    | var _ | not _ =>
      rw [if_neg]
      · rfl
      · rintro rfl
        simp [Formula.operands] at operands
    | and _ _ | or _ _ | implies _ _ => simp [number?, define, Text.lookup_cons, text]

/-- Encoding a formula visits its parts. -/
theorem literal {f : Formula} (numbers : Numbers e visited) (named : f.Named) :
    Numbers (e.literal f).2 (visited ++ f.parts) := by
  induction e, f using literal_induction generalizing visited with
  | known number =>
    exact numbers.revisit (numbers.closed _ (numbers.mem_of_number? named number))
  | newName new => exact numbers.newName named new
  | negation ih => exact ih numbers (Formula.named_not.mp named)
  | newDefinition clauses operands new left right =>
    have absent := numbers.not_mem_of_number? new
    have numbers := left numbers (named.operand (by simp [operands]))
    have numbers := right numbers (named.operand (by simp [operands]))
    exact numbers.newDefinition named operands absent clauses

end Numbers

/-- Once a formula is encoded, its literal stays the same, and nothing is added for it again. -/
theorem literal_of_later {e later : Encoding} {f : Formula} (named : f.Named)
    (kept : ∀ g v, g.Named → (e.literal f).2.number? g = some v → later.number? g = some v) :
    later.literal f = ((e.literal f).1, later) := by
  induction e, f using literal_induction with
  | known number => exact literal_of_number? (kept _ _ named number)
  | newName => exact literal_of_number? (kept _ _ named (by simp [number?]))
  | negation ih => rw [literal, ih (Formula.named_not.mp named) kept]
  | newDefinition clauses operands =>
    refine literal_of_number? (kept _ _ named ?_)
    rw [number?_of_operands operands]
    simp [define]

theorem Numbers.literals {e : Encoding} {visited fs : List Formula} (numbers : Numbers e visited)
    (named : ∀ f ∈ fs, f.Named) :
    Numbers (e.literals fs).2 (visited ++ fs.flatMap Formula.parts) ∧
      List.Forall₂ (fun l f => (e.literals fs).2.literal f = (l, (e.literals fs).2))
        (e.literals fs).1 fs := by
  induction fs generalizing e visited with
  | nil => exact ⟨by simpa [Encoding.literals] using numbers, .nil⟩
  | cons f fs ih =>
    obtain ⟨first, others⟩ := List.forall_mem_cons.mp named
    have encoded := numbers.literal first
    obtain ⟨all, again⟩ := ih encoded others
    refine ⟨?_, .cons (literal_of_later first fun g v named number => ?_) again⟩
    · rw [List.flatMap_cons, ← List.append_assoc]
      exact all
    · exact encoded.later all named number

/-- A variable stands for its formula. -/
theorem Valid.represents_of_number? {e : Encoding} {f : Formula} {v : Nat} (valid : Valid e)
    (named : f.Named) (number : e.number? f = some v) : e.Represents ⟨v, true⟩ f := by
  have encodes := encodes_literal valid named
  rw [literal_of_number? number] at encodes
  exact encodes.represents

namespace Numbers

variable {e : Encoding} {visited : List Formula}

theorem represents {f : Formula} {i : Nat} (numbers : Numbers e visited) (valid : Valid e)
    (place : visited.eraseDups[i]? = some f) : e.Represents ⟨i + 1, true⟩ f := by
  have named := numbers.named f (mem_of_getElem?_eraseDups place)
  exact valid.represents_of_number? named ((numbers.number f _ named).mpr ⟨i, rfl, place⟩)

/-- The clauses hold exactly when each variable has the value of its formula. -/
theorem satisfied_iff (numbers : Numbers e visited) (valid : Valid e) (a : Nat → Bool) :
    Clause.Satisfied a e.clauses ↔
      ∀ i f, visited.eraseDups[i]? = some f → a (i + 1) = f.eval (e.read a) := by
  constructor
  · intro satisfied i f place
    rw [← (numbers.represents valid place).holds a satisfied]
    simp [Literal.holds]
  · intro values c member
    obtain ⟨b, realizes⟩ := valid.realizable (e.read a)
    rw [← realizes.satisfied c member]
    refine Clause.holds_congr fun l inClause => ?_
    obtain ⟨positive, bound⟩ := valid.clauses c member l inClause
    obtain ⟨i, var⟩ := Nat.exists_eq_add_one_of_ne_zero (Nat.ne_of_gt positive)
    have inside : i < visited.eraseDups.length := by
      rw [numbers.count]
      omega
    have place := List.getElem?_eq_getElem inside
    rw [var, values i _ place, ← (numbers.represents valid place).holds_of_realizes realizes]
    simp [Literal.holds]

theorem eval_congr {f : Formula} {u v : Text → Bool} (numbers : Numbers e visited)
    (agree : ∀ x, .var x ∈ visited → u x = v x) (member : f ∈ visited) : f.eval u = f.eval v :=
  Formula.eval_congr fun x leaf =>
    agree x (numbers.closed f member (Formula.var_mem_parts.mpr leaf))

/-- The values of the names settle those of all variables. -/
theorem existsUnique_values (numbers : Numbers e visited) (valid : Valid e) (u : Text → Bool) :
    ∃! values : List Bool, values.length = e.count ∧
      Clause.Satisfied (Solver.value values) e.clauses ∧
      ∀ x, .var x ∈ visited → e.read (Solver.value values) x = u x := by
  have value {i : Nat} {f : Formula} (place : visited.eraseDups[i]? = some f) :
      Solver.value (visited.eraseDups.map (·.eval u)) (i + 1) = f.eval u := by
    simp [Solver.value, List.getD_eq_getElem?_getD, place]
  have read (x : Text) (name : .var x ∈ visited) :
      e.read (Solver.value (visited.eraseDups.map (·.eval u))) x = u x := by
    obtain ⟨i, number, place⟩ := numbers.exists_number? name
    rw [read_eq number, value place, Formula.eval]
  refine ⟨visited.eraseDups.map (·.eval u), ⟨by simp [numbers.count], ?_, read⟩, ?_⟩
  · refine (numbers.satisfied_iff valid _).mpr fun i f place => ?_
    rw [value place, numbers.eval_congr read (mem_of_getElem?_eraseDups place)]
  · rintro values ⟨length, satisfied, agree⟩
    have inOrder : values.length = visited.eraseDups.length := length.trans numbers.count.symm
    refine List.ext_getElem (by simpa using inOrder) fun i inside inside' => ?_
    have place := List.getElem?_eq_getElem (inOrder ▸ inside)
    have settled := (numbers.satisfied_iff valid _).mp satisfied i _ place
    rw [numbers.eval_congr agree (mem_of_getElem?_eraseDups place)] at settled
    simpa [Solver.value, List.getD_eq_getElem?_getD, inside] using settled

end Numbers

/-- Encoding formulas extends their names by definitions. The clauses are about variables that were
given out, and none of them repeats a literal or holds its opposite. Each name and each binary
formula has a positive variable of its own, which encoding it again returns without adding
anything. The values of the names leave one choice for the values of all variables under which the
clauses hold, and the literals then have the values of their formulas. So the clauses can always be
satisfied, and a search without literals needs no solver. -/
theorem literals_extend_definitionally {fs : List Formula} {ls : List Literal} {e : Encoding}
    (named : ∀ f ∈ fs, f.Named) (encoded : ({} : Encoding).literals fs = (ls, e)) :
    (∀ c ∈ e.clauses, (∀ l ∈ c, 0 < l.var ∧ l.var ≤ e.count) ∧ c.Nodup ∧ ∀ l ∈ c, l.negate ∉ c) ∧
    (∀ g ∈ fs.flatMap Formula.parts, ∃ v, e.number? g = some v ∧ 0 < v ∧ v ≤ e.count ∧
      e.literal g = (⟨v, true⟩, e)) ∧
    (∀ g ∈ fs.flatMap Formula.parts, ∀ h ∈ fs.flatMap Formula.parts,
      (e.literal g).1.var = (e.literal h).1.var → g = h) ∧
    List.Forall₂ (fun l f => e.literal f = (l, e)) ls fs ∧
    (∀ u : Text → Bool, ∃! values : List Bool, values.length = e.count ∧
      Clause.Satisfied (Solver.value values) e.clauses ∧
      ∀ x ∈ Formula.vars fs, e.read (Solver.value values) x = u x) ∧
    (∀ a, Clause.Satisfied a e.clauses →
      List.Forall₂ (fun l f => l.holds a = f.eval (e.read a)) ls fs) ∧
    (∃ a, Clause.Satisfied a e.clauses) ∧
    ∀ solver : Solver, solver.Correct →
      (solver e.clauses).isSome = true ∧
      ∃ u, e.solve solver [] = some u ∧ ∃ a, Clause.Satisfied a e.clauses ∧ e.read a = u := by
  obtain ⟨valid, _, represents⟩ := encodes_literals valid_empty named
  obtain ⟨numbers, again⟩ := numbers_empty.literals named
  have reduced := reduced_literals (e := {}) (by simp) fs
  rw [encoded] at valid represents numbers again reduced
  rw [List.nil_append] at numbers
  obtain ⟨a, realizes⟩ := valid.realizable fun _ => false
  refine ⟨?clauses, ?positive, ?distinct, again, ?values, ?literals, ⟨a, realizes.satisfied⟩, ?solve⟩
  case clauses => exact fun c member => ⟨valid.clauses c member, reduced c member⟩
  case positive =>
    intro g member
    obtain ⟨i, number, place⟩ := numbers.exists_number? member
    have bound := (numbers.represents valid place).bound
    exact ⟨i + 1, number, Nat.succ_pos i, bound, literal_of_number? number⟩
  case distinct =>
    intro g first h second same
    obtain ⟨i, number, place⟩ := numbers.exists_number? first
    obtain ⟨j, number', place'⟩ := numbers.exists_number? second
    rw [literal_of_number? number, literal_of_number? number'] at same
    obtain rfl : i = j := Nat.succ.inj same
    exact Option.some.inj (place.symm.trans place')
  case values =>
    intro u
    have names (x : Text) : .var x ∈ fs.flatMap Formula.parts ↔ x ∈ Formula.vars fs := by
      simp [Formula.mem_vars, Formula.var_mem_parts]
    simpa only [names] using numbers.existsUnique_values valid u
  case literals => exact fun a satisfied => represents.imp fun l f known => known.holds a satisfied
  case solve =>
    intro solver correct
    refine ⟨?_, _, rfl, a, realizes.satisfied, ?_⟩
    · exact (correct.answers _ (valid.numbered_units .nil)).mpr ⟨a, realizes.satisfied⟩
    · funext x
      cases known : e.names.lookup x with
      | some v => rw [read_eq known, realizes.names x v known]
      | none => rw [read, known]

/-- Two of the twelve clauses for `(P & P) | (P -> P)` and `P | ~P` are always true and left out.
The others still leave one choice if `P` is false. -/
theorem literals_extend_definitionally_with_sharing :
    let fs : List Formula := [.or (.and (.var "P") (.var "P")) (.implies (.var "P") (.var "P")),
      .or (.var "P") (.not (.var "P"))]
    (∀ f ∈ fs, f.Named) ∧
    ∃ ls e, ({} : Encoding).literals fs = (ls, e) ∧
      ls = [⟨4, true⟩, ⟨5, true⟩] ∧ e.clauses.length = 10 ∧
      (Solver.search e.clauses).isSome = true ∧
      ∃! values : List Bool, values.length = e.count ∧
        Clause.Satisfied (Solver.value values) e.clauses ∧
        ∀ x ∈ Formula.vars fs, e.read (Solver.value values) x = false := by
  intro fs
  have named : ∀ f ∈ fs, f.Named := by decide +kernel
  obtain ⟨_, _, _, _, values, _, _, solve⟩ := literals_extend_definitionally named rfl
  exact ⟨named, _, _, rfl, by decide +kernel, by decide +kernel,
    (solve _ Solver.search_correct).1, values fun _ => false⟩

end Encoding

end Turnstile
