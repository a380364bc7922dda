import Mathlib.Data.List.Forall2
import Mathlib.Logic.Function.Basic
import Turnstile.Encoding
import Turnstile.Proofs.Entailment
import Turnstile.Proofs.RoundTrip
import Turnstile.Proofs.Solver

/-! The literal of a formula has the value of the formula under every assignment that satisfies
the clauses, and every assignment of the names extends to one that satisfies them. Both are kept
while formulas are encoded one after the other. Names have to be such as can be written, since
definitions are shared by text. -/
namespace Turnstile

namespace Clause

theorem holds_congr {c : Clause} {a b : Nat → Bool} (agree : ∀ l ∈ c, a l.var = b l.var) :
    c.holds a = c.holds b := by
  rw [Bool.eq_iff_iff, holds_iff, holds_iff]
  refine exists_congr fun l => and_congr_right fun member => ?_
  rw [Literal.holds, Literal.holds, agree l member]

theorem satisfied_append {a : Nat → Bool} :
    Satisfied a (cs ++ ds) ↔ Satisfied a cs ∧ Satisfied a ds :=
  List.forall_mem_append

theorem mem_of_reduce? {c d : Clause} (reduced : reduce? c = some d) (l : Literal) :
    l ∈ d ↔ l ∈ c := by
  unfold reduce? at reduced
  split at reduced
  · contradiction
  · obtain rfl := Option.some.inj reduced
    exact List.mem_eraseDups

theorem holds_of_reduce?_eq_none {c : Clause} (dropped : reduce? c = none) (a : Nat → Bool) :
    c.holds a = true := by
  unfold reduce? at dropped
  split at dropped
  · next opposite =>
    obtain ⟨l, member, other⟩ := List.any_eq_true.mp opposite
    cases value : l.holds a with
    | true => exact holds_iff.mpr ⟨l, member, value⟩
    | false => exact holds_iff.mpr ⟨l.negate, List.contains_iff_mem.mp other, by simp [value]⟩
  · contradiction

theorem satisfied_filterMap_reduce? {a : Nat → Bool} {cs : List Clause} :
    Satisfied a (cs.filterMap reduce?) ↔ Satisfied a cs := by
  have same {c d : Clause} (reduced : reduce? c = some d) : d.holds a = true ↔ c.holds a = true := by
    simp only [holds_iff, mem_of_reduce? reduced]
  constructor
  · intro satisfied c member
    cases reduced : reduce? c with
    | none => exact holds_of_reduce?_eq_none reduced a
    | some d =>
      exact (same reduced).mp (satisfied d (List.mem_filterMap.mpr ⟨c, member, reduced⟩))
  · intro satisfied d member
    obtain ⟨c, inOld, reduced⟩ := List.mem_filterMap.mp member
    exact (same reduced).mpr (satisfied c inOld)

end Clause

namespace Encoding

structure Extends (e later : Encoding) : Prop where
  names : ∀ x v, e.names.lookup x = some v → later.names.lookup x = some v
  clauses : e.clauses ⊆ later.clauses
  count : e.count ≤ later.count

theorem Extends.refl (e : Encoding) : e.Extends e :=
  ⟨fun _ _ given => given, fun _ member => member, Nat.le_refl _⟩

theorem Extends.trans (first : Extends e e') (second : Extends e' e'') : Extends e e'' where
  names x v given := second.names x v (first.names x v given)
  clauses _ member := second.clauses (first.clauses member)
  count := Nat.le_trans first.count second.count

/-- The literal has the value of the formula under every assignment that satisfies the
clauses. -/
structure Represents (e : Encoding) (l : Literal) (f : Formula) : Prop where
  positive : 0 < l.var
  bound : l.var ≤ e.count
  leaves : ∀ x ∈ f.leaves, ∃ v, e.names.lookup x = some v
  holds : ∀ a, Clause.Satisfied a e.clauses → l.holds a = f.eval (e.read a)

theorem read_eq {e : Encoding} {v : Nat} (given : e.names.lookup x = some v) (a : Nat → Bool) :
    e.read a x = a v := by
  rw [read, given]

theorem Represents.mono (later : Extends e e') (represents : Represents e l f) :
    Represents e' l f where
  positive := represents.positive
  bound := Nat.le_trans represents.bound later.count
  leaves x member := by
    obtain ⟨v, given⟩ := represents.leaves x member
    exact ⟨v, later.names x v given⟩
  holds a satisfied := by
    rw [represents.holds a fun c member => satisfied c (later.clauses member)]
    refine Formula.eval_congr fun x member => ?_
    obtain ⟨v, given⟩ := represents.leaves x member
    rw [read_eq given, read_eq (later.names x v given)]

theorem Represents.negate (represents : Represents e l f) : Represents e l.negate (.not f) where
  positive := represents.positive
  bound := represents.bound
  leaves := represents.leaves
  holds a satisfied := by
    rw [Literal.holds_negate, represents.holds a satisfied, Formula.eval]

structure Realizes (e : Encoding) (u : Text → Bool) (a : Nat → Bool) : Prop where
  satisfied : Clause.Satisfied a e.clauses
  names : ∀ x v, e.names.lookup x = some v → a v = u x

theorem Represents.holds_of_realizes {u : Text → Bool} (represents : Represents e l f)
    (realizes : Realizes e u a) : l.holds a = f.eval u := by
  rw [represents.holds a realizes.satisfied]
  refine Formula.eval_congr fun x member => ?_
  obtain ⟨v, given⟩ := represents.leaves x member
  rw [read_eq given, realizes.names x v given]

/-- What holds of an encoding of formulas whose names can be written. -/
structure Valid (e : Encoding) : Prop where
  names : ∀ x v, e.names.lookup x = some v → 0 < v ∧ v ≤ e.count
  clauses : ∀ c ∈ e.clauses, ∀ l ∈ c, 0 < l.var ∧ l.var ≤ e.count
  definitions : ∀ key v, e.definitions.lookup key = some v →
    ∃ f : Formula, f.Named ∧ f.canonical = key ∧ e.Represents ⟨v, true⟩ f
  realizable : ∀ u, ∃ a, e.Realizes u a

theorem Valid.definition_later {v : Nat} (valid : Valid e) (later : Extends e e')
    (found : e.definitions.lookup key = some v) :
    ∃ f : Formula, f.Named ∧ f.canonical = key ∧ e'.Represents ⟨v, true⟩ f := by
  obtain ⟨f, named, text, represents⟩ := valid.definitions key v found
  exact ⟨f, named, text, represents.mono later⟩

theorem valid_empty : Valid {} where
  names := by simp
  clauses := by simp
  definitions := by simp
  realizable u := ⟨fun _ => false, by simp [Clause.Satisfied], by simp⟩

/-- The variable that is given out next is free. -/
theorem Realizes.update {u : Text → Bool} (valid : Valid e) (realizes : Realizes e u a)
    (value : Bool) : Realizes e u (Function.update a (e.count + 1) value) where
  satisfied c member := by
    rw [← realizes.satisfied c member]
    refine Clause.holds_congr fun l inClause => ?_
    have bound := (valid.clauses c member l inClause).2
    rw [Function.update_of_ne (by omega)]
  names x v given := by
    have bound := (valid.names x v given).2
    rw [Function.update_of_ne (by omega), realizes.names x v given]

structure Encodes (e : Encoding) (f : Formula) (result : Literal × Encoding) : Prop where
  valid : result.2.Valid
  later : e.Extends result.2
  represents : result.2.Represents result.1 f

theorem lookup_cons_eq_some_iff {x y : Text} {v w : Nat} {entries : List (Text × Nat)} :
    ((x, v) :: entries).lookup y = some w ↔
      y = x ∧ v = w ∨ y ≠ x ∧ entries.lookup y = some w := by
  rw [Text.lookup_cons]
  by_cases same : y = x <;> simp [same]

theorem encodes_known_name {v : Nat} (valid : Valid e) (known : e.names.lookup x = some v) :
    Encodes e (.var x) (⟨v, true⟩, e) := by
  obtain ⟨positive, bound⟩ := valid.names x v known
  refine ⟨valid, .refl e, positive, bound, by simpa [Formula.leaves] using ⟨v, known⟩, ?_⟩
  intro a _
  simp [Literal.holds, Formula.eval, read_eq known]

theorem encodes_new_name {x : Text} (valid : Valid e) (new : e.names.lookup x = none) :
    Encodes e (.var x) (⟨e.count + 1, true⟩,
      { e with names := (x, e.count + 1) :: e.names, count := e.count + 1 }) := by
  have later : e.Extends { e with
      names := (x, e.count + 1) :: e.names, count := e.count + 1 } := by
    refine ⟨fun y v old => lookup_cons_eq_some_iff.mpr (.inr ⟨?_, old⟩), fun _ member => member,
      Nat.le_succ _⟩
    rintro rfl
    simp [new] at old
  refine ⟨⟨?names, ?clauses, ?definitions, ?realizable⟩, later, ?represents⟩
  case names =>
    intro y v found
    rcases lookup_cons_eq_some_iff.mp found with ⟨_, rfl⟩ | ⟨_, old⟩
    · exact ⟨Nat.succ_pos _, Nat.le_refl _⟩
    · obtain ⟨positive, bound⟩ := valid.names y v old
      exact ⟨positive, Nat.le_succ_of_le bound⟩
  case clauses =>
    intro c member l inClause
    obtain ⟨positive, bound⟩ := valid.clauses c member l inClause
    exact ⟨positive, Nat.le_succ_of_le bound⟩
  case definitions => exact fun key v found => valid.definition_later later found
  case realizable =>
    intro u
    obtain ⟨a, realizes⟩ := valid.realizable u
    have updated := realizes.update valid (u x)
    refine ⟨_, updated.satisfied, fun y v found => ?_⟩
    rcases lookup_cons_eq_some_iff.mp found with ⟨rfl, rfl⟩ | ⟨_, old⟩
    · exact Function.update_self ..
    · exact updated.names y v old
  case represents =>
    refine ⟨Nat.succ_pos _, Nat.le_refl _, by simp [Formula.leaves], fun a _ => ?_⟩
    simp [Literal.holds, Formula.eval, read]

theorem encodes_name (valid : Valid e) (x : Text) : Encodes e (.var x) (e.name x) := by
  unfold name
  cases found : e.names.lookup x with
  | some v => exact encodes_known_name valid found
  | none => exact encodes_new_name valid found

/-- The clauses hold exactly when the value of `d` is that of a connective at `a` and `b`. -/
structure Defines (clauses : Literal → Literal → Literal → List Clause)
    (connective : Bool → Bool → Bool) : Prop where
  vars : ∀ d a b, ∀ c ∈ clauses d a b, ∀ l ∈ c, l.var = d.var ∨ l.var = a.var ∨ l.var = b.var
  satisfied : ∀ d a b v, Clause.Satisfied v (clauses d a b) ↔
    d.holds v = connective (a.holds v) (b.holds v)

theorem andClauses_defines : Defines andClauses (· && ·) where
  vars d a b := by simp [andClauses]
  satisfied d a b v := by
    simp only [andClauses, Clause.Satisfied, Clause.holds, List.forall_mem_cons, List.any_cons,
      Literal.holds_negate]
    cases d.holds v <;> cases a.holds v <;> cases b.holds v <;> simp

theorem orClauses_defines : Defines orClauses (· || ·) where
  vars d a b := by simp [orClauses]
  satisfied d a b v := by
    simp only [orClauses, Clause.Satisfied, Clause.holds, List.forall_mem_cons, List.any_cons,
      Literal.holds_negate]
    cases d.holds v <;> cases a.holds v <;> cases b.holds v <;> simp

theorem impliesClauses_defines : Defines impliesClauses (!· || ·) where
  vars d a b := by simp [impliesClauses]
  satisfied d a b v := by
    simp only [impliesClauses, Clause.Satisfied, Clause.holds, List.forall_mem_cons, List.any_cons,
      Literal.holds_negate]
    cases d.holds v <;> cases a.holds v <;> cases b.holds v <;> simp

structure Composes (f l r : Formula) (connective : Bool → Bool → Bool) : Prop where
  leaves : f.leaves = l.leaves ++ r.leaves
  eval : ∀ v, f.eval v = connective (l.eval v) (r.eval v)

theorem extends_define (e : Encoding) (key : Text) (clauses : Literal → List Clause) :
    e.Extends (e.define key clauses).2 :=
  ⟨fun _ _ given => given, List.subset_append_right _ _, Nat.le_succ _⟩

section Define

variable {e : Encoding} {shape : Literal → Literal → Literal → List Clause} {a b : Literal}

theorem satisfied_define (defines : Defines shape connective) (key : Text) (v : Nat → Bool) :
    Clause.Satisfied v (e.define key (shape · a b)).2.clauses ↔
      v (e.count + 1) = connective (a.holds v) (b.holds v) ∧ Clause.Satisfied v e.clauses := by
  have fresh : (⟨e.count + 1, true⟩ : Literal).holds v = v (e.count + 1) := by simp [Literal.holds]
  rw [← fresh, ← defines.satisfied]
  exact Clause.satisfied_append.trans (and_congr_left' Clause.satisfied_filterMap_reduce?)

theorem represents_define (composes : Composes f l r connective)
    (defines : Defines shape connective) (left : Represents e a l) (right : Represents e b r)
    (key : Text) :
    Represents (e.define key (shape · a b)).2 ⟨e.count + 1, true⟩ f := by
  have left := left.mono (extends_define e key (shape · a b))
  have right := right.mono (extends_define e key (shape · a b))
  refine ⟨Nat.succ_pos _, Nat.le_refl _, ?_, fun v satisfied => ?_⟩
  · rw [composes.leaves]
    exact List.forall_mem_append.mpr ⟨left.leaves, right.leaves⟩
  · rw [composes.eval, ← left.holds v satisfied, ← right.holds v satisfied,
      ← ((satisfied_define defines key v).mp satisfied).1]
    simp [Literal.holds]

theorem valid_define {f : Formula} (valid : Valid e) (named : f.Named)
    (composes : Composes f l r connective) (defines : Defines shape connective)
    (left : Represents e a l) (right : Represents e b r) :
    Valid (e.define f.canonical (shape · a b)).2 where
  names x v given := by
    obtain ⟨positive, bound⟩ := valid.names x v given
    exact ⟨positive, Nat.le_succ_of_le bound⟩
  clauses := by
    refine List.forall_mem_append.mpr ⟨fun c member m inClause => ?_, fun c member m inClause => ?_⟩
    · obtain ⟨original, inShape, reduced⟩ := List.mem_filterMap.mp member
      have inShape := defines.vars _ a b original inShape m
        ((Clause.mem_of_reduce? reduced m).mp inClause)
      rcases inShape with same | same | same <;> rw [same]
      · exact ⟨Nat.succ_pos _, Nat.le_refl _⟩
      · exact ⟨left.positive, Nat.le_succ_of_le left.bound⟩
      · exact ⟨right.positive, Nat.le_succ_of_le right.bound⟩
    · obtain ⟨positive, bound⟩ := valid.clauses c member m inClause
      exact ⟨positive, Nat.le_succ_of_le bound⟩
  definitions key v found := by
    rcases lookup_cons_eq_some_iff.mp found with ⟨rfl, rfl⟩ | ⟨_, old⟩
    · exact ⟨f, named, rfl, represents_define composes defines left right _⟩
    · exact valid.definition_later (extends_define e _ _) old
  realizable u := by
    obtain ⟨v, realizes⟩ := valid.realizable u
    have updated := realizes.update valid (f.eval u)
    refine ⟨_, (satisfied_define defines _ _).mpr ⟨?_, updated.satisfied⟩, updated.names⟩
    rw [left.holds_of_realizes updated, right.holds_of_realizes updated, ← composes.eval,
      Function.update_self]

end Define

/-- Formulas with one canonical text are one formula, so that a definition found by its
text stands for the formula that looks for it. -/
theorem encodes_known {f : Formula} {v : Nat} (valid : Valid e) (named : f.Named)
    (known : e.definitions.lookup f.canonical = some v) : Encodes e f (⟨v, true⟩, e) := by
  obtain ⟨g, namedOld, text, represents⟩ := valid.definitions _ v known
  obtain rfl := namedOld.canonical_injective named text
  exact ⟨valid, .refl e, represents⟩

theorem encodes_binary {f : Formula} {shape : Literal → Literal → Literal → List Clause}
    (valid : Valid e) (named : f.Named) (composes : Composes f l r connective)
    (defines : Defines shape connective) (left : ∀ {e}, Valid e → Encodes e l (e.literal l))
    (right : ∀ {e}, Valid e → Encodes e r (e.literal r)) :
    Encodes e f (match e.definitions.lookup f.canonical with
      | some v => (⟨v, true⟩, e)
      | none =>
        let (a, e) := e.literal l
        let (b, e) := e.literal r
        e.define f.canonical (shape · a b)) := by
  cases known : e.definitions.lookup f.canonical with
  | some v => exact encodes_known valid named known
  | none =>
    have left := left valid
    have right := right left.valid
    have operand := left.represents.mono right.later
    exact ⟨valid_define right.valid named composes defines operand right.represents,
      left.later.trans (right.later.trans (extends_define _ _ _)),
      represents_define composes defines operand right.represents _⟩

theorem encodes_literal {f : Formula} (valid : Valid e) (named : f.Named) :
    Encodes e f (e.literal f) := by
  induction f generalizing e with
  | var x => exact encodes_name valid x
  | not f ih =>
    have operand := ih valid (Formula.named_not.mp named)
    exact ⟨operand.valid, operand.later, operand.represents.negate⟩
  | and l r ihl ihr =>
    obtain ⟨left, right⟩ := Formula.named_and.mp named
    exact encodes_binary valid named ⟨rfl, fun _ => rfl⟩ andClauses_defines (ihl · left) (ihr · right)
  | or l r ihl ihr =>
    obtain ⟨left, right⟩ := Formula.named_or.mp named
    exact encodes_binary valid named ⟨rfl, fun _ => rfl⟩ orClauses_defines (ihl · left) (ihr · right)
  | implies l r ihl ihr =>
    obtain ⟨left, right⟩ := Formula.named_implies.mp named
    exact encodes_binary valid named ⟨rfl, fun _ => rfl⟩ impliesClauses_defines (ihl · left)
      (ihr · right)

theorem encodes_literals (valid : Valid e) (named : ∀ f ∈ fs, f.Named) :
    (e.literals fs).2.Valid ∧ e.Extends (e.literals fs).2 ∧
      List.Forall₂ (e.literals fs).2.Represents (e.literals fs).1 fs := by
  induction fs generalizing e with
  | nil => exact ⟨valid, .refl e, .nil⟩
  | cons f fs ih =>
    obtain ⟨first, others⟩ := List.forall_mem_cons.mp named
    have encodes := encodes_literal valid first
    obtain ⟨validRest, later, represents⟩ := ih encodes.valid others
    exact ⟨validRest, encodes.later.trans later, .cons (encodes.represents.mono later) represents⟩

section Solve

variable {e : Encoding} {ls : List Literal}

theorem satisfied_units_iff {u : Text → Bool} (represents : List.Forall₂ e.Represents ls fs)
    (realizes : e.Realizes u a) :
    Clause.Satisfied a (ls.map ([·]) ++ e.clauses) ↔ Satisfies u fs := by
  rw [Clause.satisfied_append, and_iff_left realizes.satisfied]
  induction represents with
  | nil => simp [Clause.Satisfied, Satisfies]
  | @cons l f ls fs first _ ih =>
    have unit : Clause.holds a [l] = l.holds a := by simp [Clause.holds]
    rw [List.map_cons, Clause.Satisfied, List.forall_mem_cons, Satisfies, List.forall_mem_cons, unit,
      first.holds_of_realizes realizes]
    exact and_congr_right' ih

theorem Valid.numbered_units (valid : Valid e) (represents : List.Forall₂ e.Represents ls fs) :
    Clause.Numbered (ls.map ([·]) ++ e.clauses) := by
  have definitions : Clause.Numbered e.clauses := fun c member l inClause =>
    (valid.clauses c member l inClause).1
  refine List.forall_mem_append.mpr ⟨?_, definitions⟩
  induction represents with
  | nil => simp
  | cons first _ ih => exact List.forall_mem_cons.mpr ⟨by simpa using first.positive, ih⟩

/-- What a correct solver finds for some literals is a model of their formulas. -/
theorem satisfies_of_solve {solver : Solver} (correct : solver.Correct) (valid : Valid e)
    (represents : List.Forall₂ e.Represents ls fs) (result : e.solve solver ls = some value) :
    Satisfies value fs := by
  unfold solve at result
  split at result
  next none =>
    obtain rfl := List.isEmpty_iff.mp none
    cases represents
    simp [Satisfies]
  next some =>
    obtain ⟨values, answer, rfl⟩ := Option.map_eq_some_iff.mp result
    have satisfied := (correct.values _ values (valid.numbered_units represents) answer).2
    have realizes : e.Realizes (e.read (Solver.value values)) (Solver.value values) :=
      ⟨(Clause.satisfied_append.mp satisfied).2, fun x v given => (read_eq given _).symm⟩
    exact (satisfied_units_iff represents realizes).mp satisfied

/-- A correct solver finds values for some literals if their formulas have a model. -/
theorem isSome_solve {solver : Solver} (correct : solver.Correct) (valid : Valid e)
    (represents : List.Forall₂ e.Represents ls fs) (consistent : Consistent fs) :
    (e.solve solver ls).isSome = true := by
  unfold solve
  split
  · rfl
  · obtain ⟨u, satisfies⟩ := consistent
    obtain ⟨a, realizes⟩ := valid.realizable u
    rw [Option.isSome_map]
    exact (correct.answers _ (valid.numbered_units represents)).mpr
      ⟨a, (satisfied_units_iff represents realizes).mpr satisfies⟩

theorem isNone_solve_iff {solver : Solver} (correct : solver.Correct) (valid : Valid e)
    (represents : List.Forall₂ e.Represents ls fs) :
    (e.solve solver ls).isNone = true ↔ ¬Consistent fs := by
  constructor
  · intro unsolved consistent
    have solved := isSome_solve correct valid represents consistent
    rw [Option.isNone_iff_eq_none.mp unsolved] at solved
    contradiction
  · intro unsatisfied
    by_contra solved
    obtain ⟨u, solved⟩ := Option.ne_none_iff_exists'.mp (mt Option.isNone_iff_eq_none.mpr solved)
    exact unsatisfied ⟨u, satisfies_of_solve correct valid represents solved⟩

end Solve

end Encoding

end Turnstile
